/-
# Broken lists, measured on the page

Whether a list is broken, and how far in its children stand, is decided by a column that is passed down
from list to list.  **That column is the true one**: it is the number of characters that stand in front
of the list on its line of the text, whatever was written before (`laid_iff`).  A first child stands
behind the marker and the bracket of its list, none of which ends a line.  Every other child stands
behind a new line and its spaces, so nothing of its elder siblings is in front of it, even where their
atoms run on over several lines.  So the layout can be described with all columns measured in the text
itself (`Laid`), and the pretty text is the one text that the description allows.

**Breaking lists changes nothing else.**  Where the lines are joined again, each to the one before it by
a single space, the compact text is back (`unbroken_layout`).  This asks that no atom has a line feed of
its own or begins with a space, because such characters would be taken for those of the layout.
-/
import Mathlib.Data.List.TakeWhile
import Sexpr.Proofs.Form.Printed
import Sexpr.Proofs.Text.Lines

namespace Sexpr.Form

open Text (column column_eq column_append)

/-! ## 1. Columns -/

/-- On a new line the column is that of its spaces, whatever stands before. -/
theorem column_newline (before : List Char) (margin : Nat) :
    column (before ++ newline margin) = margin := by
  rw [column_eq, newline, Position.column_after_newline _ _ _ (by simp), List.length_replicate]

theorem newline_not_mem_spell_marker (q : Option Marker) : '\n' ∉ Marker.spell q := by
  rcases q with _ | _ | _ <;> decide

theorem newline_ne_opener (b : Bracket) : '\n' ≠ b.opener := by cases b <;> decide

theorem newline_ne_closer (b : Bracket) : '\n' ≠ b.closer := by cases b <;> decide

/-- The first child of a list stands behind the marker and the bracket of the list. -/
theorem column_opener (before : List Char) (q : Option Marker) (b : Bracket) :
    column (before ++ (Marker.spell q ++ [b.opener])) =
      column before + (Marker.spell q).length + 1 := by
  rw [column_append, List.length_append, List.length_singleton, Nat.add_assoc]
  simp [newline_not_mem_spell_marker, newline_ne_opener]

/-! ## 2. Forms laid out -/

mutual

/-- Where `before` is all that stands in front of it, the form stands as `text`.  A list that fits
within the width of a line, on the line on which it begins, stands as its compact text, and no other
list does. -/
inductive Laid : (before : List Char) → Form → (text : List Char) → Prop
  | atom {before : List Char} {q : Option Marker} {p : Position} {t : Token} :
      Laid before (.atom q p t) (Marker.spell q ++ t.text.toList)
  | whole {before : List Char} {q : Option Marker} {p : Position} {b : Bracket} {cs : List Form}
      (h : column before + (Form.list q p b cs).compact.length ≤ lineWidth) :
      Laid before (.list q p b cs) (Form.list q p b cs).compact.toList
  | broken {before inner : List Char} {q : Option Marker} {p : Position} {b : Bracket}
      {cs : List Form} (h : lineWidth < column before + (Form.list q p b cs).compact.length)
      (hc : LaidAll (column before + (Marker.spell q).length + 2)
        (before ++ (Marker.spell q ++ [b.opener])) cs inner) :
      Laid before (.list q p b cs) (Marker.spell q ++ b.opener :: (inner ++ [b.closer]))

/-- The children of a broken list: the first directly behind the bracket, and the others on lines of
their own. -/
inductive LaidAll : (margin : Nat) → (before : List Char) → List Form → (text : List Char) → Prop
  | nil {margin : Nat} {before : List Char} : LaidAll margin before [] []
  | cons {margin : Nat} {before text rest : List Char} {c : Form} {cs : List Form}
      (hc : Laid before c text) (hr : LaidRest margin (before ++ text) cs rest) :
      LaidAll margin before (c :: cs) (text ++ rest)

/-- Children on lines of their own, each behind a line feed and `margin` spaces. -/
inductive LaidRest : (margin : Nat) → (before : List Char) → List Form → (text : List Char) → Prop
  | nil {margin : Nat} {before : List Char} : LaidRest margin before [] []
  | cons {margin : Nat} {before text rest : List Char} {c : Form} {cs : List Form}
      (hc : Laid (before ++ '\n' :: List.replicate margin ' ') c text)
      (hr : LaidRest margin (before ++ '\n' :: List.replicate margin ' ' ++ text) cs rest) :
      LaidRest margin before (c :: cs) ('\n' :: List.replicate margin ' ' ++ (text ++ rest))

end

theorem length_compact (f : Form) : f.compact.length = f.width := by
  rw [compact, String.length_ofList, length_spell]

theorem toList_compact (f : Form) : f.compact.toList = f.spell := String.toList_ofList

theorem toList_pretty (f : Form) : f.pretty.toList = f.layout 0 := String.toList_ofList

theorem fits_iff {f : Form} {before : List Char} :
    f.fits (column before) = true ↔ column before + f.compact.length ≤ lineWidth := by
  rw [fits, length_compact, decide_eq_true_iff]

mutual

/-- **The column that is passed down is the true one**, so a form is laid out as its text at this
column and as no other. -/
theorem laid_iff : ∀ (f : Form) {before text : List Char},
    Laid before f text ↔ text = f.layout (column before)
  | atom q p t, before, text => by
    rw [layout_atom, spell_atom]
    constructor
    · rintro ⟨⟩
      rfl
    · rintro rfl
      exact Laid.atom
  | list q p b cs, before, text => by
    by_cases hfits : (list q p b cs).fits (column before) = true
    · rw [layout_of_fits hfits, ← toList_compact]
      have hle := fits_iff.mp hfits
      constructor
      · intro h
        cases h with
        | whole _ => rfl
        | broken h _ => omega
      · rintro rfl
        exact Laid.whole hle
    · have hwide : lineWidth < column before + (list q p b cs).compact.length := by
        rw [fits_iff] at hfits
        omega
      -- The children are laid out at the columns that are passed down to them.
      have hfirst := column_opener before q b
      rw [layout_list_of_not_fits (by simpa using hfits)]
      constructor
      · intro h
        cases h with
        | whole h => omega
        | broken _ hc => rw [(laidAll_iff cs hfirst).mp hc]
      · rintro rfl
        exact Laid.broken hwide ((laidAll_iff cs hfirst).mpr rfl)

theorem laidAll_iff : ∀ (fs : List Form) {inner : Nat} {before text : List Char},
    column before = inner + 1 → (LaidAll (inner + 2) before fs text ↔ text = layoutAll inner fs)
  | [], inner, before, text, _ => by
    constructor
    · rintro ⟨⟩
      rfl
    · rintro rfl
      exact LaidAll.nil
  | c :: cs, inner, before, text, hcolumn => by
    rw [layoutAll_cons]
    constructor
    · intro h
      cases h with
      | cons hc hr => rw [(laid_iff c).mp hc, (laidRest_iff cs).mp hr, hcolumn, indent]
    · rintro rfl
      rw [← hcolumn]
      exact LaidAll.cons ((laid_iff c).mpr rfl) ((laidRest_iff cs).mpr rfl)

theorem laidRest_iff : ∀ (fs : List Form) {margin : Nat} {before text : List Char},
    LaidRest margin before fs text ↔ text = layoutRest margin fs
  | [], margin, before, text => by
    constructor
    · rintro ⟨⟩
      rfl
    · rintro rfl
      exact LaidRest.nil
  | c :: cs, margin, before, text => by
    have hcolumn := column_newline before margin
    rw [layoutRest_cons]
    constructor
    · intro h
      cases h with
      | cons hc hr =>
        rw [(laid_iff c).mp hc, (laidRest_iff cs).mp hr, ← newline, hcolumn]
    · rintro rfl
      refine LaidRest.cons ((laid_iff c).mpr ?_) ((laidRest_iff cs).mpr rfl)
      rw [← newline, hcolumn]

end

/-- **The layout of the pretty text.**  A form is laid out at the front of a text exactly as its pretty
text.  So in the pretty text every list that is not inside a list kept whole stands on the line where
it begins as its compact text, if that fits within the width; and if it does not fit, its first child
stands directly behind its bracket, every other child on a line of its own, two columns further in
than the bracket, and its closing bracket directly behind the last child. -/
theorem laid_iff_pretty (f : Form) (text : List Char) :
    Laid [] f text ↔ text = f.pretty.toList := by
  rw [toList_pretty]
  exact laid_iff f

/-! ## 3. Lines joined again -/

/-- The text with every line feed, together with the spaces that follow it, replaced by one space. -/
def unbroken : List Char → List Char
  | [] => []
  | c :: cs =>
    if c = '\n' then ' ' :: unbroken (cs.dropWhile (· = ' ')) else c :: unbroken cs
termination_by cs => cs.length
decreasing_by
  · exact Nat.lt_succ_of_le (List.length_dropWhile_le _ cs)
  · exact Nat.lt_succ_self _

/-- Where there is no line feed, nothing is replaced. -/
theorem unbroken_append : ∀ (cs rest : List Char), '\n' ∉ cs →
    unbroken (cs ++ rest) = cs ++ unbroken rest
  | [], _, _ => rfl
  | c :: cs, rest, h => by
    have hc : c ≠ '\n' := fun e => h (e ▸ List.mem_cons_self)
    rw [List.cons_append, unbroken, if_neg hc,
      unbroken_append cs rest fun hmem => h (List.mem_cons_of_mem _ hmem), List.cons_append]

/-- A new line is joined to the one before it, if it does not begin with a space of its own. -/
theorem unbroken_newline (margin : Nat) {rest : List Char} (h : rest.head? ≠ some ' ') :
    unbroken (newline margin ++ rest) = ' ' :: unbroken rest := by
  have hdrop : (List.replicate margin ' ' ++ rest).dropWhile (· = ' ') = rest := by
    rw [List.dropWhile_append_of_pos (by simp)]
    cases rest with
    | nil => rfl
    | cons c rest =>
      have hc : c ≠ ' ' := fun e => h (by rw [e]; rfl)
      simp [hc]
  rw [newline, List.cons_append, unbroken, if_pos rfl, hdrop]

/-- The text of the token has no line feed and does not begin with a space. -/
def Flat (t : Token) : Prop := '\n' ∉ t.text.toList ∧ t.text.toList.head? ≠ some ' '

mutual

/-- The compact text of flat atoms is on one line. -/
theorem newline_not_mem_spell : ∀ f : Form, (∀ t ∈ f.atoms, Flat t) → '\n' ∉ f.spell
  | atom q p t, h => by
    rw [spell_atom, List.mem_append, not_or]
    exact ⟨newline_not_mem_spell_marker q, (h t List.mem_cons_self).1⟩
  | list q p b cs, h => by
    have hinner := newline_not_mem_spellAll cs h
    simp [newline_not_mem_spell_marker, newline_ne_opener, newline_ne_closer, hinner]

theorem newline_not_mem_spellAll : ∀ fs : List Form, (∀ t ∈ atomsAll fs, Flat t) →
    '\n' ∉ spellAll fs
  | [], _ => List.not_mem_nil
  | c :: cs, h => by
    obtain ⟨hc, hcs⟩ := List.forall_mem_append.mp h
    rw [spellAll_cons, List.mem_append, not_or]
    exact ⟨newline_not_mem_spell c hc, newline_not_mem_spellRest cs hcs⟩

theorem newline_not_mem_spellRest : ∀ fs : List Form, (∀ t ∈ atomsAll fs, Flat t) →
    '\n' ∉ spellRest fs
  | [], _ => List.not_mem_nil
  | c :: cs, h => by
    obtain ⟨hc, hcs⟩ := List.forall_mem_append.mp h
    rw [spellRest_cons, List.mem_cons, List.mem_append, not_or, not_or]
    exact ⟨by decide, newline_not_mem_spell c hc, newline_not_mem_spellRest cs hcs⟩

end

/-- The layout of a list begins with its marker and its bracket. -/
theorem exists_layout_list (column : Nat) (q : Option Marker) (p : Position) (b : Bracket)
    (cs : List Form) : ∃ text, (list q p b cs).layout column = Marker.spell q ++ b.opener :: text := by
  cases hfits : (list q p b cs).fits column with
  | true => exact ⟨_, by rw [layout_of_fits hfits, spell_list]⟩
  | false => exact ⟨_, layout_list_of_not_fits hfits⟩

/-- A marker is no space. -/
theorem head?_marker_append (q : Option Marker) {rest : List Char} (h : rest.head? ≠ some ' ') :
    (Marker.spell q ++ rest).head? ≠ some ' ' := by
  rcases q with _ | _ | _
  · exact h
  · simp [Marker.spell, Marker.char]
  · simp [Marker.spell, Marker.char]

/-- A form of flat atoms begins with no space; if it has no text at all, what follows it decides. -/
theorem head?_layout_append (column : Nat) {f : Form} (h : ∀ t ∈ f.atoms, Flat t)
    {rest : List Char} (hrest : rest.head? ≠ some ' ') :
    (f.layout column ++ rest).head? ≠ some ' ' := by
  cases f with
  | atom q p t =>
    rw [layout_atom, spell_atom, List.append_assoc]
    refine head?_marker_append q ?_
    by_cases htext : t.text.toList = []
    · rwa [htext, List.nil_append]
    · rw [List.head?_append_of_ne_nil _ htext]
      exact (h t List.mem_cons_self).2
  | list q p b cs =>
    obtain ⟨text, htext⟩ := exists_layout_list column q p b cs
    rw [htext, List.append_assoc]
    refine head?_marker_append q ?_
    cases b <;> simp [Bracket.opener]

theorem head?_layoutRest_append (column : Nat) (fs : List Form) {rest : List Char}
    (h : rest.head? ≠ some ' ') : (layoutRest column fs ++ rest).head? ≠ some ' ' := by
  cases fs with
  | nil => exact h
  | cons c cs => simp [newline]

theorem head?_closer (b : Bracket) (rest : List Char) : (b.closer :: rest).head? ≠ some ' ' := by
  cases b <;> simp [Bracket.closer]

mutual

/-- **Wherever lists are broken, joining the lines again gives the compact text.** -/
theorem unbroken_layout (column : Nat) : ∀ (f : Form) (rest : List Char),
    (∀ t ∈ f.atoms, Flat t) → unbroken (f.layout column ++ rest) = f.spell ++ unbroken rest
  | atom q p t, rest, h => by
    rw [layout_atom, unbroken_append _ _ (newline_not_mem_spell _ h)]
  | list q p b cs, rest, h => by
    cases hfits : (list q p b cs).fits column with
    | true => rw [layout_of_fits hfits, unbroken_append _ _ (newline_not_mem_spell _ h)]
    | false =>
      -- Line feeds stand only among the children, between the two brackets.
      have hfront : '\n' ∉ Marker.spell q ++ [b.opener] := by
        simp [newline_not_mem_spell_marker, newline_ne_opener]
      have hclose : '\n' ∉ [b.closer] := by simp [newline_ne_closer]
      have hinner := unbroken_layoutAll (column + (Marker.spell q).length) cs (b.closer :: rest) h
        (head?_closer b rest)
      have hbehind := unbroken_append _ rest hclose
      rw [List.singleton_append, List.singleton_append] at hbehind
      have htext : (list q p b cs).layout column ++ rest =
          Marker.spell q ++ [b.opener] ++
            (layoutAll (column + (Marker.spell q).length) cs ++ b.closer :: rest) := by
        rw [layout_list_of_not_fits hfits]
        simp
      rw [htext, unbroken_append _ _ hfront, hinner, hbehind, spell_list]
      simp

theorem unbroken_layoutAll (inner : Nat) : ∀ (fs : List Form) (rest : List Char),
    (∀ t ∈ atomsAll fs, Flat t) → rest.head? ≠ some ' ' →
      unbroken (layoutAll inner fs ++ rest) = spellAll fs ++ unbroken rest
  | [], _, _, _ => rfl
  | c :: cs, rest, h, hrest => by
    obtain ⟨hc, hcs⟩ := List.forall_mem_append.mp h
    rw [layoutAll_cons, spellAll_cons, List.append_assoc, unbroken_layout _ c _ hc,
      unbroken_layoutRest _ cs rest hcs hrest, List.append_assoc]

theorem unbroken_layoutRest (column : Nat) : ∀ (fs : List Form) (rest : List Char),
    (∀ t ∈ atomsAll fs, Flat t) → rest.head? ≠ some ' ' →
      unbroken (layoutRest column fs ++ rest) = spellRest fs ++ unbroken rest
  | [], _, _, _ => rfl
  | c :: cs, rest, h, hrest => by
    obtain ⟨hc, hcs⟩ := List.forall_mem_append.mp h
    have hbehind := head?_layoutRest_append column cs hrest
    rw [layoutRest_cons, spellRest_cons, List.append_assoc, List.append_assoc,
      unbroken_newline column (head?_layout_append column hc hbehind), unbroken_layout _ c _ hc,
      unbroken_layoutRest column cs rest hcs hrest, List.cons_append, List.append_assoc]

end

/-- **Both texts of a form have the same content.**  If no atom has a line feed or begins with a space,
the pretty text is the compact text, but for the line feeds and indents that stand for spaces. -/
theorem unbroken_pretty (f : Form)
    (h : ∀ t ∈ f.atoms, '\n' ∉ t.text.toList ∧ t.text.toList.head? ≠ some ' ') :
    unbroken f.pretty.toList = f.compact.toList := by
  have hjoined := unbroken_layout 0 f [] h
  rw [unbroken, List.append_nil, List.append_nil] at hjoined
  rw [toList_pretty, toList_compact, hjoined]

/-- A broken list inside another, one column too wide where it begins; its second atom has no text at
all, and its line is nothing but spaces in front of the bracket. -/
theorem unbroken_pretty_nested :
    ∃ f : Form,
      f.pretty = "'(define\n   [\"01234567890123456789012345678901234567890123456789012\"\n     ])" ∧
      (∀ t ∈ f.atoms, '\n' ∉ t.text.toList ∧ t.text.toList.head? ≠ some ' ') ∧
      f.compact = "'(define [\"01234567890123456789012345678901234567890123456789012\" ])" ∧
      unbroken f.pretty.toList = f.compact.toList := by
  let f : Form := list (some .quote) .start .round
    [atom none .start ⟨.identifier, "define", .start⟩,
      list none .start .square
        [atom none .start
            ⟨.string, "\"01234567890123456789012345678901234567890123456789012\"", .start⟩,
          atom none .start ⟨.identifier, "", .start⟩]]
  have hflat : ∀ t ∈ f.atoms, '\n' ∉ t.text.toList ∧ t.text.toList.head? ≠ some ' ' := by
    decide +kernel
  exact ⟨f, by decide +kernel, hflat, by decide +kernel, unbroken_pretty f hflat⟩

end Sexpr.Form
