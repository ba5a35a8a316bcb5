/-
# Printed forms

A form is PRINTED if its marker, its brackets and the texts of its atoms stand in order, with a gap
that is not empty between two children and nothing anywhere else (`Form.Prints`).  The compact text
of a form is printed, with single spaces for gaps, and so are its text on several lines and that of
a program, with line feeds and indents for gaps.  Where lines are broken plays no part below.

**Printed faithful atoms read back.**  The text of an atom is followed by a closing bracket, by a
gap or by the end, and all of these are free, so the lexeme ends where the atom does.  Brackets and
markers end by themselves.  So a printed form is cut into the tokens of a form alike to it, whatever
may be read behind it (`Prints.reads`).
-/
import Sexpr.Form.Alike
import Sexpr.Form.Layout
import Sexpr.Proofs.Form.Linear
import Sexpr.Proofs.Token.Faithful

namespace Sexpr.Form

open Token (Gap Free Cut Lexeme)
open Slot (marks)

/-! ## 1. Atoms -/

mutual

/-- The tokens of the atoms in a form. -/
def atoms : Form → List Token
  | atom _ _ t => [t]
  | list _ _ _ cs => atomsAll cs

def atomsAll : List Form → List Token
  | [] => []
  | c :: cs => c.atoms ++ atomsAll cs

end

/-- Reading every atom of the form by itself gives the atom back. -/
def Faithful (f : Form) : Prop := ∀ t ∈ f.atoms, t.Faithful

def FaithfulAll (fs : List Form) : Prop := ∀ t ∈ atomsAll fs, t.Faithful

theorem faithfulAll_cons {c : Form} {cs : List Form} :
    FaithfulAll (c :: cs) ↔ c.Faithful ∧ FaithfulAll cs := by
  unfold FaithfulAll Faithful
  rw [atomsAll]
  exact List.forall_mem_append

theorem faithfulAll_iff {fs : List Form} : FaithfulAll fs ↔ ∀ f ∈ fs, f.Faithful := by
  induction fs with
  | nil => exact ⟨fun _ => nofun, fun _ => nofun⟩
  | cons f fs ih => rw [faithfulAll_cons, ih, List.forall_mem_cons]

/-! ## 2. Printed forms -/

mutual

/-- The text is the form, with gaps only between children. -/
inductive Prints : Form → List Char → Prop
  | atom {q : Option Marker} {p : Position} {t : Token} :
      Prints (.atom q p t) (Marker.spell q ++ t.text.toList)
  | list {q : Option Marker} {p : Position} {b : Bracket} {cs : List Form} {inner : List Char}
      (h : PrintsAll cs inner) :
      Prints (.list q p b cs) (Marker.spell q ++ b.opener :: (inner ++ [b.closer]))

/-- The text is the forms, with gaps between them. -/
inductive PrintsAll : List Form → List Char → Prop
  | nil : PrintsAll [] []
  | cons {c : Form} {cs : List Form} {text rest : List Char} (hc : Prints c text)
      (hr : PrintsRest cs rest) : PrintsAll (c :: cs) (text ++ rest)

/-- The text is the forms, each behind a gap. -/
inductive PrintsRest : List Form → List Char → Prop
  | nil : PrintsRest [] []
  | cons {c : Form} {cs : List Form} {g text rest : List Char} (hg : Gap g) (hne : g ≠ [])
      (hc : Prints c text) (hr : PrintsRest cs rest) :
      PrintsRest (c :: cs) (g ++ (text ++ rest))

end

/-! ## 3. The texts that are printed -/

mutual

theorem prints_spell : ∀ f : Form, Prints f f.spell
  | atom q p t => by
    rw [spell_atom]
    exact Prints.atom
  | list q p b cs => by
    rw [spell_list]
    exact Prints.list (printsAll_spellAll cs)

theorem printsAll_spellAll : ∀ fs : List Form, PrintsAll fs (spellAll fs)
  | [] => PrintsAll.nil
  | c :: cs => by
    rw [spellAll_cons]
    exact PrintsAll.cons (prints_spell c) (printsRest_spellRest cs)

theorem printsRest_spellRest : ∀ fs : List Form, PrintsRest fs (spellRest fs)
  | [] => PrintsRest.nil
  | c :: cs => by
    have hg : Gap [' '] := Gap.blank rfl Gap.nil
    rw [spellRest_cons]
    exact PrintsRest.cons hg (by simp) (prints_spell c) (printsRest_spellRest cs)

end

theorem gap_newline (column : Nat) : Gap (newline column) := by
  refine Gap.blank rfl ?_
  induction column with
  | zero => exact Gap.nil
  | succ column ih => exact Gap.blank rfl ih

mutual

/-- Wherever its lines are broken, the text of a form is printed. -/
theorem prints_layout (column : Nat) : ∀ f : Form, Prints f (f.layout column)
  | atom q p t => by
    rw [layout_atom]
    exact prints_spell _
  | list q p b cs => by
    cases hfits : (list q p b cs).fits column with
    | true =>
      rw [layout_of_fits hfits]
      exact prints_spell _
    | false =>
      rw [layout_list_of_not_fits hfits]
      exact Prints.list (printsAll_layoutAll _ cs)

theorem printsAll_layoutAll (inner : Nat) : ∀ fs : List Form, PrintsAll fs (layoutAll inner fs)
  | [] => PrintsAll.nil
  | c :: cs => by
    rw [layoutAll_cons]
    exact PrintsAll.cons (prints_layout _ c) (printsRest_layoutRest _ cs)

theorem printsRest_layoutRest (column : Nat) : ∀ fs : List Form,
    PrintsRest fs (layoutRest column fs)
  | [] => PrintsRest.nil
  | c :: cs => by
    rw [layoutRest_cons]
    exact PrintsRest.cons (gap_newline column) (by simp [newline]) (prints_layout _ c)
      (printsRest_layoutRest _ cs)

end

/-! ## 4. Printed forms read back -/

/-- Read from the place `p` and before whatever is free, the text is cut into these tokens. -/
def Reads (p : Position) (text : List Char) (ts : List Token) : Prop :=
  ∀ rest us, Free rest.head? → Cut (p.after text) rest us → Cut p (text ++ rest) (ts ++ us)

theorem Reads.nil {p : Position} : Reads p [] [] := fun _ _ _ h => h

/-- A text that begins free may stand behind any other. -/
theorem Reads.append {p : Position} {text text' : List Char} {ts ts' : List Token}
    (h : Reads p text ts) (h' : Reads (p.after text) text' ts')
    (hfree : ∀ rest : List Char, Free rest.head? → Free (text' ++ rest).head?) :
    Reads p (text ++ text') (ts ++ ts') := by
  intro rest us hrest hcut
  rw [Position.after_append] at hcut
  rw [List.append_assoc, List.append_assoc]
  exact h _ _ (hfree rest hrest) (h' rest us hrest hcut)

/-- A marker and a bracket end by themselves, so anything may follow. -/
theorem cut_single {p : Position} {c : Char} {kind : Token.Kind} {rest : List Char}
    {us : List Token} (h : Token.Kind.ofChar? c = some kind) (hcut : Cut (p.advance c) rest us) :
    Cut p (c :: rest) (⟨kind, String.ofList [c], p.advance c⟩ :: us) :=
  Cut.lexeme (Lexeme.single h) hcut

/-- The token of a marker, if there is one. -/
theorem exists_marks (p : Position) (q : Option Marker) :
    ∃ ms, List.Forall₂ Slot.Fits (marks q) ms ∧
      ∀ rest us, Cut (p.after (Marker.spell q)) rest us →
        Cut p (Marker.spell q ++ rest) (ms ++ us) := by
  cases q with
  | none => exact ⟨[], List.Forall₂.nil, fun _ _ h => h⟩
  | some m =>
    refine ⟨[⟨.marker m, String.ofList [m.char], p.advance m.char⟩], ?_, ?_⟩
    · exact List.Forall₂.cons (Slot.fits_marker.mpr rfl) List.Forall₂.nil
    · intro rest us h
      exact cut_single (Token.Kind.ofChar?_char m) h

/-- Behind the first child a text begins free, if what follows it does. -/
theorem PrintsRest.free {cs : List Form} {text : List Char} (h : PrintsRest cs text)
    (rest : List Char) (hrest : Free rest.head?) : Free (text ++ rest).head? := by
  cases h with
  | nil => exact hrest
  | cons hg hne _ _ =>
    rw [List.append_assoc]
    exact hg.free hne _

mutual

/-- **A printed form is cut into the tokens of a form alike to it.**  The places in that form are
those the tokens have behind `p`. -/
theorem Prints.reads : ∀ (f : Form) {text : List Char}, Prints f text → f.Faithful →
    ∀ p : Position, ∃ (g : Form) (ts : List Token), g.alike f = true ∧
      List.Forall₂ Slot.Fits g.linear ts ∧ Reads p text ts
  | atom q _ t, _, .atom, hf, p => by
    obtain ⟨ms, hms, hcut⟩ := exists_marks p q
    obtain ⟨ha, hw⟩ := Token.faithful_iff.mp (hf t List.mem_cons_self)
    let place := (p.after (Marker.spell q)).after t.text.toList
    let u : Token := ⟨t.kind, t.text, place⟩
    have hu : (Slot.atom place u).Fits u := Slot.fits_atom.mpr ⟨ha, rfl, rfl⟩
    refine ⟨atom q place u, ms ++ [u], ?_, ?_, ?_⟩
    · simp [alike, u]
    · exact List.rel_append hms (List.Forall₂.cons hu List.Forall₂.nil)
    · intro rest us hrest hnext
      rw [List.append_assoc, List.append_assoc]
      refine hcut _ _ ?_
      rw [Position.after_append] at hnext
      have hlex := Cut.lexeme (hw.before hrest) hnext
      rwa [String.ofList_toList] at hlex
  | list q _ b cs, _, @Prints.list _ _ _ _ inner h, hf, p => by
    obtain ⟨ms, hms, hcut⟩ := exists_marks p q
    let place := (p.after (Marker.spell q)).advance b.opener
    let close := (place.after inner).advance b.closer
    let o : Token := ⟨.opening b, String.ofList [b.opener], place⟩
    let c : Token := ⟨.closing b, String.ofList [b.closer], close⟩
    obtain ⟨ds, ts, halike, hts, hreads⟩ := PrintsAll.reads cs h hf place
    have ho : (Slot.opening b place).Fits o := Slot.fits_opening.mpr ⟨rfl, rfl⟩
    have hc : (Slot.closing b).Fits c := Slot.fits_closing.mpr rfl
    refine ⟨list q place b ds, ms ++ o :: (ts ++ [c]), ?_, ?_, ?_⟩
    · simp [alike, halike]
    · have hinner := List.rel_append hts (List.Forall₂.cons hc List.Forall₂.nil)
      exact List.rel_append hms (List.Forall₂.cons ho hinner)
    · intro rest us hrest hnext
      have hplace : p.after (Marker.spell q ++ b.opener :: (inner ++ [b.closer])) = close := by
        simp [close, place]
      rw [hplace] at hnext
      have hclose := cut_single (Token.Kind.ofChar?_closer b) hnext
      have hinner := hreads (b.closer :: rest) _ (Token.free_closer b) hclose
      have hopen := hcut _ _ (cut_single (Token.Kind.ofChar?_opener b) hinner)
      simpa [o, c, place, close] using hopen

theorem PrintsAll.reads : ∀ (fs : List Form) {text : List Char}, PrintsAll fs text →
    FaithfulAll fs → ∀ p : Position, ∃ gs ts, alikeAll gs fs = true ∧
      List.Forall₂ Slot.Fits (linearAll gs) ts ∧ Reads p text ts
  | [], _, .nil, _, _ => ⟨[], [], rfl, List.Forall₂.nil, Reads.nil⟩
  | c :: cs, _, @PrintsAll.cons _ _ text rest hc hr, hf, p => by
    obtain ⟨hfc, hfcs⟩ := faithfulAll_cons.mp hf
    obtain ⟨g, ts, halike, hts, hreads⟩ := Prints.reads c hc hfc p
    obtain ⟨gs, us, halikes, hus, hrest⟩ := PrintsRest.reads cs hr hfcs (p.after text)
    refine ⟨g :: gs, ts ++ us, ?_, List.rel_append hts hus, hreads.append hrest hr.free⟩
    rw [alikeAll, halike, halikes, Bool.and_self]

theorem PrintsRest.reads : ∀ (fs : List Form) {text : List Char}, PrintsRest fs text →
    FaithfulAll fs → ∀ p : Position, ∃ gs ts, alikeAll gs fs = true ∧
      List.Forall₂ Slot.Fits (linearAll gs) ts ∧ Reads p text ts
  | [], _, .nil, _, _ => ⟨[], [], rfl, List.Forall₂.nil, Reads.nil⟩
  | c :: cs, _, @PrintsRest.cons _ _ gap text rest hg _ hc hr, hf, p => by
    obtain ⟨hfc, hfcs⟩ := faithfulAll_cons.mp hf
    obtain ⟨g, ts, halike, hts, hreads⟩ := Prints.reads c hc hfc (p.after gap)
    obtain ⟨gs, us, halikes, hus, hrest⟩ :=
      PrintsRest.reads cs hr hfcs ((p.after gap).after text)
    refine ⟨g :: gs, ts ++ us, ?_, List.rel_append hts hus, ?_⟩
    · rw [alikeAll, halike, halikes, Bool.and_self]
    · intro after vs hafter hnext
      rw [Position.after_append] at hnext
      rw [List.append_assoc]
      exact Cut.gap hg ((hreads.append hrest hr.free) after vs hafter hnext)

end

end Sexpr.Form
