/-
# When two forms are the same

Forms are alike if they differ at most in places, and this is equality of the forms moved to the start.
So it is an equivalence, and alike forms have the same texts, the same size and the same depth.

**No place is ever written.**  The compact text of a form, its width, its text on several lines and
the text of a program are those of the forms moved to the start.  Where lines are broken depends on
widths alone.

**The texts tell forms apart, too, if their atoms are faithful.**  What is printed is read again: from
the text a form comes back that is alike to the one printed, and if two forms have the same text, it is
the same form that comes back (`Prints.alike`).  This asks nothing of how the lines are broken, so it
holds of the compact text and of the pretty one.
-/
import Sexpr.Proofs.Form.RoundTrip

namespace Sexpr.Form

/-! ## 1. What is written -/

mutual

theorem write_unplaced : ∀ (f : Form) (rest : List Char), f.unplaced.write rest = f.write rest
  | atom q p t, rest => rfl
  | list q p b cs, rest => by rw [unplaced, write, write, writeAll_unplacedAll]

theorem writeAll_unplacedAll : ∀ (fs : List Form) (rest : List Char),
    writeAll (unplacedAll fs) rest = writeAll fs rest
  | [], _ => rfl
  | c :: cs, rest => by
    rw [unplacedAll, writeAll, writeAll, write_unplaced, writeRest_unplacedAll]

theorem writeRest_unplacedAll : ∀ (fs : List Form) (rest : List Char),
    writeRest (unplacedAll fs) rest = writeRest fs rest
  | [], _ => rfl
  | c :: cs, rest => by
    rw [unplacedAll, writeRest, writeRest, write_unplaced, writeRest_unplacedAll]

end

/-- The compact text shows no place. -/
theorem spell_unplaced (f : Form) : f.unplaced.spell = f.spell := write_unplaced f []

/-- Neither does its length. -/
theorem width_unplaced (f : Form) : f.unplaced.width = f.width := by
  rw [← length_spell, ← length_spell, spell_unplaced]

theorem fits_unplaced (column : Nat) (f : Form) : f.unplaced.fits column = f.fits column := by
  rw [fits, fits, width_unplaced]

mutual

theorem writeAt_unplaced (column : Nat) : ∀ (f : Form) (rest : List Char),
    f.unplaced.writeAt column rest = f.writeAt column rest
  | atom q p t, rest => rfl
  | list q p b cs, rest => by
    have hfits := fits_unplaced column (list q p b cs)
    have hwrite := write_unplaced (list q p b cs) rest
    rw [unplaced] at hfits hwrite ⊢
    rw [writeAt, writeAt, hfits, hwrite, writeAllAt_unplacedAll]

theorem writeAllAt_unplacedAll (inner : Nat) : ∀ (fs : List Form) (rest : List Char),
    writeAllAt inner (unplacedAll fs) rest = writeAllAt inner fs rest
  | [], _ => rfl
  | c :: cs, rest => by
    rw [unplacedAll, writeAllAt, writeAllAt, writeAt_unplaced, writeRestAt_unplacedAll]

theorem writeRestAt_unplacedAll (column : Nat) : ∀ (fs : List Form) (rest : List Char),
    writeRestAt column (unplacedAll fs) rest = writeRestAt column fs rest
  | [], _ => rfl
  | c :: cs, rest => by
    rw [unplacedAll, writeRestAt, writeRestAt, writeAt_unplaced, writeRestAt_unplacedAll]

end

/-- Wherever the form begins, its text shows no place. -/
theorem layout_unplaced (column : Nat) (f : Form) : f.unplaced.layout column = f.layout column :=
  writeAt_unplaced column f []

theorem layoutProgram_unplacedAll : ∀ fs : List Form,
    layoutProgram (unplacedAll fs) = layoutProgram fs
  | [] => rfl
  | [f] => writeAt_unplaced 0 f ['\n']
  | f :: g :: fs => by
    have ih := layoutProgram_unplacedAll (g :: fs)
    simp only [unplacedAll] at ih ⊢
    rw [layoutProgram_cons_cons, layoutProgram_cons_cons, ih, layout_unplaced]

/-- **Alike forms make the same program.** -/
theorem program_eq_of_alikeAll {gs fs : List Form} (h : alikeAll gs fs = true) :
    program gs = program fs := by
  rw [program, program, ← layoutProgram_unplacedAll gs, alikeAll_iff_unplacedAll_eq.mp h,
    layoutProgram_unplacedAll]

/-! ## 2. What is read -/

/-- **A text is printed of one form only**, up to places, if the atoms are faithful. -/
theorem Prints.alike {a b : Form} {text : List Char} (ha : Prints a text) (hb : Prints b text)
    (hfa : a.Faithful) (hfb : b.Faithful) : a.alike b = true := by
  obtain ⟨f, hread, halike⟩ := ha.readForm hfa
  obtain ⟨g, hread', halike'⟩ := hb.readForm hfb
  obtain rfl : f = g := Except.ok.inj (hread.symm.trans hread')
  exact equivalence_alike.trans (equivalence_alike.symm halike) halike'

theorem alike_of_compact_eq {a b : Form} (ha : a.Faithful) (hb : b.Faithful)
    (h : a.compact = b.compact) : a.alike b = true := by
  have hspell : a.spell = b.spell := String.ofList_injective h
  exact (prints_spell a).alike (hspell ▸ prints_spell b) ha hb

theorem alike_of_pretty_eq {a b : Form} (ha : a.Faithful) (hb : b.Faithful)
    (h : a.pretty = b.pretty) : a.alike b = true := by
  have hlayout : a.layout 0 = b.layout 0 := String.ofList_injective h
  exact (prints_layout 0 a).alike (hlayout ▸ prints_layout 0 b) ha hb

/-- **When two forms are the same.**  Forms are alike exactly if they are equal once all their places
are set to the start, and this is an equivalence.  Alike forms have the same compact text, the same
pretty text, the same size and the same depth; and forms with faithful atoms are alike if they have the
same compact text, or the same pretty text. -/
theorem alike_complete :
    (∀ a b : Form, a.alike b = true ↔ a.unplaced = b.unplaced) ∧
      (Equivalence fun a b : Form => a.alike b = true) ∧
      (∀ a b : Form, a.alike b = true → a.compact = b.compact ∧ a.pretty = b.pretty ∧
        a.size = b.size ∧ a.depth = b.depth) ∧
      ∀ a b : Form, (∀ t ∈ a.atoms, t.Faithful) → (∀ t ∈ b.atoms, t.Faithful) →
        (a.compact = b.compact → a.alike b = true) ∧ (a.pretty = b.pretty → a.alike b = true) := by
  refine ⟨fun a b => alike_iff_unplaced_eq, equivalence_alike, fun a b h => ?_, fun a b ha hb => ?_⟩
  · have hspell := eq_of_alike spell_unplaced h
    have hlayout := eq_of_alike (layout_unplaced 0) h
    exact ⟨congrArg String.ofList hspell, congrArg String.ofList hlayout,
      eq_of_alike size_unplaced h, eq_of_alike depth_unplaced h⟩
  · exact ⟨alike_of_compact_eq ha hb, alike_of_pretty_eq ha hb⟩

/-- The same form read from two sources that have nothing but their tokens in common. -/
theorem alike_complete_places :
    ∃ a b : Form, readForm "'(x 1.)" = .ok a ∧ readForm "'\n(x;c\n1.)" = .ok b ∧ a ≠ b ∧
      (∀ t ∈ a.atoms, t.Faithful) ∧ (∀ t ∈ b.atoms, t.Faithful) ∧ a.compact = b.compact ∧
      a.alike b = true ∧ a.pretty = b.pretty ∧ a.size = b.size ∧ a.depth = b.depth := by
  have ha : readForm "'(x 1.)" = .ok (list (some .quote) ⟨1, 2⟩ .round
      [atom none ⟨1, 3⟩ ⟨.identifier, "x", ⟨1, 3⟩⟩, atom none ⟨1, 6⟩ ⟨.float, "1.", ⟨1, 6⟩⟩]) := by rfl
  have hb : readForm "'\n(x;c\n1.)" = .ok (list (some .quote) ⟨2, 1⟩ .round
      [atom none ⟨2, 2⟩ ⟨.identifier, "x", ⟨2, 2⟩⟩, atom none ⟨3, 2⟩ ⟨.float, "1.", ⟨3, 2⟩⟩]) := by rfl
  have hfa := faithful_of_readForm ha
  have hfb := faithful_of_readForm hb
  obtain ⟨-, -, hshared, htold⟩ := alike_complete
  have halike := (htold _ _ hfa hfb).1 (by rfl)
  obtain ⟨hcompact, hmeasures⟩ := hshared _ _ halike
  exact ⟨_, _, ha, hb, by simp, hfa, hfb, hcompact, halike, hmeasures⟩

end Sexpr.Form
