/-
# Sizes and depths, counted in the tokens

The size of a form is the number of its atoms and lists, and its depth is how far they are nested.
Each atom and each list has one token with which it begins, its marker aside, so the size is the
number of these tokens.  **The depth is the greatest level at which one of them stands**, where the
level of a token is one more than the number of brackets that are open before it (`levels`).

Tokens are put together as forms are, and what they measure goes with them (`Measured`): one behind
the other, they add to the size and keep the greater depth; between two brackets, they are one more
in size and one level deeper.  The brackets of a form close each other, so what stands behind it is
on the level of what stands before it.
-/
import Mathlib.Data.Nat.Cast.Order.Ring
import Mathlib.Algebra.Order.Ring.Int
import Mathlib.Order.Bounds.Image
import Sexpr.Proofs.Form.Refusal

namespace Sexpr.Form

/-! ## 1. Levels -/

/-- A token of this kind is neither a closing bracket nor a marker, so it begins an atom or a list. -/
def begins (k : Token.Kind) : Bool := k.closes?.isNone && k.marks?.isNone

/-- By how many the opening brackets exceed the closing ones. -/
def excess (ts : List Token) : Int := openings ts - closings ts

/-- The levels on which atoms and lists begin: one more than there are brackets open before their
tokens. -/
def levels (ts : List Token) : Set Int :=
  {l | ∃ i t, ts[i]? = some t ∧ begins t.kind = true ∧ l = 1 + excess (ts.take i)}

theorem excess_append (ts us : List Token) : excess (ts ++ us) = excess ts + excess us := by
  simp only [excess, openings, closings, List.countP_append]
  omega

theorem levels_nil : levels [] = ∅ := by
  simp [levels]

theorem levels_singleton (t : Token) : levels [t] = {l | begins t.kind = true ∧ l = 1} := by
  ext l
  constructor
  · rintro ⟨i, u, hu, hb, rfl⟩
    obtain ⟨rfl, rfl⟩ : i = 0 ∧ t = u := by simpa [List.getElem?_singleton] using hu
    exact ⟨hb, rfl⟩
  · rintro ⟨hb, rfl⟩
    exact ⟨0, t, rfl, hb, rfl⟩

/-- **Behind other tokens**, the levels are moved by as many brackets as those leave open. -/
theorem levels_append (ts us : List Token) :
    levels (ts ++ us) = levels ts ∪ (excess ts + ·) '' levels us := by
  ext l
  constructor
  · rintro ⟨i, t, ht, hb, rfl⟩
    by_cases hi : i < ts.length
    · rw [List.getElem?_append_left hi] at ht
      rw [List.take_append_of_le_length (Nat.le_of_lt hi)]
      exact Or.inl ⟨i, t, ht, hb, rfl⟩
    · obtain ⟨k, rfl⟩ := Nat.exists_eq_add_of_le (Nat.le_of_not_lt hi)
      rw [List.getElem?_append_right (Nat.le_add_right _ _), Nat.add_sub_cancel_left] at ht
      rw [List.take_length_add_append, excess_append, Int.add_left_comm]
      exact Or.inr ⟨_, ⟨k, t, ht, hb, rfl⟩, rfl⟩
  · rintro (⟨i, t, ht, hb, rfl⟩ | ⟨_, ⟨k, t, ht, hb, rfl⟩, rfl⟩)
    · have hi : i < ts.length := (List.getElem?_eq_some_iff.mp ht).1
      refine ⟨i, t, by rw [List.getElem?_append_left hi, ht], hb, ?_⟩
      rw [List.take_append_of_le_length (Nat.le_of_lt hi)]
    · refine ⟨ts.length + k, t, ?_, hb, ?_⟩
      · rw [List.getElem?_append_right (Nat.le_add_right _ _), Nat.add_sub_cancel_left, ht]
      · rw [List.take_length_add_append, excess_append, Int.add_left_comm]

/-! ## 2. Tokens that are measured -/

/-- So many atoms and lists begin in the tokens, so deep is the deepest of them, and no bracket is
left open or closed too often.  Where nothing begins, the depth is zero. -/
structure Measured (size depth : Nat) (ts : List Token) : Prop where
  count : ts.countP (fun t => begins t.kind) = size
  deepest : IsGreatest (insert 0 (levels ts)) (depth : Int)
  balance : excess ts = 0

namespace Measured

variable {size depth size' depth' : Nat} {ts us : List Token} {t : Token}

theorem nil : Measured 0 0 [] := by
  refine ⟨rfl, ?_, rfl⟩
  rw [levels_nil, insert_empty_eq]
  exact isGreatest_singleton

/-- **One behind the other**, on the same level. -/
theorem append (h : Measured size depth ts) (h' : Measured size' depth' us) :
    Measured (size + size') (max depth depth') (ts ++ us) := by
  refine ⟨?_, ?_, ?_⟩
  · rw [List.countP_append, h.count, h'.count]
  · have hlevels : levels (ts ++ us) = levels ts ∪ levels us := by
      rw [levels_append, h.balance]
      simp
    rw [hlevels, Set.insert_union_distrib, Nat.cast_max]
    exact h.deepest.union h'.deepest
  · rw [excess_append, h.balance, h'.balance, Int.add_zero]

/-- A marker measures nothing. -/
theorem marker {m : Marker} (hk : t.kind = .marker m) : Measured 0 0 [t] := by
  have hb : begins t.kind = false := by rw [hk]; rfl
  refine ⟨by simp [hb], ?_, ?_⟩
  · rw [levels_singleton, hb]
    simp
  · simp [excess, openings, closings, hk, Token.Kind.opens?, Token.Kind.closes?]

theorem atom (hk : t.kind.isAtomic = true) : Measured 1 1 [t] := by
  obtain ⟨ho, hc, hm⟩ := Token.Kind.isAtomic_iff.mp hk
  have hb : begins t.kind = true := by simp [begins, hc, hm]
  refine ⟨by simp [hb], ?_, by simp [excess, openings, closings, ho, hc]⟩
  have hlevels : levels [t] = {1} := by simp [levels_singleton, hb]
  rw [hlevels]
  exact isGreatest_singleton.insert 0

/-- **Between two brackets**, one level deeper. -/
theorem between {b : Bracket} {o c : Token} (ho : o.kind = .opening b) (hc : c.kind = .closing b)
    (h : Measured size depth ts) : Measured (1 + size) (1 + depth) ([o] ++ (ts ++ [c])) := by
  have hbo : begins o.kind = true := by rw [ho]; rfl
  have hbc : begins c.kind = false := by rw [hc]; rfl
  have hopen : excess [o] = 1 := by
    simp [excess, openings, closings, ho, Token.Kind.opens?, Token.Kind.closes?]
  have hclose : excess [c] = -1 := by
    simp [excess, openings, closings, hc, Token.Kind.opens?, Token.Kind.closes?]
  refine ⟨?_, ?_, ?_⟩
  · rw [List.countP_append, List.countP_append, h.count]
    simp [hbo, hbc]
  · -- The zero below all levels, moved by one, is the level on which the list itself begins.
    have hlevels : levels ([o] ++ (ts ++ [c])) = (1 + ·) '' insert 0 (levels ts) := by
      have ho' : levels [o] = {1} := by simp [levels_singleton, hbo]
      have hc' : levels [c] = ∅ := by simp [levels_singleton, hbc]
      rw [levels_append, levels_append, ho', hc', hopen, Set.image_empty, Set.union_empty,
        Set.image_insert_eq, Int.add_zero]
      rfl
    have hinner : IsGreatest ((1 + ·) '' insert 0 (levels ts)) (1 + (depth : Int)) :=
      Monotone.map_isGreatest (fun _ _ h => Int.add_le_add_left h 1) h.deepest
    have hall := hinner.insert 0
    rw [hlevels]
    rwa [max_eq_right (by omega)] at hall
  · rw [excess_append, excess_append, h.balance, hopen, hclose]
    rfl

/-- The marker of a form, if there is one. -/
theorem marks {q : Option Marker} (h : List.Forall₂ Slot.Fits (Slot.marks q) ts) :
    Measured 0 0 ts := by
  cases q with
  | none =>
    obtain rfl := List.forall₂_nil_left_iff.mp h
    exact nil
  | some m =>
    obtain ⟨t, us, ht, hnil, rfl⟩ := List.forall₂_cons_left_iff.mp h
    obtain rfl := List.forall₂_nil_left_iff.mp hnil
    exact marker (Slot.fits_marker.mp ht)

end Measured

/-! ## 3. Forms are measured by their tokens -/

mutual

/-- **The tokens of a form measure it**, by induction on the form. -/
theorem measured_linear : ∀ (f : Form) (ts : List Token),
    List.Forall₂ Slot.Fits f.linear ts → Measured f.size f.depth ts
  | atom q p t, ts, h => by
    obtain ⟨ms, rfl, hm, hk, -⟩ := exists_tokens_of_atom h
    simpa [size, depth] using (Measured.marks hm).append (Measured.atom hk)
  | list q p b cs, ts, h => by
    obtain ⟨ms, o, inner, c, rfl, hm, ho, -, hinner, hc⟩ := exists_tokens_of_list h
    have hlist := (measured_linearAll cs inner hinner).between ho hc
    simpa [size, depth] using (Measured.marks hm).append hlist

theorem measured_linearAll : ∀ (fs : List Form) (ts : List Token),
    List.Forall₂ Slot.Fits (linearAll fs) ts → Measured (sizeAll fs) (depthAll fs) ts
  | [], ts, h => by
    obtain rfl := List.forall₂_nil_left_iff.mp h
    exact Measured.nil
  | f :: fs, ts, h => by
    obtain ⟨us, us', rfl, hf, hfs⟩ := forall₂_append_left.mp h
    exact (measured_linear f us hf).append (measured_linearAll fs us' hfs)

end

theorem sizeAll_eq_sum (fs : List Form) : sizeAll fs = (fs.map size).sum := by
  induction fs with
  | nil => rfl
  | cons f fs ih => rw [sizeAll, List.map_cons, List.sum_cons, ih]

theorem depthAll_eq_foldr (fs : List Form) : depthAll fs = (fs.map depth).foldr max 0 := by
  induction fs with
  | nil => rfl
  | cons f fs ih => rw [depthAll, List.map_cons, List.foldr_cons, ih]

theorem one_le_depth (f : Form) : 1 ≤ f.depth := by
  cases f with
  | atom q p t => exact Nat.le_refl 1
  | list q p b cs => exact Nat.le_add_right 1 _

/-- Only no forms at all have no depth. -/
theorem depthAll_ne_zero {fs : List Form} (h : fs ≠ []) : depthAll fs ≠ 0 := by
  obtain ⟨f, fs, rfl⟩ := List.exists_cons_of_ne_nil h
  have hf := one_le_depth f
  rw [depthAll]
  omega

/-- **The measures of the forms, in their tokens.**  As many atoms and lists are read as there are tokens
that begin one.  The deepest form is as deep as the deepest level on which one of these tokens stands; and
where no form is read there is no such token. -/
theorem measures_of_parseAll {ts : List Token} {source? : Option String} {forms : List Form}
    (h : parseAll ts source? = .ok forms) :
    (forms.map size).sum = ts.countP (fun t => begins t.kind) ∧
      (forms ≠ [] → IsGreatest (levels ts) (((forms.map depth).foldr max 0 : Nat) : Int)) ∧
      (forms = [] → levels ts = ∅) := by
  have hfits := Reader.fits_of_run (parseAll_eq_ok_iff_run.mp h)
  obtain ⟨hcount, hdeepest, -⟩ := measured_linearAll forms ts hfits
  refine ⟨?_, ?_, ?_⟩
  · rw [hcount, sizeAll_eq_sum]
  · intro hne
    rw [← depthAll_eq_foldr]
    have hpos : (depthAll forms : Int) ≠ 0 := by exact_mod_cast depthAll_ne_zero hne
    exact ⟨hdeepest.1.resolve_left hpos, fun l hl => hdeepest.2 (Or.inr hl)⟩
  · rintro rfl
    obtain rfl := List.forall₂_nil_left_iff.mp hfits
    exact levels_nil

/-- A quoted list in a list, and an atom behind them. -/
theorem measures_of_parseAll_nested :
    ∃ ts forms, ts.map Token.text = ["(", "'", "[", "7", "]", ")", "x"] ∧
      parseAll ts none = .ok forms ∧ (forms.map size).sum = 4 ∧
      4 = ts.countP (fun t => begins t.kind) ∧ IsGreatest (levels ts) 3 := by
  let ts : List Token := [⟨.opening .round, "(", ⟨1, 1⟩⟩, ⟨.marker .quote, "'", ⟨1, 2⟩⟩,
    ⟨.opening .square, "[", ⟨1, 3⟩⟩, ⟨.int, "7", ⟨1, 4⟩⟩, ⟨.closing .square, "]", ⟨1, 5⟩⟩,
    ⟨.closing .round, ")", ⟨1, 6⟩⟩, ⟨.identifier, "x", ⟨1, 8⟩⟩]
  let inner : Form := .list (some .quote) ⟨1, 3⟩ .square [.atom none ⟨1, 4⟩ ⟨.int, "7", ⟨1, 4⟩⟩]
  let last : Form := .atom none ⟨1, 8⟩ ⟨.identifier, "x", ⟨1, 8⟩⟩
  have hread : parseAll ts none = .ok [.list none ⟨1, 1⟩ .round [inner], last] := rfl
  obtain ⟨hsize, hdepth, -⟩ := measures_of_parseAll hread
  exact ⟨ts, _, rfl, hread, rfl, hsize, hdepth (List.cons_ne_nil _ _)⟩

end Sexpr.Form
