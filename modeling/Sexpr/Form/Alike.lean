/-
# Comparing forms

Two forms are equal if nothing tells them apart, their places and those of their parts included
(`decEq`).  They are ALIKE if they differ at most in where they stand: the same quotations and
brackets throughout, and atoms of the same kind and text.

`alike` compares two forms side by side; `unplaced` is the other way to say it, one form at a
time: it moves a form and all of its parts to one fixed place.  **Forms are alike exactly if this
makes them equal** (`alike_iff_unplaced_eq`).  So whatever cannot tell a form from the same form
moved to the start cannot tell alike forms apart either (`eq_of_alike`), which is shown with one
form at a time.  No place is counted: the form has the size and the depth that it has at the start.
-/
import Sexpr.Form.Basic

namespace Sexpr.Form

/-! ## 1. Equality -/

mutual

/-- Two forms are equal or not, places included. -/
def decEq : (a b : Form) → Decidable (a = b)
  | atom q p t, atom q' p' t' =>
    decidable_of_iff (q = q' ∧ p = p' ∧ t = t') (by simp)
  | list q p b cs, list q' p' b' cs' =>
    match decEqAll cs cs' with
    | isTrue h => decidable_of_iff (q = q' ∧ p = p' ∧ b = b') (by simp [h])
    | isFalse h => isFalse (by simp [h])
  | atom .., list .. | list .., atom .. => isFalse nofun

def decEqAll : (as bs : List Form) → Decidable (as = bs)
  | [], [] => isTrue rfl
  | a :: as, b :: bs =>
    match decEq a b, decEqAll as bs with
    | isTrue h, isTrue hs => isTrue (by rw [h, hs])
    | isFalse h, _ => isFalse (by simp [h])
    | _, isFalse hs => isFalse (by simp [hs])
  | [], _ :: _ | _ :: _, [] => isFalse nofun

end

instance : DecidableEq Form := decEq

/-! ## 2. Equality up to places -/

mutual

/-- The same form, wherever its parts stand. -/
def alike : Form → Form → Bool
  | atom q _ t, atom q' _ t' => q = q' && t.alike t'
  | list q _ b cs, list q' _ b' cs' => q = q' && b = b' && alikeAll cs cs'
  | _, _ => false

/-- As many forms, pairwise alike. -/
def alikeAll : List Form → List Form → Bool
  | [], [] => true
  | c :: cs, d :: ds => c.alike d && alikeAll cs ds
  | _, _ => false

end

mutual

/-- The form with every place in it, those of its tokens too, set to the start. -/
def unplaced : Form → Form
  | atom q _ t => atom q .start { t with position := .start }
  | list q _ b cs => list q .start b (unplacedAll cs)

def unplacedAll : List Form → List Form
  | [] => []
  | c :: cs => c.unplaced :: unplacedAll cs

end

mutual

/-- **Alike forms are the same form**, once both are moved to the start. -/
theorem alike_iff_unplaced_eq : ∀ {a b : Form}, a.alike b = true ↔ a.unplaced = b.unplaced
  | atom q p t, atom q' p' t' => by simp [alike, unplaced]
  | list q p b cs, list q' p' b' cs' => by
    simp [alike, unplaced, alikeAll_iff_unplacedAll_eq, and_assoc]
  | atom .., list .. | list .., atom .. => by simp [alike, unplaced]

theorem alikeAll_iff_unplacedAll_eq : ∀ {as bs : List Form},
    alikeAll as bs = true ↔ unplacedAll as = unplacedAll bs
  | [], [] => by simp [alikeAll, unplacedAll]
  | a :: as, b :: bs => by
    simp [alikeAll, unplacedAll, alike_iff_unplaced_eq, alikeAll_iff_unplacedAll_eq]
  | [], _ :: _ | _ :: _, [] => by simp [alikeAll, unplacedAll]

end

/-- Being alike is an equivalence, because it is equality of something. -/
theorem equivalence_alike : Equivalence fun a b : Form => a.alike b = true where
  refl _ := alike_iff_unplaced_eq.mpr rfl
  symm h := alike_iff_unplaced_eq.mpr (alike_iff_unplaced_eq.mp h).symm
  trans h h' :=
    alike_iff_unplaced_eq.mpr ((alike_iff_unplaced_eq.mp h).trans (alike_iff_unplaced_eq.mp h'))

/-- **What cannot tell a form from the same form moved to the start cannot tell alike forms apart.** -/
theorem eq_of_alike {α : Type} {view : Form → α} (hview : ∀ f : Form, view f.unplaced = view f)
    {a b : Form} (h : a.alike b = true) : view a = view b := by
  rw [← hview a, alike_iff_unplaced_eq.mp h, hview b]

/-! ## 3. Measures -/

mutual

theorem size_unplaced : ∀ f : Form, f.unplaced.size = f.size
  | atom q p t => rfl
  | list q p b cs => by rw [unplaced, size, size, sizeAll_unplacedAll]

theorem sizeAll_unplacedAll : ∀ fs : List Form, sizeAll (unplacedAll fs) = sizeAll fs
  | [] => rfl
  | c :: cs => by rw [unplacedAll, sizeAll, sizeAll, size_unplaced, sizeAll_unplacedAll]

end

mutual

theorem depth_unplaced : ∀ f : Form, f.unplaced.depth = f.depth
  | atom q p t => rfl
  | list q p b cs => by rw [unplaced, depth, depth, depthAll_unplacedAll]

theorem depthAll_unplacedAll : ∀ fs : List Form, depthAll (unplacedAll fs) = depthAll fs
  | [] => rfl
  | c :: cs => by rw [unplacedAll, depthAll, depthAll, depth_unplaced, depthAll_unplacedAll]

end

end Sexpr.Form
