/-
# Forms on several lines

A list that fits on its line is written compactly.  One that does not is broken: its first child
stays behind the bracket, and every other child begins a line of its own, two columns further in
than the bracket.  The rule is applied again to each child, at the column where the child begins.
Only the width of the list itself counts, not what stands behind it on its line.

Like compact texts, these are written in front of what follows them; `writeAt_eq` and the
equations of `Form.layout` give the text by itself.

A program is a sequence of forms, each ended by a line feed, with an empty line between two.
-/
import Sexpr.Form.Compact

namespace Sexpr.Form

/-- The widest line on which a list is kept whole. -/
def lineWidth : Nat := 60

/-- How much further in than its list a child stands. -/
def indent : Nat := 2

/-- A new line, begun with so many spaces. -/
def newline (column : Nat) : List Char := '\n' :: List.replicate column ' '

/-- The form fits on its line where it begins behind `column` characters. -/
def fits (column : Nat) (f : Form) : Bool := column + f.width ≤ lineWidth

mutual

/-- The text of a form that begins behind `column` characters of its line, in front of `rest`. -/
def writeAt (column : Nat) : Form → (rest : List Char) → List Char
  | atom q p t, rest => (atom q p t).write rest
  | list q p b cs, rest =>
    if (list q p b cs).fits column then (list q p b cs).write rest
    else
      Marker.spell q ++
        b.opener :: writeAllAt (column + (Marker.spell q).length) cs (b.closer :: rest)

/-- The children of a broken list whose bracket stands behind `inner` characters. -/
def writeAllAt (inner : Nat) : List Form → (rest : List Char) → List Char
  | [], rest => rest
  | c :: cs, rest => c.writeAt (inner + 1) (writeRestAt (inner + indent) cs rest)

/-- Children on lines of their own, each behind `column` spaces. -/
def writeRestAt (column : Nat) : List Form → (rest : List Char) → List Char
  | [], rest => rest
  | c :: cs, rest => newline column ++ c.writeAt column (writeRestAt column cs rest)

end

/-- The text of a form that begins behind `column` characters of its line, as characters. -/
def layout (column : Nat) (f : Form) : List Char := f.writeAt column []

def layoutAll (inner : Nat) (fs : List Form) : List Char := writeAllAt inner fs []

def layoutRest (column : Nat) (fs : List Form) : List Char := writeRestAt column fs []

/-- The text of a form, broken where it is too wide. -/
def pretty (f : Form) : String := String.ofList (f.layout 0)

/-- The text of a program, as characters. -/
def layoutProgram : List Form → List Char
  | [] => []
  | [f] => f.writeAt 0 ['\n']
  | f :: fs => f.writeAt 0 ('\n' :: '\n' :: layoutProgram fs)

/-- The text of a program. -/
def program (forms : List Form) : String := String.ofList (layoutProgram forms)

/-! ## 1. The text by itself -/

mutual

theorem writeAt_eq (column : Nat) : ∀ (f : Form) (rest : List Char),
    f.writeAt column rest = f.layout column ++ rest
  | atom q p t, rest => by simp only [layout, writeAt, write_eq, List.append_nil]
  | list q p b cs, rest => by
    rw [layout, writeAt, writeAt]
    split
    · simp only [write_eq, List.append_nil]
    · rw [writeAllAt_eq _ cs (b.closer :: rest), writeAllAt_eq _ cs [b.closer]]
      simp

theorem writeAllAt_eq (inner : Nat) : ∀ (fs : List Form) (rest : List Char),
    writeAllAt inner fs rest = layoutAll inner fs ++ rest
  | [], _ => rfl
  | c :: cs, rest => by
    rw [layoutAll, writeAllAt, writeAllAt, writeAt_eq _ c, writeAt_eq _ c,
      writeRestAt_eq _ cs rest, layoutRest, List.append_assoc]

theorem writeRestAt_eq (column : Nat) : ∀ (fs : List Form) (rest : List Char),
    writeRestAt column fs rest = layoutRest column fs ++ rest
  | [], _ => rfl
  | c :: cs, rest => by
    rw [layoutRest, writeRestAt, writeRestAt, writeAt_eq _ c, writeAt_eq _ c,
      writeRestAt_eq _ cs rest, layoutRest, List.append_assoc, List.append_assoc]

end

@[simp] theorem layout_atom (column : Nat) (q : Option Marker) (p : Position) (t : Token) :
    (atom q p t).layout column = (atom q p t).spell := by
  rw [layout, writeAt, write_eq, List.append_nil]

/-- A list that fits is written compactly. -/
theorem layout_of_fits {column : Nat} {f : Form} (h : f.fits column = true) :
    f.layout column = f.spell := by
  cases f with
  | atom q p t => exact layout_atom column q p t
  | list q p b cs => rw [layout, writeAt, if_pos h, write_eq, List.append_nil]

/-- **A list that does not fit is broken.** -/
theorem layout_list_of_not_fits {column : Nat} {q : Option Marker} {p : Position} {b : Bracket}
    {cs : List Form} (h : (list q p b cs).fits column = false) :
    (list q p b cs).layout column =
      Marker.spell q ++
        b.opener :: (layoutAll (column + (Marker.spell q).length) cs ++ [b.closer]) := by
  rw [layout, writeAt, if_neg (by simp [h]), writeAllAt_eq]

@[simp] theorem layoutAll_nil (inner : Nat) : layoutAll inner [] = [] := rfl

@[simp] theorem layoutAll_cons (inner : Nat) (c : Form) (cs : List Form) :
    layoutAll inner (c :: cs) = c.layout (inner + 1) ++ layoutRest (inner + indent) cs := by
  rw [layoutAll, writeAllAt, writeAt_eq, layoutRest]

@[simp] theorem layoutRest_nil (column : Nat) : layoutRest column [] = [] := rfl

@[simp] theorem layoutRest_cons (column : Nat) (c : Form) (cs : List Form) :
    layoutRest column (c :: cs) = newline column ++ (c.layout column ++ layoutRest column cs) := by
  rw [layoutRest, writeRestAt, writeAt_eq, layoutRest]

/-! ## 2. Programs -/

@[simp] theorem layoutProgram_singleton (f : Form) :
    layoutProgram [f] = f.layout 0 ++ ['\n'] := by
  rw [layoutProgram, writeAt_eq]

@[simp] theorem layoutProgram_cons_cons (f g : Form) (fs : List Form) :
    layoutProgram (f :: g :: fs) =
      f.layout 0 ++ '\n' :: '\n' :: layoutProgram (g :: fs) := by
  rw [layoutProgram, writeAt_eq]
  simp

end Sexpr.Form
