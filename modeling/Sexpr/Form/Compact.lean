/-
# Forms on one line

The compact text of a form: its marker, then the text of its token, or its children with single
spaces between them, in brackets.  Atoms keep their text to the letter, so the compact text has a
line break only where a token has one.

**Texts are written in front of what follows them.**  `Form.write f rest` puts each character in
its place once, however deep it stands; `write_eq` says that it is the text of `f` and then
`rest`, and the equations of `Form.spell` give that text by itself.  `Form.width` is its length,
found without writing it.
-/
import Sexpr.Form.Basic

namespace Sexpr.Form

mutual

/-- The compact text of a form in front of `rest`. -/
def write : Form → (rest : List Char) → List Char
  | atom q _ t, rest => Marker.spell q ++ (t.text.toList ++ rest)
  | list q _ b cs, rest => Marker.spell q ++ b.opener :: writeAll cs (b.closer :: rest)

/-- The compact texts of some forms, single spaces between them, in front of `rest`. -/
def writeAll : List Form → (rest : List Char) → List Char
  | [], rest => rest
  | c :: cs, rest => c.write (writeRest cs rest)

/-- The compact texts of the forms behind another, each behind a space, in front of `rest`. -/
def writeRest : List Form → (rest : List Char) → List Char
  | [], rest => rest
  | c :: cs, rest => ' ' :: c.write (writeRest cs rest)

end

/-- The compact text of a form, as characters. -/
def spell (f : Form) : List Char := f.write []

def spellAll (fs : List Form) : List Char := writeAll fs []

def spellRest (fs : List Form) : List Char := writeRest fs []

/-- The compact text of a form. -/
def compact (f : Form) : String := String.ofList f.spell

mutual

/-- The length of the compact text. -/
def width : Form → Nat
  | atom q _ t => (Marker.spell q).length + t.text.length
  | list q _ _ cs => (Marker.spell q).length + (widthAll cs + 2)

def widthAll : List Form → Nat
  | [] => 0
  | c :: cs => c.width + widthRest cs

def widthRest : List Form → Nat
  | [] => 0
  | c :: cs => c.width + widthRest cs + 1

end

/-! ## 1. The text by itself -/

mutual

theorem write_eq : ∀ (f : Form) (rest : List Char), f.write rest = f.spell ++ rest
  | atom q _ t, rest => by simp [spell, write]
  | list q _ b cs, rest => by
    rw [spell, write, write, writeAll_eq cs (b.closer :: rest), writeAll_eq cs [b.closer]]
    simp

theorem writeAll_eq : ∀ (fs : List Form) (rest : List Char),
    writeAll fs rest = spellAll fs ++ rest
  | [], _ => rfl
  | c :: cs, rest => by
    rw [spellAll, writeAll, writeAll, write_eq c, write_eq c, writeRest_eq cs rest, spellRest,
      List.append_assoc]

theorem writeRest_eq : ∀ (fs : List Form) (rest : List Char),
    writeRest fs rest = spellRest fs ++ rest
  | [], _ => rfl
  | c :: cs, rest => by
    rw [spellRest, writeRest, writeRest, write_eq c, write_eq c, writeRest_eq cs rest, spellRest,
      List.cons_append, List.append_assoc]

end

@[simp] theorem spell_atom (q : Option Marker) (p : Position) (t : Token) :
    (atom q p t).spell = Marker.spell q ++ t.text.toList := by
  simp [spell, write]

@[simp] theorem spell_list (q : Option Marker) (p : Position) (b : Bracket) (cs : List Form) :
    (list q p b cs).spell = Marker.spell q ++ b.opener :: (spellAll cs ++ [b.closer]) := by
  rw [spell, write, writeAll_eq]

@[simp] theorem spellAll_nil : spellAll [] = [] := rfl

@[simp] theorem spellAll_cons (c : Form) (cs : List Form) :
    spellAll (c :: cs) = c.spell ++ spellRest cs := by
  rw [spellAll, writeAll, write_eq, spellRest]

@[simp] theorem spellRest_nil : spellRest [] = [] := rfl

@[simp] theorem spellRest_cons (c : Form) (cs : List Form) :
    spellRest (c :: cs) = ' ' :: (c.spell ++ spellRest cs) := by
  rw [spellRest, writeRest, write_eq, spellRest]

/-! ## 2. Its length -/

mutual

theorem length_spell : ∀ f : Form, f.spell.length = f.width
  | atom q _ t => by simp [width, String.length_toList]
  | list q _ b cs => by simp [width, length_spellAll cs]

theorem length_spellAll : ∀ fs : List Form, (spellAll fs).length = widthAll fs
  | [] => rfl
  | c :: cs => by simp [widthAll, length_spell c, length_spellRest cs]

theorem length_spellRest : ∀ fs : List Form, (spellRest fs).length = widthRest fs
  | [] => rfl
  | c :: cs => by simp [widthRest, length_spell c, length_spellRest cs]

end

end Sexpr.Form
