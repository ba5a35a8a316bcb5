/-
# The characters of tokens

Every class here is a set of ASCII characters: a letter or digit of another script belongs to
none of them, and neither does any other kind of blank.

A blank has a NAME, because it cannot be seen: `\space` is written for the character literal of a
space.  So the named character literals are exactly the literals of the blanks.

Each class is said beside its definition, character by character (`isWordChar_iff`, `mem_escapes`,
`Blank.ofChar?_eq_some_iff`, `mem_namedCharacters`).
-/
namespace Sexpr.Token

/-- The sign of a negative number, where a digit follows it. -/
def negation : Char := '~'

/-- The characters of identifiers that are neither letters nor digits. -/
def symbols : List Char := ['+', '-', '*', '/', '_', '?', '!', '<', '>', '=']

/-- A character of identifiers. -/
def isWordChar (c : Char) : Bool := c.isAlphanum || symbols.contains c

/-- A letter, a digit, or one of ten signs. -/
theorem isWordChar_iff {c : Char} :
    isWordChar c = true ↔
      c.isAlpha = true ∨ c.isDigit = true ∨ c ∈ "+-*/_?!<>=".toList := by
  simp [isWordChar, Char.isAlphanum, symbols, or_assoc]

/-- The characters that may stand behind a backslash in a string literal. -/
def escapes : List Char := ['"', 't', 'n', '\\']

theorem mem_escapes {c : Char} : c ∈ escapes ↔ c = '"' ∨ c = 't' ∨ c = 'n' ∨ c = '\\' := by
  simp [escapes]

/-- The blanks by name.  A carriage return is one spelling of a new line. -/
inductive Blank where
  | space
  | tab
  | newline
  deriving DecidableEq

namespace Blank

def ofChar? : Char → Option Blank
  | ' ' => some space
  | '\t' => some tab
  | '\n' => some newline
  | '\r' => some newline
  | _ => none

def name : Blank → String
  | space => "space"
  | tab => "tab"
  | newline => "newline"

/-- The character literal of a blank. -/
def literal (b : Blank) : String := "\\" ++ b.name

def all : List Blank := [space, tab, newline]

theorem mem_all (b : Blank) : b ∈ all := by cases b <;> decide

/-- **The blanks**, the two ways to begin a new line among them. -/
theorem ofChar?_eq_some_iff {c : Char} {b : Blank} :
    ofChar? c = some b ↔
      (c, b) ∈ [(' ', space), ('\t', tab), ('\n', newline), ('\r', newline)] := by
  unfold ofChar?
  constructor
  · intro h
    split at h <;> cases h <;> simp
  · intro h
    simp only [List.mem_cons, Prod.mk.injEq, List.not_mem_nil, or_false] at h
    rcases h with ⟨rfl, rfl⟩ | ⟨rfl, rfl⟩ | ⟨rfl, rfl⟩ | ⟨rfl, rfl⟩ <;> rfl

theorem literal_eq_iff {b : Blank} {text : String} :
    b.literal = text ↔
      (b, text) ∈ [(space, "\\space"), (tab, "\\tab"), (newline, "\\newline")] := by
  cases b <;> simp [literal, name, eq_comm]

end Blank

/-- A character that only separates tokens. -/
def isBlank (c : Char) : Bool := (Blank.ofChar? c).isSome

/-- The character literals of more than one letter. -/
def namedCharacters : List String := Blank.all.map Blank.literal

theorem mem_namedCharacters {text : String} :
    text ∈ namedCharacters ↔ ∃ b : Blank, b.literal = text := by
  simp [namedCharacters, Blank.mem_all]

/-- The blanks are the characters that core calls whitespace. -/
theorem isBlank_iff {c : Char} : isBlank c = true ↔ c.isWhitespace = true := by
  unfold isBlank Blank.ofChar? Char.isWhitespace
  split <;> simp_all

end Sexpr.Token
