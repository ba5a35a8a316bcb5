/-
# Forms made by hand

Each constructor writes the text that the scanner would have read, so that a form made here reads
back from its printed text.  Only `literal` and `ofToken` take a text on trust.  `symbol?` asks the
scanner itself: a name is a symbol exactly if it is ONE token, an identifier or a keyword, and
nothing else beside it.

Forms made by hand stand at the start; `movedTo` moves a form without moving its token.
-/
import Sexpr.Form.Basic
import Sexpr.Token.Scan

namespace Sexpr.Form

/-! ## 1. Atoms -/

/-- A token as a form, where the token stands. -/
def ofToken (t : Token) : Form := atom none t.position t

/-- An atom of this kind and text, unchecked. -/
def literal (kind : Token.Kind) (text : String) : Form := ofToken ⟨kind, text, .start⟩

/-- A name as a form.  Texts that are not one whole identifier or keyword are refused. -/
def symbol? (name : String) : Option Form :=
  match tokenize name with
  | .ok [t] =>
    if (t.kind = .identifier || t.kind.isKeyword) && t.text = name then
      some (literal t.kind name)
    else none
  | _ => none

/-- The digits of an integer, behind the negation sign if it is negative. -/
def intText (value : Int) : String :=
  if value < 0 then String.ofList (Token.negation :: value.natAbs.repr.toList)
  else value.natAbs.repr

def int (value : Int) : Form := literal .int (intText value)

def boolean (value : Bool) : Form :=
  literal (.keyword (.boolean value)) (Keyword.boolean value).spelling

/-- A character inside a string literal. -/
def escape : Char → List Char
  | '"' => ['\\', '"']
  | '\\' => ['\\', '\\']
  | '\t' => ['\\', 't']
  | '\n' => ['\\', 'n']
  | c => [c]

/-- A text between double quotes; a carriage return stands for itself. -/
def stringText (contents : String) : String :=
  String.ofList ('"' :: (contents.toList.flatMap escape ++ ['"']))

def string (contents : String) : Form := literal .string (stringText contents)

/-- A backslash and the character, or the name of a blank. -/
def characterText (c : Char) : String :=
  match Token.Blank.ofChar? c with
  | some b => b.literal
  | none => String.ofList ['\\', c]

def character (c : Char) : Form := literal .character (characterText c)

/-! ## 2. Lists -/

def bracketed (bracket : Bracket) (children : List Form) : Form :=
  list none .start bracket children

def rounds (children : List Form) : Form := bracketed .round children

def squares (children : List Form) : Form := bracketed .square children

/-- One more child at the end of a list; an atom is left alone. -/
def push (f child : Form) : Form :=
  match f with
  | atom .. => f
  | list q p b cs => list q p b (cs ++ [child])

/-! ## 3. Quotation and place -/

def withQuotation (f : Form) (quotation : Option Marker) : Form :=
  match f with
  | atom _ p t => atom quotation p t
  | list _ p b cs => list quotation p b cs

def quoted (f : Form) : Form := f.withQuotation (some .quote)

def backquoted (f : Form) : Form := f.withQuotation (some .backquote)

/-- The form at another place; its token and children stay where they are. -/
def movedTo (f : Form) (position : Position) : Form :=
  match f with
  | atom q _ t => atom q position t
  | list q _ b cs => list q position b cs

end Sexpr.Form
