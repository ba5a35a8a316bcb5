/-
# From characters to tokens

The scanner reads a source one character at a time and looks ONE character ahead.  What it knows
between two characters is a `Scan`: a mode, the lexeme read so far, the place reached, and the
tokens already complete.

**What to do with a character depends only on the mode, the character and the next one.**  That
decision is `Mode.judge`, a function to `Verdict`; `Scan.step` carries it out.  Looking ahead is
what ends a lexeme: an identifier, a number or a character literal is complete on its own last
character, so a `Scan` is never left inside one before a character that cannot go on with it.

**A fault is a cause and a place**, the place of the last character read.  Each cause is named for
what stands in the text, and carries what its wording shows.  The wording shows characters raw, with
one exception: an unexpected character is quoted, since it may be one that cannot be seen.  The scan
keeps no text of the source; `tokenize` adds the line to quote.
-/
import Sexpr.Diagnosis
import Sexpr.Text.Quoted
import Sexpr.Text.Unprintable
import Sexpr.Token.Basic
import Sexpr.Token.Charset

namespace Sexpr

namespace Token

/-! ## 1. What can be wrong -/

inductive Cause where
  /-- The character begins no token. -/
  | unexpected (c : Char)
  /-- A backslash outside strings stands directly before a blank. -/
  | blankLiteral (b : Blank)
  /-- The character may not stand behind a backslash in a string. -/
  | invalidEscape (c : Char)
  /-- A character literal that is neither one character long nor the name of a blank. -/
  | invalidCharacter (text : String)
  /-- An identifier runs into a point. -/
  | pointAfterIdentifier
  /-- An integer literal runs into an identifier. -/
  | identifierAfterInt
  /-- A floating-point literal runs into an identifier. -/
  | identifierAfterFloat
  /-- A floating-point literal has another point. -/
  | secondPoint
  /-- The source ends inside a string. -/
  | unclosedString
  deriving DecidableEq

namespace Cause

/-- The cause in words. -/
def reason : Cause → String
  | unexpected c => "unexpected character: " ++ Text.showChar Text.isUnprintable c
  | blankLiteral b =>
    "a " ++ b.name ++ " character cannot be used as a character literal, " ++
      "consider using `" ++ b.literal ++ "` instead"
  | invalidEscape c => "invalid escape sequence \\" ++ String.singleton c ++ " in string literal"
  | invalidCharacter text => "invalid character literal: " ++ text
  | pointAfterIdentifier => "identifier and '.' must be separated by whitespace"
  | identifierAfterInt => "integer literal and identifier must be separated by whitespace"
  | identifierAfterFloat =>
    "floating-point literal and identifier must be separated by whitespace"
  | secondPoint => "multiple decimal points in floating-point literal"
  | unclosedString => "reached end of input inside a string literal"

end Cause

/-- A report on the characters of a source. -/
abbrev Error := Diagnosis Cause

/-- The report in full. -/
def Error.message (e : Error) : String := e.render "lexical" Cause.reason

/-- What went wrong, and after which character. -/
structure Fault where
  cause : Cause
  position : Position
  deriving DecidableEq

namespace Scan

/-- The lexemes that end where the next character cannot go on with them. -/
inductive Shape where
  | identifier
  | int
  | float
  | character
  deriving DecidableEq

/-- What the scanner is in the middle of. -/
inductive Mode where
  /-- Between tokens. -/
  | start
  | comment
  /-- In a string literal; `escaped` directly behind an escaping backslash. -/
  | string (escaped : Bool)
  /-- In a lexeme of this shape. -/
  | within (shape : Shape)
  deriving DecidableEq

/-- What a character does to the lexeme. -/
inductive Verdict where
  /-- It belongs to no token. -/
  | skip (mode : Mode)
  /-- It belongs to the lexeme, which is not complete yet. -/
  | keep (mode : Mode)
  /-- It completes a token of this kind. -/
  | emit (kind : Kind)
  /-- It completes a lexeme of this shape. -/
  | close (shape : Shape)
  /-- No source may have it here. -/
  | refuse (cause : Cause)
  deriving DecidableEq

/-! ## 2. The decision -/

/-- Whether a lexeme goes on behind a character that belongs to it: decided by the next one. -/
def Shape.follow : Shape → (next : Option Char) → Verdict
  | identifier, next =>
    match next with
    | none => .close identifier
    | some d =>
      if d = '.' then .refuse .pointAfterIdentifier
      else if isWordChar d then .keep (.within identifier)
      else .close identifier
  | int, next =>
    match next with
    | none => .close int
    | some d =>
      if d.isDigit || d = '.' then .keep (.within int)
      else if isWordChar d then .refuse .identifierAfterInt
      else .close int
  | float, next =>
    match next with
    | none => .close float
    | some d =>
      if d = '.' then .refuse .secondPoint
      else if d.isDigit then .keep (.within float)
      else if isWordChar d then .refuse .identifierAfterFloat
      else .close float
  | character, next =>
    match next with
    | none => .close character
    | some d => if d.isAlpha then .keep (.within character) else .close character

/-- A character of a lexeme begun before.  A point turns an integer into a float. -/
def Shape.judge (shape : Shape) (c : Char) (next : Option Char) : Verdict :=
  if shape = int ∧ c = '.' then float.follow next else shape.follow next

/-- The next character is a digit. -/
def digitNext (next : Option Char) : Bool := next.any Char.isDigit

/-- A character between tokens. -/
def judgeStart (c : Char) (next : Option Char) : Verdict :=
  match Kind.ofChar? c with
  | some kind => .emit kind
  | none =>
    if c = ';' then .skip .comment
    else if c = '"' then .keep (.string false)
    else if c = '\\' then
      match next.bind Blank.ofChar? with
      | some b => .refuse (.blankLiteral b)
      | none => .keep (.within .character)
    else if c.isDigit || (c = negation && digitNext next) then Shape.int.follow next
    else if c = '.' && digitNext next then .keep (.within .float)
    else if isWordChar c then Shape.identifier.follow next
    else if isBlank c then .skip .start
    else .refuse (.unexpected c)

/-- A character of a string, behind its opening quote. -/
def judgeString (escaped : Bool) (c : Char) (next : Option Char) : Verdict :=
  if escaped then .keep (.string false)
  else if c = '"' then .emit .string
  else if c = '\\' then
    match next with
    | none => .refuse .unclosedString
    | some d => if d ∈ escapes then .keep (.string true) else .refuse (.invalidEscape d)
  else .keep (.string false)

/-- **The decision.**  Every mode has its rule; a comment ends with its line. -/
def Mode.judge : Mode → (c : Char) → (next : Option Char) → Verdict
  | start, c, next => judgeStart c next
  | comment, c, _ => .skip (if c = '\n' then start else comment)
  | string escaped, c, next => judgeString escaped c next
  | within shape, c, next => shape.judge c next

/-- The kind of a complete lexeme.  Only a character literal can still be wrong: it is a
backslash and one character, or a backslash and the name of a blank. -/
def Shape.kind : Shape → (text : String) → Except Cause Kind
  | identifier, text => .ok (Kind.ofWord text)
  | int, _ => .ok .int
  | float, _ => .ok .float
  | character, text =>
    if text.length = 2 ∨ text ∈ namedCharacters then .ok .character
    else .error (.invalidCharacter text)

end Scan

/-! ## 3. Carrying it out -/

/-- What the scanner knows between two characters. -/
structure Scan where
  mode : Scan.Mode
  lexeme : String
  position : Position
  tokens : Array Token

namespace Scan

/-- Before the first character. -/
def initial : Scan := ⟨.start, "", .start, #[]⟩

/-- The lexeme is a token of this kind. -/
def emit (s : Scan) (kind : Kind) : Scan :=
  { s with mode := .start, lexeme := "", tokens := s.tokens.push ⟨kind, s.lexeme, s.position⟩ }

/-- The lexeme is complete and has this shape. -/
def close (s : Scan) (shape : Shape) : Except Fault Scan :=
  match shape.kind s.lexeme with
  | .ok kind => .ok (s.emit kind)
  | .error cause => .error ⟨cause, s.position⟩

/-- One character read, `next` being the one behind it. -/
def step (s : Scan) (c : Char) (next : Option Char) : Except Fault Scan :=
  let position := s.position.advance c
  let lexeme := s.lexeme.push c
  match s.mode.judge c next with
  | .skip mode => .ok { s with mode, position }
  | .keep mode => .ok { s with mode, lexeme, position }
  | .emit kind => .ok ({ s with lexeme, position }.emit kind)
  | .close shape => { s with lexeme, position }.close shape
  | .refuse cause => .error ⟨cause, position⟩

/-- Some characters read, `ahead` being the one behind the last of them. -/
def read (s : Scan) : List Char → (ahead : Option Char) → Except Fault Scan
  | [], _ => .ok s
  | c :: cs, ahead =>
    match s.step c (cs.head?.or ahead) with
    | .ok s => s.read cs ahead
    | .error fault => .error fault

/-- The source ends here: a string must not be open, and any other lexeme is complete. -/
def finish (s : Scan) : Except Fault Scan :=
  match s.mode with
  | .start | .comment => .ok s
  | .string _ => .error ⟨.unclosedString, s.position⟩
  | .within shape => s.close shape

/-- A whole source. -/
def run (cs : List Char) : Except Fault (List Token) :=
  match initial.read cs none with
  | .error fault => .error fault
  | .ok s => s.finish.map fun t => t.tokens.toList

/-! ## 4. Reading in pieces -/

@[simp] theorem read_nil (s : Scan) (ahead : Option Char) : s.read [] ahead = .ok s := rfl

/-- **Reading is compositional**, provided that the first piece is read with the first character
of the second in sight. -/
theorem read_append (cs ds : List Char) (ahead : Option Char) : ∀ s : Scan,
    s.read (cs ++ ds) ahead =
      (s.read cs (ds.head?.or ahead)).bind fun t => t.read ds ahead := by
  induction cs with
  | nil => intro s; rfl
  | cons c cs ih =>
    intro s
    have hnext : (cs ++ ds).head?.or ahead = cs.head?.or (ds.head?.or ahead) := by
      cases cs <;> simp
    simp only [List.cons_append, read, hnext]
    cases s.step c (cs.head?.or (ds.head?.or ahead)) with
    | error fault => rfl
    | ok t => exact ih t

end Scan

/-! ## 5. Sources -/

/-- The report on a fault, quoting its line of the source. -/
def Fault.diagnose (source : String) (f : Fault) : Error :=
  ⟨f.cause, f.position, Text.line source f.position.line⟩

end Token

/-- The tokens of a source, without regard to one byte order mark at its front. -/
def tokenize (source : String) : Except Token.Error (List Token) :=
  let text := Text.withoutMark source
  (Token.Scan.run text.toList).mapError (Token.Fault.diagnose text)

end Sexpr
