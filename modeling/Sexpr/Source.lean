/-
# Reading a source

Both stages one after the other: a source is cut into tokens, and the tokens make forms.  The
report of either stage quotes the source.

A byte order mark at the front is dropped here, before the source is cut and before it is quoted.
-/
import Sexpr.Form.Reader
import Sexpr.Token.Scan

namespace Sexpr

/-- What can be wrong with a source: its characters, or the order of its tokens. -/
inductive Error where
  | lexical (error : Token.Error)
  | parsing (error : Form.Error)
  deriving DecidableEq

namespace Error

def position : Error → Position
  | lexical e => e.position
  | parsing e => e.position

/-- The line of the source that the report quotes. -/
def line : Error → String
  | lexical e => e.line
  | parsing e => e.line

/-- The report in full. -/
def message : Error → String
  | lexical e => Token.Error.message e
  | parsing e => Form.Error.message e

end Error

/-- A source cut into tokens, which `next` makes something of; the second argument of `next` is
the text to quote. -/
def withTokens {α : Type} (source : String)
    (next : List Token → String → Except Form.Error α) : Except Error α :=
  let text := Text.withoutMark source
  match tokenize text with
  | .error e => .error (.lexical e)
  | .ok tokens => (next tokens text).mapError .parsing

theorem withTokens_eq {α : Type} (source : String)
    (next : List Token → String → Except Form.Error α) :
    withTokens source next =
      match tokenize (Text.withoutMark source) with
      | .error e => .error (.lexical e)
      | .ok tokens => (next tokens (Text.withoutMark source)).mapError .parsing := by
  rfl

/-- A source is read through both stages. -/
theorem withTokens_eq_ok_iff {α : Type} {source : String}
    {next : List Token → String → Except Form.Error α} {x : α} :
    withTokens source next = .ok x ↔
      ∃ tokens, tokenize (Text.withoutMark source) = .ok tokens ∧
        next tokens (Text.withoutMark source) = .ok x := by
  rw [withTokens_eq]
  cases tokenize (Text.withoutMark source) with
  | error e => simp
  | ok tokens => simp [mapError_eq_ok_iff]

/-- A source that cannot be read fails in one of the stages. -/
theorem withTokens_eq_error_iff {α : Type} {source : String}
    {next : List Token → String → Except Form.Error α} {e : Error} :
    withTokens source next = .error e ↔
      (∃ d, tokenize (Text.withoutMark source) = .error d ∧ .lexical d = e) ∨
        ∃ tokens d, tokenize (Text.withoutMark source) = .ok tokens ∧
          next tokens (Text.withoutMark source) = .error d ∧ .parsing d = e := by
  rw [withTokens_eq]
  cases tokenize (Text.withoutMark source) with
  | error d => simp
  | ok tokens => simp [mapError_eq_error_iff]

/-- The one form of a source. -/
def readForm (source : String) : Except Error Form :=
  withTokens source fun tokens text => Form.parse tokens (some text)

/-- All forms of a source, in order. -/
def readForms (source : String) : Except Error (List Form) :=
  withTokens source fun tokens text => Form.parseAll tokens (some text)

end Sexpr
