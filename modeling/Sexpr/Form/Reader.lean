/-
# From tokens to forms

The reader takes one token at a time.  Between two tokens it knows the lists still open, innermost
first, each with the children it has so far; the quotation marker that waits for a form; and the
forms already complete.

**Only the kind of a token decides what happens** (`Reader.feed`).  Texts and places are carried
along: the token of an atom becomes the atom, the place of an opening bracket becomes the place of
its list.

Tokens are well formed by themselves.  What can be wrong is how brackets and quotation markers
stand together, or that there is more than one form where one is expected (`Cause`).  **A fault is
a cause and a token**, the last one taken, if any was.  Which line to quote for it is decided
afterwards by `Fault.diagnose`: the token's line of the source if the source is at hand, and
otherwise the end of the token's own text, moved to its column.
-/
import Sexpr.Diagnosis
import Sexpr.Form.Basic

namespace Sexpr.Form

/-! ## 1. What can be wrong -/

inductive Cause where
  /-- A closing bracket where no list is open. -/
  | strayClose
  /-- A closing bracket of another kind than the innermost open list. -/
  | wrongClose (expected found : Bracket)
  /-- The tokens end with so many lists still open. -/
  | unclosed (count : Nat)
  /-- A quotation marker directly behind another. -/
  | adjacentMarkers
  /-- A quotation marker with no form behind it. -/
  | danglingMarker
  /-- A second form outside all lists. -/
  | secondForm
  deriving DecidableEq

namespace Cause

/-- The cause in words. -/
def reason : Cause → String
  | strayClose => "mismatched brackets - unexpected closing bracket"
  | wrongClose expected found =>
    "mismatched brackets - expected '" ++ String.singleton expected.closer ++
      "' but found '" ++ String.singleton found.closer ++ "'"
  | unclosed count =>
    "mismatched brackets - expected " ++ count.repr ++ " more closing bracket" ++
      (if count = 1 then "" else "s")
  | adjacentMarkers => "cannot have two adjacent quotation markers"
  | danglingMarker => "quotation marker must be followed by a form"
  | secondForm => "expected a single top-level form"

end Cause

/-- A report on the order of tokens. -/
abbrev Error := Diagnosis Cause

/-- The report in full. -/
def Error.message (e : Error) : String := e.render "parsing" Cause.reason

/-- What went wrong, and at which token. -/
structure Fault where
  cause : Cause
  token : Option Token
  deriving DecidableEq

/-! ## 2. Taking tokens -/

/-- How many forms the tokens may make. -/
inductive Arity where
  | one
  | many
  deriving DecidableEq

/-- A list whose closing bracket has not been taken yet. -/
structure OpenList where
  quotation : Option Marker
  position : Position
  bracket : Bracket
  children : Array Form

namespace OpenList

def toForm (l : OpenList) : Form := .list l.quotation l.position l.bracket l.children.toList

def push (l : OpenList) (f : Form) : OpenList := { l with children := l.children.push f }

end OpenList

/-- What the reader knows between two tokens. -/
structure Reader where
  /-- The lists still open, innermost first. -/
  stack : List OpenList
  /-- The marker that the next form takes. -/
  pending : Option Marker
  /-- The complete forms outside all lists. -/
  forms : Array Form

namespace Reader

/-- Before the first token. -/
def initial : Reader := ⟨[], none, #[]⟩

/-- A complete form goes into the innermost open list, or to the forms outside all lists. -/
def attach (r : Reader) (f : Form) : Reader :=
  match r.stack with
  | [] => { r with forms := r.forms.push f }
  | l :: rest => { r with stack := l.push f :: rest }

/-- Whether another form may begin here. -/
def mayBegin (arity : Arity) (r : Reader) : Bool :=
  arity = .many || !r.stack.isEmpty || r.forms.isEmpty

/-- A closing bracket.  It needs an open list, then no waiting marker, then its own kind of list. -/
def close (r : Reader) (b : Bracket) : Except Cause Reader :=
  match r.stack with
  | [] => .error .strayClose
  | l :: rest =>
    if r.pending.isSome then .error .danglingMarker
    else if l.bracket ≠ b then .error (.wrongClose l.bracket b)
    else .ok ({ r with stack := rest }.attach l.toForm)

/-- One token taken. -/
def feed (arity : Arity) (r : Reader) (t : Token) : Except Cause Reader :=
  match t.kind with
  | .closing b => r.close b
  | .opening b =>
    if r.mayBegin arity then
      .ok { r with stack := ⟨r.pending, t.position, b, #[]⟩ :: r.stack, pending := none }
    else .error .secondForm
  | .marker m =>
    if r.mayBegin arity then
      if r.pending.isSome then .error .adjacentMarkers else .ok { r with pending := some m }
    else .error .secondForm
  | _ =>
    if r.mayBegin arity then
      .ok ({ r with pending := none }.attach (.atom r.pending t.position t))
    else .error .secondForm

/-- Some tokens taken, up to the first that cannot be. -/
def feedAll (arity : Arity) (r : Reader) : List Token → Except Fault Reader
  | [] => .ok r
  | t :: ts =>
    match r.feed arity t with
    | .ok r => r.feedAll arity ts
    | .error cause => .error ⟨cause, some t⟩

/-- No more tokens: every list must be closed and every marker used. -/
def finish (r : Reader) : Except Cause (List Form) :=
  if r.stack ≠ [] then .error (.unclosed r.stack.length)
  else if r.pending.isSome then .error .danglingMarker
  else .ok r.forms.toList

/-- All tokens taken from the start. -/
def run (arity : Arity) (tokens : List Token) : Except Fault (List Form) :=
  match initial.feedAll arity tokens with
  | .ok r => r.finish.mapError fun cause => ⟨cause, tokens.getLast?⟩
  | .error fault => .error fault

/-- **Taking tokens is compositional.** -/
theorem feedAll_append (arity : Arity) (ts us : List Token) : ∀ r : Reader,
    r.feedAll arity (ts ++ us) = (r.feedAll arity ts).bind fun r => r.feedAll arity us := by
  induction ts with
  | nil => intro r; rfl
  | cons t ts ih =>
    intro r
    simp only [List.cons_append, feedAll]
    cases r.feed arity t with
    | error cause => rfl
    | ok r => exact ih r

end Reader

/-! ## 3. Reports -/

/-- The line to quote for a token. -/
def lineOf (source? : Option String) (t : Token) : String :=
  match source? with
  | some source => Text.line source t.position.line
  | none => Text.alignedTo t.position.column (Text.lastLine t.text)

/-- The report on a fault, quoting the source if it is at hand. -/
def Fault.diagnose (source? : Option String) (f : Fault) : Error :=
  match f.token with
  | some t => ⟨f.cause, t.position, lineOf source? t⟩
  | none => ⟨f.cause, .start, ""⟩

/-- Quoting plays no part in what is reported, and where. -/
theorem Fault.diagnose_alike (source? source?' : Option String) (f : Fault) :
    (f.diagnose source?).cause = (f.diagnose source?').cause ∧
      (f.diagnose source?).position = (f.diagnose source?').position := by
  unfold diagnose
  cases f.token <;> exact ⟨rfl, rfl⟩

/-! ## 4. Both readers -/

/-- All forms that the tokens make, in order. -/
def parseAll (tokens : List Token) (source? : Option String) : Except Error (List Form) :=
  (Reader.run .many tokens).mapError (Fault.diagnose source?)

/-- The last form that the tokens make; no tokens make the empty list.  That no other form stands in
front of it is for the reader of one form to see to. -/
def parse (tokens : List Token) (source? : Option String) : Except Error Form :=
  match Reader.run .one tokens with
  | .ok forms => .ok (forms.getLast?.getD .empty)
  | .error fault => .error (fault.diagnose source?)

theorem parse_eq (tokens : List Token) (source? : Option String) :
    parse tokens source? =
      ((Reader.run .one tokens).map fun forms => forms.getLast?.getD .empty).mapError
        (Fault.diagnose source?) := by
  unfold parse
  cases Reader.run .one tokens <;> rfl

end Sexpr.Form
