/-
# Diagnoses

Whatever goes wrong is reported in one shape: a cause, the place it is reported at, and the line
to quote.  The two stages that can fail differ only in their causes, so the causes are a
parameter; `Diagnosis.render` writes the excerpt, an empty line, and one line that names the
stage, the place and the reason.

An excerpt is the quoted line between two pointers.  Columns count characters READ, so the
pointers stand over and under the last one of them; column zero points at the first character.
-/
import Sexpr.Position
import Sexpr.Text.Lines

namespace Sexpr

def upperPointer : Char := '▼'

def lowerPointer : Char := '▲'

/-- The line between two pointers at the place's column. -/
def excerpt (line : String) (p : Position) : String :=
  let margin := Text.spaces (p.column - 1)
  "| " ++ margin ++ String.singleton upperPointer ++ "\n| " ++ line ++
    "\n| " ++ margin ++ String.singleton lowerPointer

/-- Something that went wrong, and what to show of it. -/
structure Diagnosis (Cause : Type) where
  cause : Cause
  position : Position
  line : String
  deriving DecidableEq

namespace Diagnosis

variable {Cause : Type}

/-- The report in full. -/
def render (stage : String) (reason : Cause → String) (d : Diagnosis Cause) : String :=
  excerpt d.line d.position ++ "\n\n" ++ stage ++ " error at " ++ d.position.describe ++
    " - " ++ reason d.cause

end Diagnosis

/-- A fault only changes its shape on the way to a report: what succeeds is left alone. -/
theorem mapError_eq_ok_iff {ε ε' α : Type} {f : ε → ε'} {x : Except ε α} {a : α} :
    x.mapError f = .ok a ↔ x = .ok a := by
  cases x with
  | error e => exact ⟨nofun, nofun⟩
  | ok b => exact ⟨fun h => congrArg _ (Except.ok.inj h), fun h => congrArg _ (Except.ok.inj h)⟩

theorem mapError_eq_error_iff {ε ε' α : Type} {f : ε → ε'} {x : Except ε α} {e : ε'} :
    x.mapError f = .error e ↔ ∃ d, x = .error d ∧ f d = e := by
  cases x with
  | error d =>
    refine ⟨fun h => ⟨d, rfl, Except.error.inj h⟩, ?_⟩
    rintro ⟨_, hd, rfl⟩
    rw [← Except.error.inj hd]
    rfl
  | ok a => exact ⟨nofun, nofun⟩

end Sexpr
