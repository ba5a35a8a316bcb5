/-
# Places in a source text

A place is reached by reading: it counts the lines begun so far and the characters read on the
current one.  So the place of a token is where its LAST character stands, and the place before
any reading has column zero.

**Places add up.**  `Position.after` folds `advance` over the characters read, and its two
coordinates are counts of the text alone (`line_after`, `column_after_newline`): one more than the line
feeds read, and the characters since the last of them.
-/
namespace Sexpr

/-- A line, counted from one, and the number of characters read on it. -/
structure Position where
  line : Nat
  column : Nat
  deriving DecidableEq

namespace Position

/-- The place before the first character. -/
def start : Position := ⟨1, 0⟩

instance : Inhabited Position := ⟨start⟩

/-- One more character read: a line feed begins a line, any other character is counted. -/
def advance (p : Position) (c : Char) : Position :=
  if c = '\n' then ⟨p.line + 1, 0⟩ else ⟨p.line, p.column + 1⟩

/-- The place reached from `p` by reading `cs`. -/
def after (p : Position) (cs : List Char) : Position := cs.foldl advance p

/-- A place in words. -/
def describe (p : Position) : String :=
  "line " ++ p.line.repr ++ ", column " ++ p.column.repr

/-! ## Reading in pieces -/

@[simp] theorem after_nil (p : Position) : p.after [] = p := rfl

@[simp] theorem after_cons (p : Position) (c : Char) (cs : List Char) :
    p.after (c :: cs) = (p.advance c).after cs := rfl

@[simp] theorem after_append (p : Position) (cs ds : List Char) :
    p.after (cs ++ ds) = (p.after cs).after ds := List.foldl_append

theorem line_advance (p : Position) (c : Char) :
    (p.advance c).line = p.line + if c = '\n' then 1 else 0 := by
  unfold advance
  split <;> simp

/-- The line grows by the line feeds read. -/
theorem line_after (cs : List Char) : ∀ p : Position,
    (p.after cs).line = p.line + cs.count '\n' := by
  induction cs with
  | nil => intro p; simp
  | cons c cs ih =>
    intro p
    rw [after_cons, ih, line_advance, List.count_cons]
    simp only [beq_iff_eq]
    omega

/-- On a stretch without line feeds the column grows by one a character. -/
theorem column_after_of_not_mem : ∀ (cs : List Char) (p : Position), '\n' ∉ cs →
    (p.after cs).column = p.column + cs.length
  | [], p, _ => by simp
  | c :: cs, p, h => by
    have hc : c ≠ '\n' := fun e => h (e ▸ List.mem_cons_self)
    rw [after_cons, column_after_of_not_mem cs _ (fun m => h (List.mem_cons_of_mem _ m))]
    simp only [advance, if_neg hc, List.length_cons]
    omega

/-- After a line feed the column counts only what follows it. -/
theorem column_after_newline (p : Position) (cs ds : List Char) (h : '\n' ∉ ds) :
    (p.after (cs ++ '\n' :: ds)).column = ds.length := by
  rw [after_append, after_cons, column_after_of_not_mem ds _ h]
  simp [advance]

end Position

end Sexpr
