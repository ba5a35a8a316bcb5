/-
# Lines of a text

A line feed ENDS a line, so a text has one more line than it has line feeds, and a text that ends
in one has an empty last line.  A carriage return before the line feed belongs to the line's end
and is not shown with it.

Also the two small jobs done at the border of a text: `withoutMark` drops one leading byte order
mark, and `alignedTo` shifts a fragment to the right until its last character stands at a column.
-/
namespace Sexpr.Text

/-- The lines of a text, their carriage returns included. -/
def lines (text : String) : List (List Char) := text.toList.splitOn '\n'

/-- A line without the carriage return at its end, if it has one. -/
def chomp (line : List Char) : List Char :=
  if line.getLast? = some '\r' then line.dropLast else line

/-- The line of this number, counted from one; empty where there is none. -/
def line (text : String) : (number : Nat) → String
  | 0 => ""
  | index + 1 => String.ofList (chomp ((lines text)[index]?.getD []))

/-- What follows the last line feed of a text: all of it if there is none. -/
def lastLine (text : String) : String :=
  String.ofList ((lines text).getLast?.getD [])

/-- The text without ONE byte order mark at its front. -/
def withoutMark (text : String) : String :=
  match text.toList with
  | '\uFEFF' :: rest => String.ofList rest
  | _ => text

def spaces (count : Nat) : String := String.ofList (List.replicate count ' ')

/-- The text behind as many spaces as its last character needs to stand at `column`.  There is no
widest column, as there is none with the declared toolchain (1.85); later ones stop at 65535. -/
def alignedTo (column : Nat) (text : String) : String :=
  spaces (column - text.length) ++ text

/-! ## Small laws -/

@[simp] theorem toList_spaces (count : Nat) : (spaces count).toList = List.replicate count ' ' := by
  simp [spaces]

@[simp] theorem length_spaces (count : Nat) : (spaces count).length = count := by
  simp [spaces]

/-- A text that begins with no mark is left alone. -/
theorem withoutMark_of_head {text : String} (h : text.toList.head? ≠ some '\uFEFF') :
    withoutMark text = text := by
  unfold withoutMark
  split
  · next heq => exact absurd (by rw [heq]; rfl) h
  · rfl

/-- Only the first of several marks is dropped. -/
theorem withoutMark_of_mark {text : String} {cs : List Char} (h : text.toList = '\uFEFF' :: cs) :
    withoutMark text = String.ofList cs := by
  unfold withoutMark
  split
  · next heq => rw [(List.cons.inj (h.symm.trans heq)).2]
  · next hne => exact absurd h (hne cs)

theorem chomp_cons {c : Char} (hc : c ≠ '\r') (line : List Char) :
    chomp (c :: line) = c :: chomp line := by
  cases line with
  | nil => simp [chomp, hc]
  | cons d line =>
    simp only [chomp, List.getLast?_cons_cons, List.dropLast_cons_cons]
    split <;> rfl

/-- A character in front of a text stands in front of its first line, unless it ends a line. -/
theorem line_one_cons {c : Char} (hn : c ≠ '\n') (hr : c ≠ '\r') (cs : List Char) :
    (line (String.ofList (c :: cs)) 1).toList = c :: (line (String.ofList cs) 1).toList := by
  have hsplit : (c :: cs).splitOn '\n' = (cs.splitOn '\n').modifyHead (c :: ·) := by
    simp [List.splitOn_eq_splitOnP, List.splitOnP_cons_eq_if_modifyHead, hn]
  obtain ⟨l, ls, hl⟩ := List.exists_cons_of_ne_nil (List.splitOn_ne_nil '\n' cs)
  simp only [line, lines, String.toList_ofList, hsplit, hl]
  exact chomp_cons hr l

/-- A short text is moved so that it ends at `column`; a long one is not cut. -/
theorem length_alignedTo (column : Nat) (text : String) :
    (alignedTo column text).length = max column text.length := by
  simp only [alignedTo, String.length_append, length_spaces]
  omega

end Sexpr.Text
