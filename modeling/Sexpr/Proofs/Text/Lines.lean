/-
# Texts line by line

A line feed between two texts keeps their lines apart: the lines of the whole are those of the first
text and then those of the second (`lines_append_newline`).  So the lines of the second are found
further down by as many lines as the first one has, which is one more than it has line feeds.

**A place is in the line that it names.**  Reading up to a place reads some lines to their ends and
begins one more.  What was read of that one stands behind the last line feed and has as many characters
as the place's column, and the line is what was read of it and what is left of it
(`splitOn_getElem?_count`).

A line is quoted without a carriage return at its end.  It is the only character that can be missing
(`chomp_append`), so the character read last is quoted at the column of the place, unless it ends the
line (`line_getElem?_column`).
-/
import Mathlib.Data.List.Basic
import Mathlib.Data.List.DropRight
import Mathlib.Data.List.Induction
import Sexpr.Position
import Sexpr.Text.Lines

namespace Sexpr

namespace Position

/-! ## 1. Places are counted in the text -/

/-- The line is one more than the line feeds read. -/
theorem line_after_start (cs : List Char) : (start.after cs).line = 1 + cs.count '\n' :=
  line_after cs start

/-- The column is the number of characters read since the last line feed. -/
theorem column_after_start (cs : List Char) :
    (start.after cs).column = (cs.rtakeWhile (· ≠ '\n')).length := by
  induction cs using List.reverseRecOn with
  | nil => simp [start]
  | append_singleton cs c ih =>
    rw [after_append, after_cons, after_nil, advance]
    by_cases hc : c = '\n'
    · rw [if_pos hc, List.rtakeWhile_concat_neg _ _ _ (by simpa using hc)]
      rfl
    · rw [if_neg hc, List.rtakeWhile_concat_pos _ _ _ (by simpa using hc), List.length_append, ih]
      rfl

end Position

namespace Text

/-- The number of characters on the last line of a text. -/
def column (cs : List Char) : Nat := (cs.rtakeWhile (· ≠ '\n')).length

/-- It is the column that is reached by reading the text. -/
theorem column_eq (cs : List Char) : column cs = (Position.start.after cs).column :=
  (Position.column_after_start cs).symm

theorem column_append (cs : List Char) {ds : List Char} (h : '\n' ∉ ds) :
    column (cs ++ ds) = column cs + ds.length := by
  rw [column_eq, column_eq, Position.after_append, Position.column_after_of_not_mem ds _ h]

/-! ## 2. Lines of texts put together -/

/-- **Lines are kept apart** by a line feed between two texts. -/
theorem lines_append_newline (a b : String) : lines (a ++ "\n" ++ b) = lines a ++ lines b := by
  have htext : (a ++ "\n" ++ b).toList = a.toList ++ '\n' :: b.toList := by simp
  rw [lines, htext, List.splitOn_append_cons_self]
  rfl

theorem length_splitOn (cs : List Char) : (cs.splitOn '\n').length = cs.count '\n' + 1 := by
  induction cs with
  | nil => rfl
  | cons c cs ih =>
    rw [List.splitOn_cons_eq_if_modifyHead, List.count_cons]
    by_cases hc : c = '\n'
    · simp [hc, ih]
    · simp [hc, ih]

/-- Lines are without line feeds. -/
theorem newline_not_mem_of_mem_splitOn (cs : List Char) : ∀ raw ∈ cs.splitOn '\n', '\n' ∉ raw := by
  induction cs with
  | nil => simp
  | cons c cs ih =>
    obtain ⟨raw, others, hlines⟩ := List.exists_cons_of_ne_nil (List.splitOn_ne_nil '\n' cs)
    rw [List.splitOn_cons_eq_if_modifyHead, hlines]
    rw [hlines, List.forall_mem_cons] at ih
    by_cases hc : c = '\n'
    · simpa [hc] using ih
    · simpa [hc, Ne.symm hc] using ih

/-- Line by line, the second text follows the first. -/
theorem line_append_newline (a b : String) {number : Nat} (h : 1 ≤ number) :
    line (a ++ "\n" ++ b) (number + (1 + a.toList.count '\n')) = line b number := by
  obtain ⟨index, rfl⟩ := Nat.exists_eq_add_of_le' h
  have hindex : index + 1 + (1 + a.toList.count '\n') = (lines a).length + index + 1 := by
    rw [lines, length_splitOn]
    omega
  rw [hindex, line, line, lines_append_newline, List.getElem?_append_right (Nat.le_add_right _ _),
    Nat.add_sub_cancel_left]

/-- A mark is dropped at the front, whatever follows the text. -/
theorem withoutMark_append_newline (a b : String) :
    withoutMark (a ++ "\n" ++ b) = withoutMark a ++ "\n" ++ b := by
  by_cases hm : a.toList.head? = some '\uFEFF'
  · obtain ⟨cs, hcs⟩ := List.head?_eq_some_iff.mp hm
    have htext : (a ++ "\n" ++ b).toList = '\uFEFF' :: (cs ++ '\n' :: b.toList) := by simp [hcs]
    rw [withoutMark_of_mark htext, withoutMark_of_mark hcs, ← String.toList_inj]
    simp
  · have htext : (a ++ "\n" ++ b).toList.head? ≠ some '\uFEFF' := by
      cases hcs : a.toList with
      | nil => simp [hcs]
      | cons c cs =>
        rw [hcs] at hm
        simpa [hcs] using hm
    rw [withoutMark_of_head hm, withoutMark_of_head htext]

/-- A mark ends no line. -/
theorem count_withoutMark (a : String) :
    (withoutMark a).toList.count '\n' = a.toList.count '\n' := by
  by_cases hm : a.toList.head? = some '\uFEFF'
  · obtain ⟨cs, hcs⟩ := List.head?_eq_some_iff.mp hm
    rw [withoutMark_of_mark hcs, hcs, String.toList_ofList]
    simp
  · rw [withoutMark_of_head hm]

/-! ## 3. A place in its line -/

theorem newline_not_mem_takeWhile (cs : List Char) : '\n' ∉ cs.takeWhile (· ≠ '\n') := fun h =>
  absurd (List.mem_takeWhile_imp h) (by decide)

theorem newline_not_mem_rtakeWhile (cs : List Char) : '\n' ∉ cs.rtakeWhile (· ≠ '\n') := fun h =>
  absurd (List.mem_rtakeWhile_imp h) (by decide)

/-- The last line of a text ends in the last line of every text that it ends in. -/
theorem rtakeWhile_suffix_append (p : Char → Bool) (cs ds : List Char) :
    ds.rtakeWhile p <:+ (cs ++ ds).rtakeWhile p := by
  induction ds using List.reverseRecOn with
  | nil => exact List.nil_suffix
  | append_singleton ds d ih =>
    rw [← List.append_assoc, List.rtakeWhile_concat, List.rtakeWhile_concat]
    split
    · obtain ⟨front, hfront⟩ := ih
      exact ⟨front, by rw [← hfront, List.append_assoc]⟩
    · exact List.nil_suffix

theorem splitOn_getElem?_zero (cs : List Char) :
    (cs.splitOn '\n')[0]? = some (cs.takeWhile (· ≠ '\n')) := by
  induction cs with
  | nil => rfl
  | cons c cs ih =>
    rw [List.splitOn_cons_eq_if_modifyHead]
    by_cases hc : c = '\n'
    · simp [hc]
    · simp [hc, ih]

/-- **A place is in its line.**  The line of the whole text is what was read of it and what is left of
it. -/
theorem splitOn_getElem?_count (cs : List Char) : ∀ rest : List Char,
    ((cs ++ rest).splitOn '\n')[cs.count '\n']? =
      some (cs.rtakeWhile (· ≠ '\n') ++ rest.takeWhile (· ≠ '\n')) := by
  induction cs using List.reverseRecOn with
  | nil =>
    intro rest
    exact splitOn_getElem?_zero rest
  | append_singleton cs c ih =>
    intro rest
    rw [List.append_assoc, List.singleton_append]
    by_cases hc : c = '\n'
    · subst hc
      have hindex : (cs ++ ['\n']).count '\n' = (cs.splitOn '\n').length := by
        rw [length_splitOn]
        simp
      rw [List.splitOn_append_cons_self, hindex, List.getElem?_append_right (Nat.le_refl _),
        Nat.sub_self, splitOn_getElem?_zero, List.rtakeWhile_concat_neg _ _ _ (by simp),
        List.nil_append]
    · rw [List.rtakeWhile_concat_pos _ _ _ (by simpa using hc)]
      simpa [hc] using ih (c :: rest)

/-- What a text ends in behind its last line feed is its last line. -/
theorem toList_lastLine (text : String) :
    (lastLine text).toList = text.toList.rtakeWhile (· ≠ '\n') := by
  have hlast := splitOn_getElem?_count text.toList []
  have hindex : (lines text).length - 1 = text.toList.count '\n' := by
    rw [lines, length_splitOn, Nat.add_sub_cancel]
  rw [List.append_nil, List.takeWhile_nil, List.append_nil] at hlast
  rw [lastLine, String.toList_ofList, List.getLast?_eq_getElem?, hindex, lines, hlast]
  rfl

/-- Only the end of a line can be a carriage return that is not shown. -/
theorem chomp_append {left : List Char} (begun : List Char) (h : left ≠ []) :
    chomp (begun ++ left) = begun ++ chomp left := by
  rw [chomp, chomp, List.getLast?_append_of_ne_nil _ h, List.dropLast_append_of_ne_nil h]
  split <;> rfl

theorem chomp_prefix (raw : List Char) : chomp raw <+: raw := by
  unfold chomp
  split
  · exact List.dropLast_prefix raw
  · exact List.prefix_refl raw

/-! ## 4. What is quoted of it -/

/-- What is quoted stands on one line, whatever its number. -/
theorem newline_not_mem_line (text : String) (number : Nat) : '\n' ∉ (line text number).toList := by
  cases number with
  | zero => simp [line]
  | succ index =>
    rw [line, String.toList_ofList]
    intro hmem
    have hfront := chomp_prefix ((lines text)[index]?.getD [])
    have hraw := hfront.subset hmem
    cases hl : (lines text)[index]? with
    | none => simp [hl] at hraw
    | some raw =>
      rw [hl] at hraw
      exact newline_not_mem_of_mem_splitOn _ raw (List.mem_of_getElem? hl) hraw

section Quoted

variable {source : String} {cs rest : List Char} {c : Char}

/-- The line of the place behind `cs` is without line feeds, and is quoted by its number. -/
theorem exists_line (h : source.toList = cs ++ rest) : ∃ raw, '\n' ∉ raw ∧
    (lines source)[(Position.start.after cs).line - 1]? = some raw ∧
      line source (Position.start.after cs).line = String.ofList (chomp raw) := by
  have hraw : (lines source)[cs.count '\n']? =
      some (cs.rtakeWhile (· ≠ '\n') ++ rest.takeWhile (· ≠ '\n')) := by
    rw [lines, h, splitOn_getElem?_count]
  rw [Position.line_after_start, Nat.add_comm, Nat.add_sub_cancel, line, hraw]
  refine ⟨_, fun hmem => ?_, rfl, rfl⟩
  exact (List.mem_append.mp hmem).elim (newline_not_mem_rtakeWhile cs)
    (newline_not_mem_takeWhile rest)

/-- What is quoted of the line that `c` was read on, if `c` does not end it: what was read before `c`,
and `c`, and what is left without a carriage return at the end. -/
theorem line_after_concat (h : source.toList = cs ++ c :: rest) (hc : c ≠ '\n') :
    (Position.start.after (cs ++ [c])).column = (cs.rtakeWhile (· ≠ '\n')).length + 1 ∧
      (line source (Position.start.after (cs ++ [c])).line).toList =
        cs.rtakeWhile (· ≠ '\n') ++ chomp (c :: rest.takeWhile (· ≠ '\n')) := by
  have hnumber : (Position.start.after (cs ++ [c])).line = cs.count '\n' + 1 := by
    rw [Position.line_after_start, Nat.add_comm]
    simp [hc]
  have hleft : (c :: rest).takeWhile (· ≠ '\n') = c :: rest.takeWhile (· ≠ '\n') := by simp [hc]
  constructor
  · rw [Position.column_after_start, List.rtakeWhile_concat_pos _ _ _ (by simpa using hc)]
    simp
  · rw [hnumber, line, lines, h, splitOn_getElem?_count, hleft, Option.getD_some,
      String.toList_ofList, chomp_append _ (by simp)]

/-- **What was read of a line is quoted up to the column of the place**, if the character read last is
not one that ends a line. -/
theorem take_line_column (h : source.toList = cs ++ c :: rest) (hn : c ≠ '\n') (hr : c ≠ '\r') :
    (line source (Position.start.after (cs ++ [c])).line).toList.take
        (Position.start.after (cs ++ [c])).column = (cs ++ [c]).rtakeWhile (· ≠ '\n') := by
  obtain ⟨hcolumn, hline⟩ := line_after_concat h hn
  rw [hcolumn, hline, chomp_cons hr, List.rtakeWhile_concat_pos _ _ _ (by simpa using hn),
    List.append_cons, List.take_append_of_le_length (by simp), List.take_of_length_le (by simp)]

/-- **The character read last is quoted at the column of its place**, if it is not one that ends a
line. -/
theorem line_getElem?_column (h : source.toList = cs ++ c :: rest) (hn : c ≠ '\n') (hr : c ≠ '\r') :
    1 ≤ (Position.start.after (cs ++ [c])).column ∧
      (line source (Position.start.after (cs ++ [c])).line).toList[
        (Position.start.after (cs ++ [c])).column - 1]? = some c := by
  obtain ⟨hcolumn, hline⟩ := line_after_concat h hn
  rw [hcolumn, hline, Nat.add_sub_cancel, chomp_cons hr]
  exact ⟨Nat.le_add_left _ _, by simp⟩

/-- A carriage return at the end of the source is not quoted, and the column is behind the line. -/
theorem column_after_return (h : source.toList = cs ++ ['\r']) :
    (Position.start.after (cs ++ ['\r'])).column =
      (line source (Position.start.after (cs ++ ['\r'])).line).length + 1 := by
  obtain ⟨hcolumn, hline⟩ := line_after_concat h (by decide)
  have hchomp : chomp ('\r' :: [].takeWhile (· ≠ '\n')) = [] := by decide
  rw [hcolumn, ← String.length_toList, hline, hchomp, List.append_nil]

end Quoted

end Text

end Sexpr
