/-
# Programs read piece by piece

A program may be read in one go, or cut at the end of a line and read in two.  **If the first piece
can be read by itself, the two ways agree** (`readForms_append_newline`).  The forms of the whole are
those of the first piece and those of the second, the latter further down by the lines of the first;
and what is wrong with the second piece is wrong with the whole, in the same words and with the same
line to quote, again that much further down.

Both stages are back where they began at the end of the first piece.  The line feed there separates
the two sources for the scanner, even where the first ends in a comment (`Token.Separates`), and the
reader starts anew where the tokens of some forms end (`Form.Reader.run_append`).  Both count lines
as the quoting of a line does, so the line to quote is found again (`Text.line_append_newline`).

A first piece may begin with byte order marks; they are dropped from the whole as from the piece.
-/
import Sexpr.Proofs.Form.Relocate
import Sexpr.Proofs.Text.Lines
import Sexpr.Proofs.Token.Behind
import Sexpr.Source

namespace Sexpr

/-! ## 1. Further down -/

namespace Position

/-- The place so many lines further down. -/
def below (count : Nat) (p : Position) : Position := ⟨p.line + count, p.column⟩

/-- Behind a text that ends its line, a text begins in the first column. -/
theorem behind_newline (cs : List Char) :
    behind (cs ++ ['\n']) = below (1 + cs.count '\n') := by
  funext p
  have hcolumn : (cs ++ ['\n']).rtakeWhile (· ≠ '\n') = [] :=
    List.rtakeWhile_concat_neg _ _ _ (by simp)
  have hline : (cs ++ ['\n']).count '\n' = 1 + cs.count '\n' := by
    rw [List.count_append, List.count_singleton_self, Nat.add_comm]
  rw [behind, below, hcolumn, hline, List.length_nil, Nat.add_zero, ite_self]

end Position

/-- The report, its place so many lines further down. -/
def Diagnosis.below {Cause : Type} (count : Nat) (d : Diagnosis Cause) : Diagnosis Cause :=
  { d with position := d.position.below count }

/-- The report of either stage, its place so many lines further down. -/
def Error.below (count : Nat) : Error → Error
  | lexical e => lexical (e.below count)
  | parsing e => parsing (e.below count)

/-! ## 2. Both stages -/

namespace Token

/-- The scanner counts lines from one. -/
theorem one_le_line_of_run_error {cs : List Char} {f : Fault} (h : Scan.run cs = .error f) :
    1 ≤ f.position.line := by
  obtain ⟨q, rest, -, hstops⟩ := Scan.exists_stops h
  rw [hstops.position, Position.line_after_start]
  omega

theorem one_le_line_of_mem {cs : List Char} {ts : List Token} (h : Scan.run cs = .ok ts) {t : Token}
    (ht : t ∈ ts) : 1 ≤ t.position.line := by
  obtain ⟨body, last, -, hb, -⟩ := Scan.run_cut h
  rcases hb.pairwise_before.1 t ht with hline | ⟨hline, -⟩
  · exact Nat.le_of_lt hline
  · exact Nat.le_of_eq hline

theorem behind_newline (cs : List Char) :
    behind (cs ++ ['\n']) = relocate (Position.below (1 + cs.count '\n')) := by
  funext t
  rw [behind, relocate, Position.behind_newline]

/-- **The first stage.**  The tokens of the second piece are further down, and so is a fault. -/
theorem tokenize_append_newline {a b : String} {ts : List Token} (ha : tokenize a = .ok ts)
    (hb : b.toList.head? ≠ some '\uFEFF') :
    tokenize (a ++ "\n" ++ b) =
      ((tokenize b).map fun us =>
        ts ++ us.map (relocate (Position.below (1 + a.toList.count '\n')))).mapError
          (Diagnosis.below (1 + a.toList.count '\n')) := by
  have hcut := (tokenize_eq_ok_iff_cut a ts).mp ha
  rw [← Text.count_withoutMark]
  generalize htext : Text.withoutMark a = text at hcut
  have hmark := hcut.head?_ne_mark
  have hdrop : tokenize (a ++ "\n" ++ b) = tokenize (text ++ "\n" ++ b) := by
    rw [tokenize, tokenize, Text.withoutMark_append_newline, Text.withoutMark_append_newline, htext,
      Text.withoutMark_of_head hmark]
  have hgap : Separates text.toList "\n".toList :=
    ⟨Gap.blank rfl Gap.nil, by decide, fun _ => rfl⟩
  have hends : (text ++ "\n").toList = text.toList ++ ['\n'] := by simp
  rw [hdrop, hgap.tokenize hmark (tokenize_of_cut hcut), tokenize_eq_run hb, hends, behind_newline]
  cases hrun : Scan.run b.toList with
  | ok us => rfl
  | error f =>
    have hline := Text.line_append_newline text b (one_le_line_of_run_error hrun)
    simp only [Except.map, Except.mapError, Fault.behind, Fault.diagnose, Diagnosis.below,
      Position.behind_newline]
    simp only [Position.below, hline]

end Token

namespace Form

/-- **The second stage.**  Where the whole is quoted, the line of a token is found further down. -/
theorem parseAll_append {a b : String} {ts us : List Token} {fs : List Form} {source? : Option String}
    (h : parseAll ts source? = .ok fs) (hus : ∀ u ∈ us, 1 ≤ u.position.line) :
    parseAll (ts ++ us.map (Token.relocate (Position.below (1 + a.toList.count '\n'))))
        (some (a ++ "\n" ++ b)) =
      ((parseAll us (some b)).map fun gs =>
        fs ++ gs.map (relocate (Position.below (1 + a.toList.count '\n')))).mapError
          (Diagnosis.below (1 + a.toList.count '\n')) := by
  rw [parseAll, parseAll, Reader.run_append (parseAll_eq_ok_iff_run.mp h)]
  cases hrun : Reader.run .many us with
  | ok gs => rfl
  | error f =>
    obtain ⟨t, ht, htoken⟩ := Reader.exists_token_of_run hrun
    have hline := Text.line_append_newline a b (hus t ht)
    obtain ⟨cause, token⟩ := f
    obtain rfl : token = some t := htoken
    simp only [Except.map, Except.mapError, Fault.relocate, Fault.diagnose, Diagnosis.below,
      Option.map_some, Token.relocate, lineOf, Position.below, hline]

end Form

/-! ## 3. Both stages in one step -/

/-- What is read of a second piece, behind a first that can be read. -/
theorem readForms_append_newline_eq {a b : String} {fa : List Form}
    (ha : readForms a = .ok fa) (hb : b.toList.head? ≠ some '\uFEFF') :
    readForms (a ++ "\n" ++ b) =
      ((readForms b).map fun fb =>
        fa ++ fb.map (Form.relocate (Position.below (1 + a.toList.count '\n')))).mapError
          (Error.below (1 + a.toList.count '\n')) := by
  obtain ⟨ts, htokens, hforms⟩ := withTokens_eq_ok_iff.mp ha
  rw [readForms, readForms, withTokens_eq, withTokens_eq, Text.withoutMark_append_newline,
    Text.withoutMark_of_head hb, Token.tokenize_append_newline htokens hb, ← Text.count_withoutMark a]
  cases hb' : tokenize b with
  | error e => rfl
  | ok us =>
    have hus : ∀ u ∈ us, 1 ≤ u.position.line := fun u hu =>
      Token.one_le_line_of_mem (tokenize_eq_ok_iff_run.mp hb') hu
    have hparse := Form.parseAll_append (a := Text.withoutMark a) (b := b) hforms hus
    simp only [Except.map, Except.mapError] at hparse ⊢
    rw [hparse]
    cases Form.parseAll us (some b) <;> rfl

/-- **Reading piece by piece.**  Behind a source that can be read, and the end of its line, a source is
read as by itself.  Its forms follow those of the first, with all of their places further down by the
lines of the first; and if it cannot be read, neither can the whole, for the same cause at the same
column of the same line, which is quoted as it is and counted from the front of the whole. -/
theorem readForms_append_newline {a b : String} {fa : List Form}
    (ha : readForms a = .ok fa) (hb : b.toList.head? ≠ some '\uFEFF') :
    (∀ fb, readForms b = .ok fb →
        readForms (a ++ "\n" ++ b) =
          .ok (fa ++ fb.map (Form.relocate (Position.below (1 + a.toList.count '\n'))))) ∧
      ∀ e, readForms b = .error e →
        readForms (a ++ "\n" ++ b) = .error (e.below (1 + a.toList.count '\n')) := by
  rw [readForms_append_newline_eq ha hb]
  constructor
  · intro fb hfb
    rw [hfb]
    rfl
  · intro e he
    rw [he]
    rfl

/-- A piece that begins with a mark and ends in a comment, before one that can be read, one that the
scanner refuses and one that the reader refuses; the last two are quoted without the carriage return. -/
theorem readForms_append_newline_comment :
    ∃ fa fb, (∀ b ∈ ["'(c\nd)", "\n1x\r\n", "(\n d]\r\n"], b.toList.head? ≠ some '\uFEFF') ∧
      readForms "\uFEFFa\r\n;b" = .ok fa ∧ readForms "'(c\nd)" = .ok fb ∧
      readForms ("\uFEFFa\r\n;b" ++ "\n" ++ "'(c\nd)") =
        .ok (fa ++ fb.map (Form.relocate (Position.below 2))) ∧
      readForms ("\uFEFFa\r\n;b" ++ "\n" ++ "\n1x\r\n") =
        .error (.lexical ⟨.identifierAfterInt, ⟨4, 1⟩, "1x"⟩) ∧
      readForms ("\uFEFFa\r\n;b" ++ "\n" ++ "(\n d]\r\n") =
        .error (.parsing ⟨.wrongClose .round .square, ⟨4, 3⟩, " d]"⟩) := by
  have ha : readForms "\uFEFFa\r\n;b" = .ok [.atom none ⟨1, 1⟩ ⟨.identifier, "a", ⟨1, 1⟩⟩] := by rfl
  have hb : readForms "'(c\nd)" = .ok [.list (some .quote) ⟨1, 2⟩ .round
      [.atom none ⟨1, 3⟩ ⟨.identifier, "c", ⟨1, 3⟩⟩,
        .atom none ⟨2, 1⟩ ⟨.identifier, "d", ⟨2, 1⟩⟩]] := by rfl
  have hlex : readForms "\n1x\r\n" = .error (.lexical ⟨.identifierAfterInt, ⟨2, 1⟩, "1x"⟩) := by rfl
  have hparse : readForms "(\n d]\r\n" =
      .error (.parsing ⟨.wrongClose .round .square, ⟨2, 3⟩, " d]"⟩) := by rfl
  exact ⟨_, _, by decide, ha, hb, (readForms_append_newline ha (by decide)).1 _ hb,
    (readForms_append_newline ha (by decide)).2 _ hlex,
    (readForms_append_newline ha (by decide)).2 _ hparse⟩

end Sexpr
