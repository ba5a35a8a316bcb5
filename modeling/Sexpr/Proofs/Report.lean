/-
# Reports line by line

A report is its excerpt, an empty line, and a headline that says which stage is at fault, where, and
why.  It has five lines, then, if neither the line it quotes nor its headline has a line feed.

**A quoted line never has one**, and neither does a place.  What is left is the reason, which shows
characters of the source.  An unexpected character is escaped; a character literal that is none is one
character that can be seen and letters (`Token.Cause.TrueOf`); brackets and numbers are harmless.  The
one character that is shown as it stands is the one behind a backslash in a string.

**So a report has five lines, except where a string escapes a line feed** (`lines_message`).  There the
headline is broken in two behind its backslash, and the report has six.
-/
import Sexpr.Proofs.Excerpt
import Sexpr.Proofs.Text.Shown

namespace Sexpr

/-! ## 1. A report and its headline -/

namespace Diagnosis

variable {Cause : Type}

/-- The lines in front of the headline: the quoted line between two pointers, and an empty line. -/
def frame (d : Diagnosis Cause) : List (List Char) :=
  [margin d.position ++ [upperPointer], '|' :: ' ' :: d.line.toList,
    margin d.position ++ [lowerPointer], []]

/-- What a report says behind its excerpt. -/
def headline (stage : String) (reason : Cause → String) (d : Diagnosis Cause) : String :=
  stage ++ " error at " ++ d.position.describe ++ " - " ++ reason d.cause

/-- **The frame of a report never breaks**; what follows it are the lines of the headline. -/
theorem lines_render (stage : String) (reason : Cause → String) {d : Diagnosis Cause}
    (h : '\n' ∉ d.line.toList) :
    Text.lines (d.render stage reason) = d.frame ++ Text.lines (d.headline stage reason) := by
  have htext : d.render stage reason =
      excerpt d.line d.position ++ "\n" ++ ("" ++ "\n" ++ d.headline stage reason) := by
    rw [← String.toList_inj]
    simp [render, headline]
  have hempty : Text.lines "" = [[]] := by rfl
  rw [htext, Text.lines_append_newline, Text.lines_append_newline, lines_excerpt_eq h, hempty]
  simp only [frame, List.cons_append, List.nil_append]

end Diagnosis

namespace Error

def frame : Error → List (List Char)
  | lexical d => d.frame
  | parsing d => d.frame

/-- What the report of either stage says behind its excerpt. -/
def headline : Error → String
  | lexical d => d.headline "lexical" Token.Cause.reason
  | parsing d => d.headline "parsing" Form.Cause.reason

/-- The line of the report's place is quoted.  The scanner has dropped a second mark before. -/
def Quotes (source : String) : Error → Prop
  | lexical d =>
    d.line = Text.line (Text.withoutMark (Text.withoutMark source)) d.position.line
  | parsing d => d.line = Text.line (Text.withoutMark source) d.position.line

variable {source : String} {e : Error}

/-- A report that quotes a line of its source is framed. -/
theorem Quotes.framed (h : e.Quotes source) :
    Text.lines e.message = e.frame ++ Text.lines e.headline := by
  cases e with
  | lexical d =>
    have hline : d.line = _ := h
    exact Diagnosis.lines_render _ _ (hline ▸ Text.newline_not_mem_line _ _)
  | parsing d =>
    have hline : d.line = _ := h
    exact Diagnosis.lines_render _ _ (hline ▸ Text.newline_not_mem_line _ _)

end Error

/-! ## 2. What reasons show -/

/-- A character literal that is none shows a character that can be seen, and letters. -/
theorem Token.Scan.IsSpelled.newline_not_mem {cs : List Char} (h : IsSpelled cs) : '\n' ∉ cs := by
  obtain ⟨c, letters, rfl, hc, hl⟩ := h
  simp only [List.mem_cons, not_or]
  refine ⟨by decide, ?_, fun hmem => absurd (hl _ hmem) (by decide)⟩
  rintro rfl
  exact absurd hc (by decide)

/-- **Reasons that are true show a line feed only behind a backslash.** -/
theorem Token.Cause.TrueOf.newline_mem_reason_iff {cause : Cause} {w : List Char}
    {next : Option Char} (h : cause.TrueOf w next) :
    '\n' ∈ cause.reason.toList ↔ cause = .invalidEscape '\n' := by
  cases cause with
  | invalidEscape c =>
    dsimp only [reason]
    simp only [String.toList_append, String.toList_singleton, List.mem_append, List.mem_singleton,
      invalidEscape.injEq]
    constructor
    · rintro ((hmem | rfl) | hmem)
      · exact absurd hmem (Text.not_mem_ofList (by decide))
      · rfl
      · exact absurd hmem (Text.not_mem_ofList (by decide))
    · rintro rfl
      exact Or.inl (Or.inr rfl)
  | unexpected c =>
    refine iff_of_false ?_ (by simp)
    dsimp only [reason]
    simp only [String.toList_append, List.mem_append, not_or]
    exact ⟨Text.not_mem_ofList (by decide),
      Text.not_mem_ofList (Text.newline_not_mem_quoted _ (by decide) [c])⟩
  | invalidCharacter text =>
    obtain ⟨rfl, hspelled, -⟩ := h
    refine iff_of_false ?_ (by simp)
    dsimp only [reason]
    simp only [String.toList_append, List.mem_append, not_or]
    refine ⟨Text.not_mem_ofList (by decide), ?_⟩
    rcases hspelled with hback | hspelled
    · rw [hback]
      decide
    · exact hspelled.newline_not_mem
  | blankLiteral b =>
    have hname : '\n' ∉ b.name.toList := by cases b <;> exact Text.not_mem_ofList (by decide)
    refine iff_of_false ?_ (by simp)
    dsimp only [reason, Blank.literal]
    simp only [String.toList_append, List.mem_append, not_or]
    refine ⟨⟨⟨⟨⟨?_, hname⟩, ?_⟩, ?_⟩, ?_, hname⟩, ?_⟩ <;> exact Text.not_mem_ofList (by decide)
  | pointAfterIdentifier | identifierAfterInt | identifierAfterFloat | secondPoint
  | unclosedString => exact iff_of_false (Text.not_mem_ofList (by decide)) (by simp)

/-- The other reasons show brackets and numbers. -/
theorem Form.Cause.newline_not_mem_reason (cause : Cause) : '\n' ∉ cause.reason.toList := by
  cases cause with
  | unclosed count =>
    dsimp only [reason]
    simp only [String.toList_append, List.mem_append, not_or]
    have hplural : '\n' ∉ (if count = 1 then "" else "s").toList := by
      split <;> exact Text.not_mem_ofList (by decide)
    refine ⟨⟨⟨?_, Text.not_mem_repr Text.newline_ne_digitChar count⟩, ?_⟩, hplural⟩ <;>
      exact Text.not_mem_ofList (by decide)
  | wrongClose expected found =>
    have hcloser : ∀ b : Bracket, '\n' ∉ (String.singleton b.closer).toList := by
      intro b
      cases b <;> exact Text.not_mem_ofList (by decide)
    dsimp only [reason]
    simp only [String.toList_append, List.mem_append, not_or]
    refine ⟨⟨⟨⟨?_, hcloser expected⟩, ?_⟩, hcloser found⟩, ?_⟩ <;>
      exact Text.not_mem_ofList (by decide)
  | strayClose | adjacentMarkers | danglingMarker | secondForm =>
    exact Text.not_mem_ofList (by decide)

/-- A headline without a line feed is one line. -/
theorem Diagnosis.lines_headline {Cause : Type} {stage : String} {reason : Cause → String}
    {d : Diagnosis Cause} (hs : '\n' ∉ stage.toList) (hr : '\n' ∉ (reason d.cause).toList) :
    Text.lines (d.headline stage reason) = [(d.headline stage reason).toList] := by
  refine List.splitOn_eq_singleton ?_
  simp only [headline, String.toList_append, List.mem_append, not_or]
  exact ⟨⟨⟨⟨hs, Text.not_mem_ofList (by decide)⟩, d.position.newline_not_mem_describe⟩,
    Text.not_mem_ofList (by decide)⟩, hr⟩

/-- The scanner shows no other line feed than one behind a backslash. -/
theorem Token.Fault.lines_headline {cs : List Char} {f : Fault} (hrun : Scan.run cs = .error f)
    (hno : ¬ BehindBackslash '\n' cs) (source : String) :
    Text.lines ((f.diagnose source).headline "lexical" Cause.reason) =
      [((f.diagnose source).headline "lexical" Cause.reason).toList] := by
  obtain ⟨q, rest, -, hstops⟩ := Scan.exists_stops hrun
  obtain ⟨-, w, -, -, -, htrue⟩ := hstops.trueOf
  have hreason : '\n' ∉ f.cause.reason.toList := fun hmem =>
    hno (Scan.behindBackslash_of_run hrun (htrue.newline_mem_reason_iff.mp hmem))
  exact Diagnosis.lines_headline (Text.not_mem_ofList (by decide)) hreason

/-! ## 3. Five lines or six -/

/-- In a string of the source a line feed stands where an escaped character should. -/
def EscapesNewline (source : String) : Prop :=
  Token.BehindBackslash '\n' (Text.withoutMark (Text.withoutMark source)).toList

/-- The headline of such a source is broken in two. -/
theorem Token.Error.lines_headline_of_escape {d : Token.Error} (h : d.cause = .invalidEscape '\n') :
    Text.lines (d.headline "lexical" Cause.reason) =
      [("lexical error at " ++ d.position.describe ++ " - invalid escape sequence \\").toList,
        " in string literal".toList] := by
  have hreason : Cause.reason (.invalidEscape '\n') =
      "invalid escape sequence \\" ++ "\n" ++ " in string literal" := rfl
  have htext : d.headline "lexical" Cause.reason =
      "lexical error at " ++ d.position.describe ++ " - invalid escape sequence \\" ++ "\n" ++
        " in string literal" := by
    rw [Diagnosis.headline, h, hreason, ← String.toList_inj]
    simp
  have hbefore : '\n' ∉
      ("lexical error at " ++ d.position.describe ++ " - invalid escape sequence \\").toList := by
    simp only [String.toList_append, List.mem_append, not_or]
    exact ⟨⟨Text.not_mem_ofList (by decide), d.position.newline_not_mem_describe⟩,
      Text.not_mem_ofList (by decide)⟩
  have hbehind : '\n' ∉ " in string literal".toList := Text.not_mem_ofList (by decide)
  rw [htext, Text.lines_append_newline, Text.lines, Text.lines, List.splitOn_eq_singleton hbefore,
    List.splitOn_eq_singleton hbehind]
  rfl

/-- **Reports line by line.**  The report of a source that cannot be read quotes the line of its place
between two pointers, and has an empty line behind them.  Its headline is one more line, and the last,
unless a string escapes a line feed; then it is two. -/
theorem lines_message {source : String} {e : Error}
    (h : readForm source = .error e ∨ readForms source = .error e) :
    e.Quotes source ∧
      (¬ EscapesNewline source → Text.lines e.message = e.frame ++ [e.headline.toList]) ∧
      (EscapesNewline source → Text.lines e.message = e.frame ++
        [("lexical error at " ++ e.position.describe ++ " - invalid escape sequence \\").toList,
          " in string literal".toList]) := by
  rcases exists_fault_behind_marks h with
    ⟨f, hrun, rfl⟩ | ⟨arity, tokens, f, htokens, hrun, rfl⟩
  · have hquotes : (Error.lexical (f.diagnose _)).Quotes source := rfl
    refine ⟨hquotes, fun hno => ?_, fun hescape => ?_⟩
    · rw [hquotes.framed]
      exact congrArg (_ ++ ·) (Token.Fault.lines_headline hrun hno _)
    · obtain ⟨p, hescape⟩ := (Token.Scan.run_eq_invalidEscape_iff (by decide)).mpr hescape
      obtain rfl := Except.error.inj (hrun.symm.trans hescape)
      rw [hquotes.framed]
      exact congrArg (_ ++ ·) (Token.Error.lines_headline_of_escape rfl)
  · obtain ⟨t, -, htoken⟩ := Form.Reader.exists_token_of_run hrun
    obtain ⟨cause, token⟩ := f
    obtain rfl : token = some t := htoken
    have hquotes : (Error.parsing (Form.Fault.diagnose (some _) ⟨cause, some t⟩)).Quotes source := rfl
    refine ⟨hquotes, fun _ => ?_, fun hescape => ?_⟩
    · rw [hquotes.framed]
      exact congrArg (_ ++ ·) (Diagnosis.lines_headline (Text.not_mem_ofList (by decide))
        (Form.Cause.newline_not_mem_reason cause))
    · -- such a source is not cut into tokens
      obtain ⟨p, hescape⟩ := (Token.Scan.run_eq_invalidEscape_iff (by decide)).mpr hescape
      rw [tokenize_eq_ok_iff_run, hescape] at htokens
      exact absurd htokens (by simp)

/-- A bracket of the wrong kind, on the second line. -/
theorem lines_message_wrong_bracket :
    readForm "[a\n  (b]" = .error (.parsing ⟨.wrongClose .round .square, ⟨2, 5⟩, "  (b]"⟩) ∧
      ¬ EscapesNewline "[a\n  (b]" ∧
      Text.lines (Error.message (.parsing ⟨.wrongClose .round .square, ⟨2, 5⟩, "  (b]"⟩)) =
        ["|     ▼".toList, "|   (b]".toList, "|     ▲".toList, [],
          ("parsing error at line 2, column 5 - " ++
            "mismatched brackets - expected ')' but found ']'").toList] := by
  have he : readForm "[a\n  (b]" =
      .error (.parsing ⟨.wrongClose .round .square, ⟨2, 5⟩, "  (b]"⟩) := by rfl
  have hno : ¬ EscapesNewline "[a\n  (b]" := by
    intro hescape
    obtain ⟨p, hrun⟩ := (Token.Scan.run_eq_invalidEscape_iff (by decide)).mpr hescape
    have hcut : (Token.Scan.run "[a\n  (b]".toList).isOk = true := by decide +kernel
    rw [Text.withoutMark_of_head (by decide), Text.withoutMark_of_head (by decide)] at hrun
    rw [hrun] at hcut
    exact absurd hcut Bool.false_ne_true
  obtain ⟨-, hlines, -⟩ := lines_message (Or.inl he)
  refine ⟨he, hno, (hlines hno).trans ?_⟩
  decide +kernel

/-- A string that escapes a line feed has a report of six lines. -/
theorem not_all_five_lines :
    ¬ ∀ source e, readForm source = .error e → (Text.lines e.message).length = 5 := by
  intro hall
  have he : readForm "\"\\\n" = .error (.lexical ⟨.invalidEscape '\n', ⟨1, 2⟩, "\"\\"⟩) := by rfl
  have hsix : (Text.lines (Error.message
      (.lexical ⟨.invalidEscape '\n', ⟨1, 2⟩, "\"\\"⟩))).length = 6 := by decide +kernel
  have hfive := hall _ _ he
  omega

end Sexpr
