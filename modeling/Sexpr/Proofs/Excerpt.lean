/-
# Excerpts that point at what they blame

A report blames one character: the last one that the scanner read, or the last one of the token that
the reader was at (`Error.Blames`).  **In the excerpt both pointers stand at this character**
(`excerpt_blames`), because three ways to count agree.  The place of the report counts what was read
(`Position.after`), the line is found by its number in the source as a whole
(`Text.line_getElem?_column`), and the pointers stand behind as many characters as the line has in
front of the character (`lines_excerpt`).

Only the end of a line is never quoted, and only a string can end in one of its characters.  Every
lexeme ends in a character that can be seen, and so does the text up to the place of every cause but
one (`Token.Cause.TrueOf.endsSeen`).  What is left is a string that the source does not close: it may
end in a line feed, and the pointers stand at the front of an empty line, or in a carriage return, and
they stand behind the line.
-/
import Sexpr.Proofs.Form.Relocate
import Sexpr.Proofs.Text.Lines
import Sexpr.Proofs.Token.Truth
import Sexpr.Source

namespace Sexpr

/-! ## 1. Ends that can be seen -/

namespace Token

/-- The text is not empty, and its last character is no blank. -/
def EndsSeen (cs : List Char) : Prop := ∃ ds d, cs = ds ++ [d] ∧ isBlank d = false

theorem endsSeen_concat (cs : List Char) {d : Char} (h : isBlank d = false) :
    EndsSeen (cs ++ [d]) := ⟨cs, d, rfl, h⟩

/-- A text of characters that can all be seen. -/
theorem endsSeen_of_forall {cs : List Char} (hne : cs ≠ []) (h : ∀ d ∈ cs, isBlank d = false) :
    EndsSeen cs :=
  ⟨cs.dropLast, cs.getLast hne, (List.dropLast_concat_getLast hne).symm,
    h _ (List.getLast_mem hne)⟩

theorem isBlank_eq_false_of_isWordChar {c : Char} (h : isWordChar c = true) : isBlank c = false := by
  cases hb : isBlank c with
  | false => rfl
  | true => exact absurd h (by simp [(free_some.mp (free_of_isBlank hb)).1])

theorem isBlank_eq_false_of_isDigit {c : Char} (h : c.isDigit = true) : isBlank c = false :=
  isBlank_eq_false_of_isWordChar (Scan.isWordChar_of_isDigit h)

theorem isBlank_eq_false_of_isAlpha {c : Char} (h : c.isAlpha = true) : isBlank c = false :=
  isBlank_eq_false_of_isWordChar (isWordChar_iff.mpr (Or.inl h))

theorem isBlank_eq_false_of_ofChar? {c : Char} {kind : Kind} (h : Kind.ofChar? c = some kind) :
    isBlank c = false := by
  rcases Kind.ofChar?_cases h with ⟨b, rfl, -⟩ | ⟨b, rfl, -⟩ | ⟨rfl, -⟩ | ⟨m, rfl, -⟩
  · cases b <;> rfl
  · cases b <;> rfl
  · rfl
  · cases m <;> rfl

theorem IsWord.endsSeen {cs : List Char} (h : IsWord cs) : EndsSeen cs := by
  obtain ⟨c, rest, rfl, hc, hrest⟩ := h
  refine endsSeen_of_forall (List.cons_ne_nil _ _) (List.forall_mem_cons.mpr ⟨?_, ?_⟩)
  · exact isBlank_eq_false_of_isWordChar (Scan.isWordChar_of_isWordStart hc)
  · exact fun d hd => isBlank_eq_false_of_isWordChar (hrest d hd)

theorem IsDigits.endsSeen (front : List Char) {cs : List Char} (h : IsDigits cs) :
    EndsSeen (front ++ cs) := by
  obtain ⟨ds, d, rfl, hd⟩ := endsSeen_of_forall h.1 fun d hd => isBlank_eq_false_of_isDigit (h.2 d hd)
  rw [← List.append_assoc]
  exact endsSeen_concat _ hd

theorem IsInt.endsSeen {cs : List Char} (h : IsInt cs) : EndsSeen cs := by
  obtain ⟨sign, digits, rfl, -, hd⟩ := h
  exact hd.endsSeen sign

theorem IsFloat.endsSeen {cs : List Char} (h : IsFloat cs) : EndsSeen cs := by
  rcases h with ⟨whole, digits, rfl, -, hd⟩ | ⟨digits, rfl, hd⟩
  · by_cases hnil : digits = []
    · rw [hnil]
      exact endsSeen_concat whole (by decide)
    · have hdigits : IsDigits digits := ⟨hnil, hd⟩
      rw [List.append_cons]
      exact hdigits.endsSeen _
  · exact hd.endsSeen ['.']

theorem Scan.IsSpelled.endsSeen {cs : List Char} (h : Scan.IsSpelled cs) : EndsSeen cs := by
  obtain ⟨c, letters, rfl, hc, hl⟩ := h
  refine endsSeen_of_forall (List.cons_ne_nil _ _) ?_
  simp only [List.forall_mem_cons]
  exact ⟨by decide, hc, fun d hd => isBlank_eq_false_of_isAlpha (hl d hd)⟩

/-- **Lexemes end in characters that can be seen**, even those that have blanks in them. -/
theorem Lexeme.endsSeen {kind : Kind} {cs : List Char} {next : Option Char}
    (h : Lexeme kind cs next) : EndsSeen cs := by
  cases h with
  | single hk => exact endsSeen_concat [] (isBlank_eq_false_of_ofChar? hk)
  | word h _ => exact h.endsSeen
  | int h _ => exact h.endsSeen
  | float h _ => exact h.endsSeen
  | string h =>
    obtain ⟨body, -, rfl⟩ := h
    exact endsSeen_concat ('"' :: body) (by decide)
  | character h _ => exact h.isSpelled.endsSeen

/-- **What a report is about ends in a character that can be seen**, unless it is a string. -/
theorem Cause.TrueOf.endsSeen {cause : Cause} {w : List Char} {next : Option Char}
    (h : cause.TrueOf w next) (hc : cause ≠ .unclosedString) : EndsSeen w := by
  cases cause with
  | unexpected c =>
    obtain ⟨rfl, hb, -⟩ := h
    exact endsSeen_concat [] hb
  | blankLiteral b =>
    obtain ⟨rfl, -⟩ := h
    exact endsSeen_concat [] (by decide)
  | invalidEscape c =>
    obtain ⟨⟨body, -, rfl⟩, -⟩ := h
    exact endsSeen_concat ('"' :: body) (by decide)
  | invalidCharacter text =>
    obtain ⟨-, rfl | hw, -⟩ := h
    · exact endsSeen_concat [] (by decide)
    · exact hw.endsSeen
  | pointAfterIdentifier => exact h.1.endsSeen
  | identifierAfterInt => exact h.1.endsSeen
  | identifierAfterFloat | secondPoint => exact h.1.endsSeen
  | unclosedString => exact absurd rfl hc

/-- A character that can be seen ends no line. -/
theorem ne_of_isBlank_eq_false {d : Char} (h : isBlank d = false) : d ≠ '\n' ∧ d ≠ '\r' := by
  constructor <;> (rintro rfl; exact absurd h (by decide))

end Token

/-! ## 2. The lines of an excerpt -/

/-- What stands in front of a pointer: the frame that the line has too, and as many blanks as the line
has characters in front of the place. -/
def margin (p : Position) : List Char := '|' :: ' ' :: List.replicate (p.column - 1) ' '

theorem newline_not_mem_margin (p : Position) : '\n' ∉ margin p := by simp [margin]

/-- An excerpt has three lines. -/
theorem lines_excerpt_eq {line : String} (h : '\n' ∉ line.toList) (p : Position) :
    Text.lines (excerpt line p) =
      [margin p ++ [upperPointer], '|' :: ' ' :: line.toList, margin p ++ [lowerPointer]] := by
  have hmargin := newline_not_mem_margin p
  have htext : (excerpt line p).toList =
      margin p ++ [upperPointer] ++ '\n' :: ('|' :: ' ' :: line.toList ++ '\n' ::
        (margin p ++ [lowerPointer])) := by
    simp [excerpt, margin]
  rw [Text.lines, htext, List.splitOn_append_cons_self, List.splitOn_append_cons_self,
    List.splitOn_eq_singleton, List.splitOn_eq_singleton, List.splitOn_eq_singleton]
  · rfl
  · simp [hmargin, lowerPointer]
  · simp [h]
  · simp [hmargin, upperPointer]

/-- **The pointers stand behind as many characters as the column says**, counted from one, and behind
the frame that the line has too. -/
theorem lines_excerpt {line : String} (h : '\n' ∉ line.toList) (p : Position) :
    ∃ margin, margin.length = 2 + (p.column - 1) ∧
      Text.lines (excerpt line p) =
        [margin ++ [upperPointer], '|' :: ' ' :: line.toList, margin ++ [lowerPointer]] :=
  ⟨margin p, by simp [margin]; omega, lines_excerpt_eq h p⟩

/-! ## 3. What reports blame -/

/-- The character that a report blames: the last one that the scanner read, or the last one of the
token that the reader was at. -/
inductive Error.Blames (source : String) (d : Char) : Error → Prop
  | lexical {f : Token.Fault} {q rest : List Char} (hsource : source.toList = q ++ d :: rest)
      (hstops : Token.Scan.Stops f (q ++ [d]) rest) : Blames source d (.lexical (f.diagnose source))
  | parsing {arity : Form.Arity} {tokens : List Token} {cause : Form.Cause} {t : Token}
      {cs : List Char} (htokens : tokenize source = .ok tokens)
      (hrun : Form.Reader.run arity tokens = .error ⟨cause, some t⟩) (htext : t.text.toList = cs ++ [d]) :
      Blames source d (.parsing (Form.Fault.diagnose (some source) ⟨cause, some t⟩))

/-- A source that cannot be read is at fault for the scanner, or its tokens are for the reader.  One
mark is dropped in front of what the reader quotes, and one more in front of what the scanner reads. -/
theorem exists_fault_behind_marks {source : String} {e : Error}
    (h : readForm source = .error e ∨ readForms source = .error e) :
    (∃ f, Token.Scan.run (Text.withoutMark (Text.withoutMark source)).toList = .error f ∧
        .lexical (f.diagnose (Text.withoutMark (Text.withoutMark source))) = e) ∨
      ∃ arity tokens f, tokenize (Text.withoutMark source) = .ok tokens ∧
        Form.Reader.run arity tokens = .error f ∧
        .parsing (f.diagnose (some (Text.withoutMark source))) = e := by
  rw [readForm, readForms, withTokens_eq_error_iff, withTokens_eq_error_iff] at h
  rcases h with (⟨d, hd, he⟩ | ⟨tokens, d, htokens, hparse, he⟩) |
    (⟨d, hd, he⟩ | ⟨tokens, d, htokens, hparse, he⟩)
  · obtain ⟨f, hrun, rfl⟩ := mapError_eq_error_iff.mp hd
    exact Or.inl ⟨f, hrun, he⟩
  · obtain ⟨f, hrun, rfl⟩ := Form.parse_eq_error_iff.mp hparse
    exact Or.inr ⟨.one, tokens, f, htokens, hrun, he⟩
  · obtain ⟨f, hrun, rfl⟩ := mapError_eq_error_iff.mp hd
    exact Or.inl ⟨f, hrun, he⟩
  · obtain ⟨f, hrun, rfl⟩ := Form.parseAll_eq_error_iff.mp hparse
    exact Or.inr ⟨.many, tokens, f, htokens, hrun, he⟩

/-- Without a mark at its front the source is read and quoted as it is. -/
theorem exists_fault {source : String} {e : Error} (hm : source.toList.head? ≠ some '\uFEFF')
    (h : readForm source = .error e ∨ readForms source = .error e) :
    (∃ f, Token.Scan.run source.toList = .error f ∧ .lexical (f.diagnose source) = e) ∨
      ∃ arity tokens f, tokenize source = .ok tokens ∧ Form.Reader.run arity tokens = .error f ∧
        .parsing (f.diagnose (some source)) = e := by
  have hfault := exists_fault_behind_marks h
  rwa [Text.withoutMark_of_head hm, Text.withoutMark_of_head hm] at hfault

/-- The report is at the end of `cs` and `d`, which it blames, and quotes the line that `d` was read on.
Only a string that is not closed can end in a blank, and then the source ends with it. -/
structure Error.IsAt (source : String) (e : Error) (cs : List Char) (d : Char) (rest : List Char) :
    Prop where
  read : source.toList = cs ++ d :: rest
  position : e.position = Position.start.after (cs ++ [d])
  line : e.line = Text.line source e.position.line
  blames : e.Blames source d
  seen : Token.isBlank d = false ∨ rest = [] ∧ ∃ f, e = .lexical f ∧ f.cause = .unclosedString

/-- **The scanner** is at the last character that it read. -/
theorem Token.Fault.exists_isAt {source : String} {f : Token.Fault}
    (h : Token.Scan.run source.toList = .error f) :
    ∃ cs d rest, Error.IsAt source (.lexical (f.diagnose source)) cs d rest := by
  obtain ⟨q, rest, hsource, hstops⟩ := Token.Scan.exists_stops h
  obtain ⟨front, w, ts, rfl, -, htrue⟩ := hstops.trueOf
  have isAt : ∀ ds d, w = ds ++ [d] →
      (Token.isBlank d = false ∨ rest = [] ∧ f.cause = .unclosedString) →
      Error.IsAt source (.lexical (f.diagnose source)) (front ++ ds) d rest := by
    rintro ds d rfl hseen
    rw [← List.append_assoc] at hsource hstops
    have hread : source.toList = front ++ ds ++ d :: rest := by
      rw [hsource, List.append_assoc _ [d], List.singleton_append]
    refine ⟨hread, hstops.position, rfl, Error.Blames.lexical hread hstops, ?_⟩
    exact hseen.imp_right fun hopen => ⟨hopen.1, f.diagnose source, rfl, hopen.2⟩
  -- An open string may end in a blank, but nothing stands behind it; all else ends in what can be seen.
  by_cases hopen : f.cause = .unclosedString
  · rw [hopen] at htrue
    obtain ⟨⟨body, -, hw⟩, hnone⟩ := htrue
    have hne : w ≠ [] := by rcases hw with rfl | rfl <;> exact List.cons_ne_nil _ _
    exact ⟨_, _, _, isAt w.dropLast (w.getLast hne) (List.dropLast_concat_getLast hne).symm
      (Or.inr ⟨List.head?_eq_none_iff.mp hnone, hopen⟩)⟩
  · obtain ⟨ds, d, hw, hd⟩ := htrue.endsSeen hopen
    exact ⟨_, _, _, isAt ds d hw (Or.inl hd)⟩

/-- A token of the source was read to its last character, which can be seen, and stands there. -/
theorem Token.exists_read_of_mem {source : String} {tokens : List Token}
    (hm : source.toList.head? ≠ some '\uFEFF') (h : tokenize source = .ok tokens) {t : Token}
    (ht : t ∈ tokens) : ∃ front cs d rest, source.toList = front ++ cs ++ d :: rest ∧
      t.text.toList = cs ++ [d] ∧ t.position = Position.start.after (front ++ cs ++ [d]) ∧
        isBlank d = false := by
  obtain ⟨body, last, hsource, hpieces, -⟩ := cut_of_tokenize hm h
  obtain ⟨us, vs, front, g, rest, -, rfl, -, -, hw, hplace⟩ := hpieces.split ht
  obtain ⟨cs, d, htext, hd⟩ := hw.endsSeen
  rw [htext] at hsource hplace
  refine ⟨front ++ g, cs, d, rest ++ last, ?_, htext, ?_, hd⟩
  · rw [hsource]
    simp
  · have hread : front ++ g ++ cs ++ [d] = front ++ (g ++ (cs ++ [d])) := by simp
    rw [hread]
    exact hplace

/-- **The reader** is at the last character of a token. -/
theorem Form.Fault.exists_isAt {source : String} {arity : Form.Arity} {tokens : List Token}
    {f : Form.Fault} (hm : source.toList.head? ≠ some '\uFEFF')
    (htokens : tokenize source = .ok tokens) (h : Form.Reader.run arity tokens = .error f) :
    ∃ cs d rest, Error.IsAt source (.parsing (f.diagnose (some source))) cs d rest := by
  obtain ⟨t, ht, htoken⟩ := Form.Reader.exists_token_of_run h
  obtain ⟨cause, token⟩ := f
  obtain rfl : token = some t := htoken
  obtain ⟨front, cs, d, rest, hread, htext, hplace, hd⟩ := Token.exists_read_of_mem hm htokens ht
  exact ⟨front ++ cs, d, rest, hread, hplace, rfl, Error.Blames.parsing htokens h htext, Or.inl hd⟩

/-- **The column is that of the character in the line that is quoted**, unless the source ends inside a
string with a character that ends a line. -/
theorem Error.IsAt.column {source : String} {e : Error} {cs rest : List Char} {d : Char}
    (h : e.IsAt source cs d rest) :
    (1 ≤ e.position.column ∧ e.line.toList[e.position.column - 1]? = some d) ∨
      (∃ f, e = .lexical f ∧ f.cause = .unclosedString) ∧
        (d = '\n' ∧ e.position.column = 0 ∨
          d = '\r' ∧ source.toList.getLast? = some '\r' ∧ e.position.column = e.line.length + 1) := by
  rw [h.line, h.position]
  by_cases hends : d = '\n' ∨ d = '\r'
  · have hopen : rest = [] ∧ ∃ f, e = .lexical f ∧ f.cause = .unclosedString := by
      refine h.seen.resolve_left fun hseen => ?_
      exact hends.elim (Token.ne_of_isBlank_eq_false hseen).1 (Token.ne_of_isBlank_eq_false hseen).2
    obtain ⟨rfl, hopen⟩ := hopen
    refine Or.inr ⟨hopen, ?_⟩
    rcases hends with rfl | rfl
    · exact Or.inl ⟨rfl, Position.column_after_newline _ _ _ List.not_mem_nil⟩
    · refine Or.inr ⟨rfl, ?_, Text.column_after_return h.read⟩
      rw [h.read, List.getLast?_concat]
  · obtain ⟨hn, hr⟩ := not_or.mp hends
    exact Or.inl (Text.line_getElem?_column h.read hn hr)

/-- A report of either stage is somewhere. -/
theorem exists_isAt {source : String} {e : Error} (hm : source.toList.head? ≠ some '\uFEFF')
    (h : readForm source = .error e ∨ readForms source = .error e) :
    ∃ cs d rest, Error.IsAt source e cs d rest := by
  rcases exists_fault hm h with ⟨f, hrun, rfl⟩ | ⟨arity, tokens, f, htokens, hrun, rfl⟩
  · exact Token.Fault.exists_isAt hrun
  · exact Form.Fault.exists_isAt hm htokens hrun

/-! ## 4. Excerpts of reports -/

/-- **Excerpts point at what is blamed.**  A report quotes the line of its place, without the carriage
return at its end.  Both pointers stand where the quoted line has the character that is blamed, which
is the one at the column of the place.  The exception is a string that is not closed: if the source
ends in a line feed, the pointers stand at the front of the last line, and if it ends in a carriage
return, they stand behind the last line. -/
theorem excerpt_blames {source : String} {e : Error} (hm : source.toList.head? ≠ some '\uFEFF')
    (h : readForm source = .error e ∨ readForms source = .error e) :
    1 ≤ e.position.line ∧
      (∃ raw, (Text.lines source)[e.position.line - 1]? = some raw ∧
        e.line = String.ofList (Text.chomp raw)) ∧
      ∃ d margin, e.Blames source d ∧ margin.length = 2 + (e.position.column - 1) ∧
        Text.lines (excerpt e.line e.position) =
          [margin ++ [upperPointer], '|' :: ' ' :: e.line.toList, margin ++ [lowerPointer]] ∧
        ((1 ≤ e.position.column ∧ e.line.toList[e.position.column - 1]? = some d ∧
            ('|' :: ' ' :: e.line.toList)[margin.length]? = some d) ∨
          (∃ f, e = .lexical f ∧ f.cause = .unclosedString) ∧
            (d = '\n' ∧ e.position.column = 0 ∨
              d = '\r' ∧ source.toList.getLast? = some '\r' ∧
                e.position.column = e.line.length + 1)) := by
  obtain ⟨cs, d, rest, hat⟩ := exists_isAt hm h
  have hread : source.toList = cs ++ [d] ++ rest := by rw [hat.read, List.append_cons]
  obtain ⟨raw, hraw, hnumber, hquoted⟩ := Text.exists_line hread
  rw [← hat.position] at hnumber hquoted
  rw [← hat.line] at hquoted
  have hline : '\n' ∉ e.line.toList := by
    rw [hquoted, String.toList_ofList]
    exact fun hmem => hraw ((Text.chomp_prefix raw).subset hmem)
  obtain ⟨margin, hmargin, hlines⟩ := lines_excerpt hline e.position
  refine ⟨?_, ⟨raw, hnumber, hquoted⟩, d, margin, hat.blames, hmargin, hlines, ?_⟩
  · rw [hat.position, Position.line_after_start]
    omega
  · refine hat.column.imp_left ?_
    rintro ⟨hcolumn, hchar⟩
    refine ⟨hcolumn, hchar, ?_⟩
    rw [hmargin, Nat.add_comm, List.getElem?_cons_succ, List.getElem?_cons_succ, hchar]

/-- A string over two lines, and on a third, behind a space, a bracket that closes no list that is open;
the carriage return behind it is not quoted. -/
theorem excerpt_blames_bracket :
    "(\"a\r\nb\"\r\n ]\r\n".toList.head? ≠ some '\uFEFF' ∧
      readForm "(\"a\r\nb\"\r\n ]\r\n" =
        .error (.parsing ⟨.wrongClose .round .square, ⟨3, 2⟩, " ]"⟩) ∧
      1 ≤ 3 ∧
      (∃ raw, (Text.lines "(\"a\r\nb\"\r\n ]\r\n")[2]? = some raw ∧
        " ]" = String.ofList (Text.chomp raw)) ∧
      ∃ d margin, Error.Blames "(\"a\r\nb\"\r\n ]\r\n" d
          (.parsing ⟨.wrongClose .round .square, ⟨3, 2⟩, " ]"⟩) ∧
        margin.length = 3 ∧
        Text.lines (excerpt " ]" ⟨3, 2⟩) =
          [margin ++ [upperPointer], '|' :: ' ' :: " ]".toList, margin ++ [lowerPointer]] ∧
        " ]".toList[1]? = some d ∧ ('|' :: ' ' :: " ]".toList)[margin.length]? = some d := by
  have hm : "(\"a\r\nb\"\r\n ]\r\n".toList.head? ≠ some '\uFEFF' := by decide
  have he : readForm "(\"a\r\nb\"\r\n ]\r\n" =
      .error (.parsing ⟨.wrongClose .round .square, ⟨3, 2⟩, " ]"⟩) := by rfl
  obtain ⟨hline, hraw, d, margin, hblames, hmargin, hlines, ⟨-, hcolumn, hquoted⟩ | ⟨⟨f, hf, -⟩, -⟩⟩ :=
    excerpt_blames hm (Or.inl he)
  · exact ⟨hm, he, hline, hraw, d, margin, hblames, hmargin, hlines, hcolumn, hquoted⟩
  · exact absurd hf nofun

end Sexpr
