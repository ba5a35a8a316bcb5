/-
# Reports without the source

The reader takes tokens, and a source that is at hand plays no part before something is reported.  So
with the source and without it the same forms are made, or the same cause is reported at the same
place; only the line that is quoted can differ (`Form.Agree`).

**Without the source, the token stands in for its line.**  The end of its text, which is what follows
the last line feed in it, is moved to the right until it ends at the column of the token.  If the token
was cut from a source, this is where it ends in its line as well: up to the column of its place, a line
is what was read of it (`Text.take_line_column`), and the end of the token was read last.  It follows
that the column has room for the end of the token, so nothing is quoted beyond it, and that the two
excerpts point at one and the same character (`Form.PointAlike`).
-/
import Sexpr.Proofs.Excerpt

namespace Sexpr

namespace Form

/-! ## 1. The same outcome -/

/-- Two readings of the same tokens, without the source and with it, that make the same or report the
same.  Nothing is asked of the lines that are quoted. -/
inductive Agree {α : Type} : (bare sourced : Except Error α) → Prop
  | ok (x : α) : Agree (.ok x) (.ok x)
  | error {bare sourced : Error} (hcause : bare.cause = sourced.cause)
      (hposition : bare.position = sourced.position) : Agree (.error bare) (.error sourced)

/-- **A source that is quoted decides nothing**, whatever the tokens were run through. -/
theorem agree_diagnose {α : Type} (x : Except Fault α) (source : String) :
    Agree (x.mapError (Fault.diagnose none)) (x.mapError (Fault.diagnose (some source))) := by
  cases x with
  | ok a => exact Agree.ok a
  | error f =>
    obtain ⟨hcause, hposition⟩ := f.diagnose_alike none (some source)
    exact Agree.error hcause hposition

theorem agree_parse (tokens : List Token) (source : String) :
    Agree (parse tokens none) (parse tokens (some source)) := by
  rw [parse_eq, parse_eq]
  exact agree_diagnose _ source

theorem agree_parseAll (tokens : List Token) (source : String) :
    Agree (parseAll tokens none) (parseAll tokens (some source)) :=
  agree_diagnose _ source

/-! ## 2. What is quoted -/

/-- What the text of the token ends in behind its last line feed. -/
def ending (t : Token) : List Char := t.text.toList.rtakeWhile (· ≠ '\n')

/-- Without a source, the end of the token is quoted behind spaces. -/
theorem toList_lineOf_none (t : Token) :
    (lineOf none t).toList =
      List.replicate (t.position.column - (ending t).length) ' ' ++ ending t := by
  rw [lineOf, Text.alignedTo, String.toList_append, Text.toList_spaces, ← String.length_toList,
    Text.toList_lastLine, ending]

/-- The end of a token that the column has room for is quoted up to the column. -/
theorem length_lineOf_none {t : Token} (h : (ending t).length ≤ t.position.column) :
    (lineOf none t).length = t.position.column := by
  rw [lineOf, Text.length_alignedTo, ← String.length_toList, Text.toList_lastLine]
  exact Nat.max_eq_left h

/-- One line is quoted, with a source or without. -/
theorem newline_not_mem_lineOf (source? : Option String) (t : Token) :
    '\n' ∉ (lineOf source? t).toList := by
  cases source? with
  | some source => exact Text.newline_not_mem_line source _
  | none =>
    rw [toList_lineOf_none, List.mem_append, List.mem_replicate, not_or]
    exact ⟨fun h => absurd h.2 (by decide), Text.newline_not_mem_rtakeWhile _⟩

section Read

variable {front cs : List Char} {d : Char} {t : Token}

/-- **The end of a token is the end of what was read of its line**, if the token stands where its
text was read to. -/
theorem ending_suffix (htext : t.text.toList = cs ++ [d]) :
    ending t <:+ (front ++ cs ++ [d]).rtakeWhile (· ≠ '\n') := by
  rw [ending, htext, List.append_assoc]
  exact Text.rtakeWhile_suffix_append _ front (cs ++ [d])

/-- So the column has room for it. -/
theorem length_ending_le (htext : t.text.toList = cs ++ [d])
    (hplace : t.position = Position.start.after (front ++ cs ++ [d])) :
    (ending t).length ≤ t.position.column := by
  rw [hplace, Position.column_after_start]
  exact (ending_suffix htext).length_le

/-- Without a source, the last character of the token is quoted at its column. -/
theorem lineOf_none_getElem? (htext : t.text.toList = cs ++ [d]) (hd : d ≠ '\n')
    (hfits : (ending t).length ≤ t.position.column) :
    (lineOf none t).toList[t.position.column - 1]? = some d := by
  have hend : ending t = cs.rtakeWhile (· ≠ '\n') ++ [d] := by
    rw [ending, htext, List.rtakeWhile_concat_pos _ _ _ (by simpa using hd)]
  rw [← length_lineOf_none hfits, ← String.length_toList, ← List.getLast?_eq_getElem?,
    toList_lineOf_none, hend, ← List.append_assoc, List.getLast?_concat]

end Read

/-! ## 3. The same character -/

/-- In the excerpt of the report both pointers stand behind `margin`, and behind as many characters the
line between them has `d`. -/
structure Points (e : Error) (margin : List Char) (d : Char) : Prop where
  lines : Text.lines (excerpt e.line e.position) =
    [margin ++ [upperPointer], '|' :: ' ' :: e.line.toList, margin ++ [lowerPointer]]
  pointed : ('|' :: ' ' :: e.line.toList)[margin.length]? = some d

/-- Two reports on one token, without the source and with it.  Both are at the place of the token, and
in both excerpts the pointers stand at its last character.  Without the source the line is the end of
the token behind spaces, as long as the column says; with the source it has the end of the token up to
the same column. -/
structure PointAlike (t : Token) (bare sourced : Error) : Prop where
  position_bare : bare.position = t.position
  position_sourced : sourced.position = t.position
  length_bare : bare.line.length = t.position.column
  line_bare : ∃ n, bare.line.toList = List.replicate n ' ' ++ ending t
  line_sourced : ending t <:+ sourced.line.toList.take t.position.column
  points : ∃ d, t.text.toList.getLast? = some d ∧ Points bare (margin t.position) d ∧
    Points sourced (margin t.position) d

/-- The pointers stand at the character that the line has at the column. -/
theorem points_diagnose {source? : Option String} {cause : Cause} {t : Token} {d : Char}
    (h : (lineOf source? t).toList[t.position.column - 1]? = some d) :
    Points (Fault.diagnose source? ⟨cause, some t⟩) (margin t.position) d where
  lines := lines_excerpt_eq (newline_not_mem_lineOf source? t) t.position
  pointed := by
    have hline : (Fault.diagnose source? ⟨cause, some t⟩).line = lineOf source? t := rfl
    rw [hline]
    simpa [margin] using h

/-- **A token that was cut from a source is pointed at alike**, whatever the cause. -/
theorem pointAlike_of_mem {source : String} {tokens : List Token}
    (hm : source.toList.head? ≠ some '\uFEFF') (htokens : tokenize source = .ok tokens) {t : Token}
    (ht : t ∈ tokens) (cause : Cause) :
    PointAlike t (Fault.diagnose none ⟨cause, some t⟩)
      (Fault.diagnose (some source) ⟨cause, some t⟩) := by
  obtain ⟨front, cs, d, rest, hread, htext, hplace, hd⟩ := Token.exists_read_of_mem hm htokens ht
  obtain ⟨hn, hr⟩ := Token.ne_of_isBlank_eq_false hd
  have hfits := length_ending_le htext hplace
  -- The last character of a token ends no line, so the quoted line has it and all that was read before.
  have hquoted : (lineOf (some source) t).toList.take t.position.column =
      (front ++ cs ++ [d]).rtakeWhile (· ≠ '\n') := by
    rw [lineOf, hplace]
    exact Text.take_line_column hread hn hr
  have hpointed : (lineOf (some source) t).toList[t.position.column - 1]? = some d := by
    rw [lineOf, hplace]
    exact (Text.line_getElem?_column hread hn hr).2
  exact {
    position_bare := rfl
    position_sourced := rfl
    length_bare := length_lineOf_none hfits
    line_bare := ⟨_, toList_lineOf_none t⟩
    line_sourced := hquoted ▸ ending_suffix htext
    points := ⟨d, by rw [htext, List.getLast?_concat],
      points_diagnose (lineOf_none_getElem? htext hn hfits), points_diagnose hpointed⟩ }

/-! ## 4. Both readers -/

/-- **Reading without the source.**  Both readers make the same without the source as with it, or
report the same cause at the same place.  If the tokens were cut from the source that is quoted, and
it begins with no byte order mark, both reports point at the last character of the token at which the
reader stopped. -/
theorem parse_without_source :
    (∀ (tokens : List Token) (source : String),
        Agree (parse tokens none) (parse tokens (some source)) ∧
          Agree (parseAll tokens none) (parseAll tokens (some source))) ∧
      ∀ (source : String) (tokens : List Token) (bare sourced : Error),
        source.toList.head? ≠ some '\uFEFF' → tokenize source = .ok tokens →
          (parse tokens none = .error bare ∧ parse tokens (some source) = .error sourced ∨
            parseAll tokens none = .error bare ∧ parseAll tokens (some source) = .error sourced) →
              ∃ t ∈ tokens, (∃ arity, Reader.run arity tokens = .error ⟨bare.cause, some t⟩) ∧
                PointAlike t bare sourced := by
  refine ⟨fun tokens source => ⟨agree_parse tokens source, agree_parseAll tokens source⟩, ?_⟩
  intro source tokens bare sourced hm htokens hfail
  have hfault : ∃ arity f, Reader.run arity tokens = .error f ∧ f.diagnose none = bare ∧
      f.diagnose (some source) = sourced := by
    rcases hfail with ⟨hbare, hsourced⟩ | ⟨hbare, hsourced⟩
    · obtain ⟨f, hrun, hf⟩ := parse_eq_error_iff.mp hbare
      obtain ⟨f', hrun', hf'⟩ := parse_eq_error_iff.mp hsourced
      obtain rfl := Except.error.inj (hrun.symm.trans hrun')
      exact ⟨.one, f, hrun, hf, hf'⟩
    · obtain ⟨f, hrun, hf⟩ := parseAll_eq_error_iff.mp hbare
      obtain ⟨f', hrun', hf'⟩ := parseAll_eq_error_iff.mp hsourced
      obtain rfl := Except.error.inj (hrun.symm.trans hrun')
      exact ⟨.many, f, hrun, hf, hf'⟩
  obtain ⟨arity, ⟨cause, token⟩, hrun, rfl, rfl⟩ := hfault
  obtain ⟨t, ht, htoken⟩ := Reader.exists_token_of_run hrun
  obtain rfl : token = some t := htoken
  exact ⟨t, ht, ⟨arity, hrun⟩, pointAlike_of_mem hm htokens ht cause⟩

/-- A second form, which is a string that ends on the second line; only the source shows what stands
behind it there. -/
theorem parse_without_source_string :
    ∃ tokens, "x \"p\nq\" z\r\n".toList.head? ≠ some '\uFEFF' ∧
      tokenize "x \"p\nq\" z\r\n" = .ok tokens ∧
      parse tokens none = .error ⟨.secondForm, ⟨2, 2⟩, "q\""⟩ ∧
      parse tokens (some "x \"p\nq\" z\r\n") = .error ⟨.secondForm, ⟨2, 2⟩, "q\" z"⟩ ∧
      ∃ t ∈ tokens, (∃ arity, Reader.run arity tokens = .error ⟨.secondForm, some t⟩) ∧
        PointAlike t ⟨.secondForm, ⟨2, 2⟩, "q\""⟩ ⟨.secondForm, ⟨2, 2⟩, "q\" z"⟩ := by
  have hm : "x \"p\nq\" z\r\n".toList.head? ≠ some '\uFEFF' := by decide
  have htokens : tokenize "x \"p\nq\" z\r\n" =
      .ok [⟨.identifier, "x", ⟨1, 1⟩⟩, ⟨.string, "\"p\nq\"", ⟨2, 2⟩⟩,
        ⟨.identifier, "z", ⟨2, 4⟩⟩] := by rfl
  have hbare : parse [⟨.identifier, "x", ⟨1, 1⟩⟩, ⟨.string, "\"p\nq\"", ⟨2, 2⟩⟩,
      ⟨.identifier, "z", ⟨2, 4⟩⟩] none = .error ⟨.secondForm, ⟨2, 2⟩, "q\""⟩ := by rfl
  have hsourced : parse [⟨.identifier, "x", ⟨1, 1⟩⟩, ⟨.string, "\"p\nq\"", ⟨2, 2⟩⟩,
      ⟨.identifier, "z", ⟨2, 4⟩⟩] (some "x \"p\nq\" z\r\n") =
        .error ⟨.secondForm, ⟨2, 2⟩, "q\" z"⟩ := by rfl
  exact ⟨_, hm, htokens, hbare, hsourced,
    parse_without_source.2 _ _ _ _ hm htokens (Or.inl ⟨hbare, hsourced⟩)⟩

end Form

end Sexpr
