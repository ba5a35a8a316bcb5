/-
# Reports that are true

A report on the characters of a source names a cause and a place.  This module says what each cause
claims of the text up to that place, in the words of the grammar and without the scanner
(`Cause.TrueOf`), and proves the claim.

**The text up to the place ends in a segment that the scanner begins anew**: it reads everything in
front of the segment and is between two tokens there.  The cause speaks of this segment and of the
character behind it.  A character that is not expected is a segment by itself; every other cause is
about a lexeme that was begun and cannot be what it was taken for.

The decision shows its cause when it refuses a character (`judge_holds`).  What is left is a character
literal that turns out to be none when it is complete, and the end of the source in a string or
behind a backslash.

Of one cause the converse is stated too: a source is refused for a character behind a backslash exactly
if a string has that character there, and everything before the string is in order
(`Scan.run_eq_invalidEscape_iff`).
-/
import Sexpr.Proofs.Token.Prefix

namespace Sexpr

namespace Token

open Scan (digitNext IsSpelled)

/-! ## 1. What causes claim -/

/-- The cause is true of the segment `w` and of the character behind it, if there is one. -/
def Cause.TrueOf : Cause → (w : List Char) → (next : Option Char) → Prop
  | .unexpected c, w, next =>
    w = [c] ∧ isBlank c = false ∧ c ≠ ';' ∧ (c = negation ∨ c = '.' → digitNext next = false) ∧
      ∀ kind rest after, Lexeme kind (c :: rest) after →
        (c = negation ∨ c = '.') ∧ digitNext rest.head? = true
  | .blankLiteral b, w, next => w = ['\\'] ∧ next.bind Blank.ofChar? = some b
  | .invalidEscape c, w, next =>
    (∃ body, StringBody body ∧ w = '"' :: (body ++ ['\\'])) ∧ next = some c ∧ c ∉ escapes
  | .invalidCharacter text, w, next =>
    w = text.toList ∧ (w = ['\\'] ∨ IsSpelled w) ∧
      ¬ (text.length = 2 ∨ text ∈ namedCharacters) ∧ next.any Char.isAlpha = false
  | .pointAfterIdentifier, w, next => IsWord w ∧ next = some '.'
  | .identifierAfterInt, w, next =>
    IsInt w ∧ next.any isWordChar = true ∧ digitNext next = false
  | .identifierAfterFloat, w, next =>
    IsFloat w ∧ next.any isWordChar = true ∧ digitNext next = false
  | .secondPoint, w, next => IsFloat w ∧ next = some '.'
  | .unclosedString, w, next =>
    (∃ body, StringBody body ∧ (w = '"' :: body ∨ w = '"' :: (body ++ ['\\']))) ∧ next = none

/-! ## 2. How lexemes begin -/

/-- An integer literal begins with a digit, behind a sign or not. -/
theorem IsInt.begins {c : Char} {rest : List Char} (h : IsInt (c :: rest)) :
    c.isDigit = true ∨ c = negation ∧ digitNext rest.head? = true := by
  obtain ⟨sign, _ | ⟨d, digits⟩, heq, hs, hne, hd⟩ := h
  · exact absurd rfl hne
  have hdigit := hd d List.mem_cons_self
  rcases hs with rfl | rfl
  · obtain ⟨rfl, -⟩ := List.cons.inj heq
    exact Or.inl hdigit
  · obtain ⟨rfl, rfl⟩ := List.cons.inj heq
    exact Or.inr ⟨rfl, hdigit⟩

theorem digitNext_append {cs ds : List Char} (h : digitNext cs.head? = true) :
    digitNext (cs ++ ds).head? = true := by
  cases cs with
  | nil => exact absurd h (by decide)
  | cons c cs => exact h

/-- A floating-point literal begins likewise, or with a point before a digit. -/
theorem IsFloat.begins {c : Char} {rest : List Char} (h : IsFloat (c :: rest)) :
    c.isDigit = true ∨ (c = negation ∨ c = '.') ∧ digitNext rest.head? = true := by
  rcases h with ⟨_ | ⟨d, whole⟩, digits, heq, hw, -⟩ | ⟨_ | ⟨d, digits⟩, heq, hne, hd⟩
  · obtain ⟨_, _, hnil, -, hne, -⟩ := hw
    exact absurd (List.append_eq_nil_iff.mp hnil.symm).2 hne
  · obtain ⟨rfl, rfl⟩ := List.cons.inj heq
    rcases hw.begins with hdigit | ⟨hsign, hnext⟩
    · exact Or.inl hdigit
    · exact Or.inr ⟨Or.inl hsign, digitNext_append hnext⟩
  · exact absurd rfl hne
  · obtain ⟨rfl, rfl⟩ := List.cons.inj heq
    exact Or.inr ⟨Or.inr rfl, hd d List.mem_cons_self⟩

/-- **How a lexeme begins**: with a character that says so by itself, or with a sign or a point, and
then a digit. -/
theorem Lexeme.begins {kind : Kind} {c : Char} {rest : List Char} {next : Option Char}
    (h : Lexeme kind (c :: rest) next) :
    Kind.ofChar? c = some kind ∨ isWordChar c = true ∨ c = '"' ∨ c = '\\' ∨
      (c = negation ∨ c = '.') ∧ digitNext rest.head? = true := by
  generalize hcs : c :: rest = cs at h
  cases h with
  | single hk =>
    obtain ⟨rfl, -⟩ := List.cons.inj hcs
    exact Or.inl hk
  | word hw _ =>
    obtain ⟨d, ds, rfl, hd, -⟩ := hw
    obtain ⟨rfl, -⟩ := List.cons.inj hcs
    exact Or.inr (Or.inl (Scan.isWordChar_of_isWordStart hd))
  | int hi _ =>
    subst hcs
    rcases hi.begins with hdigit | ⟨hsign, hnext⟩
    · exact Or.inr (Or.inl (Scan.isWordChar_of_isDigit hdigit))
    · exact Or.inr (Or.inr (Or.inr (Or.inr ⟨Or.inl hsign, hnext⟩)))
  | float hf _ =>
    subst hcs
    rcases hf.begins with hdigit | hnumber
    · exact Or.inr (Or.inl (Scan.isWordChar_of_isDigit hdigit))
    · exact Or.inr (Or.inr (Or.inr (Or.inr hnumber)))
  | string hs =>
    obtain ⟨body, -, rfl⟩ := hs
    exact Or.inr (Or.inr (Or.inl (List.cons.inj hcs).1))
  | character hl _ =>
    have hback : c = '\\' := by
      rcases hl with ⟨d, -, rfl⟩ | ⟨b, rfl⟩
      · exact (List.cons.inj hcs).1
      · cases b <;> exact (List.cons.inj hcs).1
    exact Or.inr (Or.inr (Or.inr (Or.inl hback)))

namespace Scan

/-! ## 3. What the scanner refuses -/

/-- What a refusal shows is what its cause claims. -/
theorem Refused.trueOf {cause : Cause} {w : List Char} {next : Option Char}
    (h : Refused cause w next) : cause.TrueOf w next := by
  cases cause with
  | unexpected c =>
    obtain ⟨rfl, hk, hc, hw, hb, hnext⟩ := h
    simp only [List.mem_cons, List.not_mem_nil, or_false, not_or] at hc
    refine ⟨rfl, hb, hc.1, hnext, ?_⟩
    intro kind rest after hl
    rcases hl.begins with hs | hs | hs | hs | hs
    · exact absurd hs (by simp [hk])
    · exact absurd hs (by simp [hw])
    · exact absurd hs hc.2.1
    · exact absurd hs hc.2.2
    · exact hs
  | invalidEscape c =>
    obtain ⟨body, hb, hw, hnext, hc⟩ := h
    exact ⟨⟨body, hb, hw⟩, hnext, hc⟩
  | invalidCharacter text => exact h.elim
  | unclosedString =>
    obtain ⟨body, hb, hw, hnext⟩ := h
    exact ⟨⟨body, hb, Or.inr hw⟩, hnext⟩
  | blankLiteral b | pointAfterIdentifier | identifierAfterInt | identifierAfterFloat | secondPoint =>
    exact h

/-- Only a character literal can be wrong when it is complete. -/
theorem kind_eq_error {shape : Shape} {text : String} {cause : Cause}
    (h : shape.kind text = .error cause) :
    shape = .character ∧ ¬ (text.length = 2 ∨ text ∈ namedCharacters) ∧
      cause = .invalidCharacter text := by
  cases shape with
  | identifier | int | float => exact absurd h (by simp [Shape.kind])
  | character =>
    simp only [Shape.kind] at h
    split at h
    · exact absurd h (by simp)
    · next hn => exact ⟨rfl, hn, (Except.error.inj h).symm⟩

section Reached

variable {cs : List Char} {c : Char} {next : Option Char} {s : Scan} {f : Fault}

theorem close_eq_error {shape : Shape} (h : s.close shape = .error f) :
    ∃ cause, shape.kind s.lexeme = .error cause ∧ f = ⟨cause, s.position⟩ := by
  unfold close at h
  cases hk : shape.kind s.lexeme with
  | ok kind => rw [hk] at h; exact absurd h nofun
  | error cause => rw [hk] at h; exact ⟨cause, rfl, (Except.error.inj h).symm⟩

/-- A character is refused for a cause that is true of the lexeme it belongs to. -/
theorem Reached.trueOf_of_step (h : Reached cs (some c) s) (hs : s.step c next = .error f) :
    f.cause.TrueOf (s.lexeme.toList ++ [c]) next := by
  have hv := judge_holds next h.begun
  unfold Scan.step at hs
  cases hj : s.mode.judge c next with
  | skip m | keep m | emit kind => rw [hj] at hs; exact absurd hs nofun
  | refuse cause =>
    rw [hj] at hs hv
    obtain rfl := Except.error.inj hs
    exact Refused.trueOf hv
  | close shape =>
    rw [hj] at hs hv
    have hv : Ended shape (s.lexeme.toList ++ [c]) next := hv
    obtain ⟨cause, hk, rfl⟩ := close_eq_error hs
    obtain ⟨rfl, hn, rfl⟩ := kind_eq_error hk
    exact ⟨(String.toList_push ..).symm, Or.inr hv.1, hn, hv.2⟩

/-- At the end of the source the cause is true of the lexeme left. -/
theorem Reached.trueOf_of_finish (h : Reached cs none s) (hf : s.finish = .error f) :
    f.cause.TrueOf s.lexeme.toList none := by
  have hw := h.begun
  unfold Scan.finish at hf
  cases hm : s.mode with
  | start | comment => rw [hm] at hf; exact absurd hf nofun
  | string escaped =>
    rw [hm] at hf hw
    obtain rfl := Except.error.inj hf
    cases escaped with
    | false =>
      obtain ⟨body, hb, hw⟩ := hw
      exact ⟨⟨body, hb, Or.inl hw⟩, rfl⟩
    | true =>
      obtain ⟨_, _, _, _, _, hnone⟩ := hw
      exact absurd hnone nofun
  | within shape =>
    rw [hm] at hf hw
    obtain ⟨rfl, hlone⟩ := begun_within_none hw
    obtain ⟨cause, hk, rfl⟩ := close_eq_error hf
    obtain ⟨-, hn, rfl⟩ := kind_eq_error hk
    exact ⟨rfl, Or.inl hlone, hn, rfl⟩

/-- Outside comments, the scanner began the lexeme anew behind all that it had read before. -/
theorem Reached.exists_front (h : Reached cs next s) (hm : s.mode ≠ .comment) :
    ∃ front ts, cs = front ++ s.lexeme.toList ∧
      initial.read front (s.lexeme.toList.head?.or next) =
        .ok (between (Position.start.after front) ts) := by
  obtain ⟨body, g, rfl, hb, hg⟩ := h.parted
  rw [Trails, if_neg hm] at hg
  rw [List.head?_append, Option.or_assoc] at hb
  refine ⟨body ++ g, s.tokens.toList.toArray, (List.append_assoc _ _ _).symm, ?_⟩
  rw [read_initial_pieces hb, read_gap hg, ← Position.after_append]

/-- **The scanner stops for a cause that is true** of the segment it began last. -/
theorem Stops.trueOf {q rest : List Char} (h : Stops f q rest) :
    ∃ front w ts, q = front ++ w ∧
      initial.read front w.head? = .ok (between (Position.start.after front) ts) ∧
      f.cause.TrueOf w rest.head? := by
  cases h with
  | @refused q rest c t hread hstep =>
    have ht := reached_of_read hread
    -- A comment takes every character, so nothing is refused in one.
    have hm : t.mode ≠ .comment := by
      intro hm
      rw [step, hm] at hstep
      exact absurd hstep (by simp [Mode.judge])
    obtain ⟨front, ts, rfl, hfront⟩ := ht.exists_front hm
    refine ⟨front, t.lexeme.toList ++ [c], ts, List.append_assoc _ _ _, ?_, ht.trueOf_of_step hstep⟩
    rwa [List.head?_append]
  | @unfinished q t hread hfinish =>
    have ht := reached_of_read hread
    have hm : t.mode ≠ .comment := by
      intro hm
      rw [finish, hm] at hfinish
      exact absurd hfinish (by simp)
    obtain ⟨front, ts, rfl, hfront⟩ := ht.exists_front hm
    rw [Option.or_none] at hfront
    exact ⟨front, t.lexeme.toList, ts, rfl, hfront, ht.trueOf_of_finish hfinish⟩

end Reached

end Scan

/-! ## 4. Escapes that are none -/

/-- Behind whole lexemes and a gap a string begins, and in it `c` stands behind a backslash. -/
def BehindBackslash (c : Char) (cs : List Char) : Prop :=
  ∃ body g str rest ts, cs = body ++ (g ++ '"' :: (str ++ '\\' :: c :: rest)) ∧
    Pieces .start body (g ++ '"' :: (str ++ '\\' :: c :: rest)).head? ts ∧
    Gap g ∧ StringBody str

namespace Scan

variable {c : Char} {cs : List Char}

/-- The string that the cause speaks of begins behind the lexemes read before. -/
theorem behindBackslash_of_run {f : Fault} (h : run cs = .error f)
    (hc : f.cause = .invalidEscape c) : BehindBackslash c cs := by
  obtain ⟨q, rest, rfl, hstops⟩ := exists_stops h
  obtain ⟨front, w, ts, rfl, hfront, htrue⟩ := hstops.trueOf
  rw [hc] at htrue
  obtain ⟨⟨str, hstr, rfl⟩, hrest, -⟩ := htrue
  obtain ⟨rest, rfl⟩ := List.head?_eq_some_iff.mp hrest
  obtain ⟨body, g, hparts, hpieces, hgap⟩ := (reached_of_read hfront).parted
  -- Between two tokens no lexeme is begun.
  have hnone : (between (Position.start.after front) ts).lexeme.toList = [] := rfl
  rw [hnone, List.append_nil] at hparts hpieces
  have hcs : front ++ '"' :: (str ++ ['\\']) ++ c :: rest =
      body ++ (g ++ '"' :: (str ++ '\\' :: c :: rest)) := by
    rw [hparts]
    simp
  refine ⟨body, g, str, rest, ts.toList, hcs, ?_, hgap, hstr⟩
  rwa [List.head?_append]

/-- **A string escapes a character that it may not**, and everything in front of the string is in
order: these are the sources that are refused for this cause. -/
theorem run_eq_invalidEscape_iff (hc : c ∉ escapes) :
    (∃ p, run cs = .error ⟨.invalidEscape c, p⟩) ↔ BehindBackslash c cs := by
  constructor
  · rintro ⟨p, h⟩
    exact behindBackslash_of_run h rfl
  · rintro ⟨body, g, str, rest, ts, rfl, hpieces, hgap, hstr⟩
    have hj : (Mode.string false).judge '\\' (some c) = .refuse (.invalidEscape c) := by
      simp [Mode.judge, judgeString, hc]
    refine ⟨(((Position.start.after (body ++ g)).advance '"').after str).advance '\\', ?_⟩
    rw [run_of_pieces hpieces, read_append_of_ok (read_gap hgap _), read_quote,
      read_append_of_ok (read_body hstr _ _), ← Position.after_append]
    simp only [read, step, List.head?_cons, Option.some_or, hj]
    rfl

end Scan

end Token

/-! ## 5. Reports -/

/-- **Reports on characters are true.**  The place of a report is the end of one prefix of the source,
and what the cause claims holds of the segment at its end, which the scanner begins anew, and of the
character behind it. -/
theorem tokenize_error_trueOf {source : String} {e : Token.Error}
    (hm : source.toList.head? ≠ some '\uFEFF') (h : tokenize source = .error e) :
    ∃ q rest, source.toList = q ++ rest ∧ e.position = Position.start.after q ∧
      (∀ q', q' <+: source.toList → e.position = Position.start.after q' → q' = q) ∧
      ∃ front w ts, q = front ++ w ∧
        Token.Scan.initial.read front w.head? =
          .ok (Token.Scan.between (Position.start.after front) ts) ∧
        e.cause.TrueOf w rest.head? := by
  rw [tokenize_eq_run hm] at h
  obtain ⟨f, hrun, rfl⟩ := mapError_eq_error_iff.mp h
  obtain ⟨q, rest, hsource, hstops⟩ := Token.Scan.exists_stops hrun
  have hplace := hstops.position
  refine ⟨q, rest, hsource, hplace, ?_, hstops.trueOf⟩
  intro q' hq' hplace'
  have hq : q <+: source.toList := ⟨rest, hsource.symm⟩
  exact Position.after_inj_of_prefix hq' hq (hplace'.symm.trans hplace)

/-- An escape that is none, in a string behind a comment, on a line that is not the first. -/
theorem tokenize_error_trueOf_escape :
    "(a ;b\r\n \"\\n\\q\")".toList.head? ≠ some '\uFEFF' ∧
      tokenize "(a ;b\r\n \"\\n\\q\")" = .error ⟨.invalidEscape 'q', ⟨2, 5⟩, " \"\\n\\q\")"⟩ ∧
      ∃ q rest, "(a ;b\r\n \"\\n\\q\")".toList = q ++ rest ∧
        (⟨2, 5⟩ : Position) = Position.start.after q ∧
        (∀ q', q' <+: "(a ;b\r\n \"\\n\\q\")".toList →
          (⟨2, 5⟩ : Position) = Position.start.after q' → q' = q) ∧
        ∃ front w ts, q = front ++ w ∧
          Token.Scan.initial.read front w.head? =
            .ok (Token.Scan.between (Position.start.after front) ts) ∧
          (Token.Cause.invalidEscape 'q').TrueOf w rest.head? := by
  have hm : "(a ;b\r\n \"\\n\\q\")".toList.head? ≠ some '\uFEFF' := by decide
  have he : tokenize "(a ;b\r\n \"\\n\\q\")" =
      .error ⟨.invalidEscape 'q', ⟨2, 5⟩, " \"\\n\\q\")"⟩ := by rfl
  exact ⟨hm, he, tokenize_error_trueOf hm he⟩

end Sexpr
