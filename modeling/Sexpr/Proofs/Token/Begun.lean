/-
# What the scanner is in the middle of

Between two characters the scanner holds a mode and the lexeme read so far.  This module says which
lexemes can stand in which mode before which next character (`Begun`), and proves that this is kept
by every step: **the decision is sound** (`judge_holds`).  One statement covers the whole decision:
what is kept is a lexeme begun, what is emitted is a lexeme of its kind, what is closed has its
shape and may end there, and what is refused shows its cause.

`Reached` adds what lies behind the lexeme: the characters read are pieces, then a gap, then the
lexeme begun, and the place is the one reached by reading them.  So a run that succeeds has cut its
source according to the grammar (`run_cut`).
-/
import Sexpr.Proofs.Token.Grammar

namespace Sexpr.Token.Scan

/-! ## 1. Lexemes begun, ended and refused -/

/-- A backslash, a character that can be seen, and letters: what a character literal is read as
before it is known to be one. -/
def IsSpelled (cs : List Char) : Prop :=
  ∃ c letters, cs = '\\' :: c :: letters ∧ isBlank c = false ∧ ∀ d ∈ letters, d.isAlpha = true

/-- A lexeme begun in this mode that is not complete before `next`. -/
def Begun : Mode → (lexeme : List Char) → (next : Option Char) → Prop
  | .start, w, _ | .comment, w, _ => w = []
  | .string false, w, _ => ∃ body, StringBody body ∧ w = '"' :: body
  | .string true, w, next =>
    ∃ body d, StringBody body ∧ w = '"' :: (body ++ ['\\']) ∧ d ∈ escapes ∧ next = some d
  | .within .identifier, w, next => IsWord w ∧ next.any isWordChar = true
  | .within .int, w, next =>
    IsInt w ∧ (digitNext next = true ∨ next = some '.') ∨ w = [negation] ∧ digitNext next = true
  | .within .float, w, next => (IsFloat w ∨ w = ['.']) ∧ digitNext next = true
  | .within .character, w, next =>
    w = ['\\'] ∧ next.bind Blank.ofChar? = none ∨ IsSpelled w ∧ next.any Char.isAlpha = true

/-- A lexeme of this shape that ends before `next`. -/
def Ended : Shape → (lexeme : List Char) → (next : Option Char) → Prop
  | .identifier, w, next => IsWord w ∧ Free next
  | .int, w, next => IsInt w ∧ Free next
  | .float, w, next => IsFloat w ∧ Free next
  | .character, w, next => IsSpelled w ∧ next.any Char.isAlpha = false

/-- What a refusal shows: the lexeme, the character at fault included, and the next character. -/
def Refused : Cause → (lexeme : List Char) → (next : Option Char) → Prop
  | .unexpected c, w, next =>
    w = [c] ∧ Kind.ofChar? c = none ∧ c ∉ [';', '"', '\\'] ∧ isWordChar c = false ∧
      isBlank c = false ∧ (c = negation ∨ c = '.' → digitNext next = false)
  | .blankLiteral b, w, next => w = ['\\'] ∧ next.bind Blank.ofChar? = some b
  | .invalidEscape c, w, next =>
    ∃ body, StringBody body ∧ w = '"' :: (body ++ ['\\']) ∧ next = some c ∧ c ∉ escapes
  | .invalidCharacter _, _, _ => False
  | .pointAfterIdentifier, w, next => IsWord w ∧ next = some '.'
  | .identifierAfterInt, w, next =>
    IsInt w ∧ next.any isWordChar = true ∧ digitNext next = false
  | .identifierAfterFloat, w, next =>
    IsFloat w ∧ next.any isWordChar = true ∧ digitNext next = false
  | .secondPoint, w, next => IsFloat w ∧ next = some '.'
  | .unclosedString, w, next => ∃ body, StringBody body ∧ w = '"' :: (body ++ ['\\']) ∧ next = none

/-- A character that belongs to no token takes the scanner from one mode to another. -/
def Passes : Mode → (c : Char) → Mode → Prop
  | .start, c, m => isBlank c = true ∧ m = .start ∨ c = ';' ∧ m = .comment
  | .comment, c, m => m = if c = '\n' then .start else .comment
  | _, _, _ => False

/-- What a verdict on `c` says of the lexeme `w` that ends in `c`. -/
def Verdict.Holds (mode : Mode) (c : Char) (w : List Char) (next : Option Char) : Verdict → Prop
  | skip m => Passes mode c m
  | keep m => Begun m w next
  | emit kind => Lexeme kind w next
  | close shape => Ended shape w next
  | refuse cause => Refused cause w next

/-! ## 2. The decision is sound -/

section Judge

variable {mode : Mode} {c : Char} {w : List Char} (next : Option Char)

theorem follow_identifier (h : IsWord w) :
    (Shape.identifier.follow next).Holds mode c w next := by
  cases next with
  | none => exact ⟨h, free_none⟩
  | some d =>
    simp only [Shape.follow]
    split
    · next hd => exact ⟨h, by rw [hd]⟩
    · next hd =>
      split
      · next hw => exact ⟨h, hw⟩
      · next hw => exact ⟨h, free_some.mpr ⟨by simpa using hw, hd⟩⟩

theorem follow_int (h : IsInt w) : (Shape.int.follow next).Holds mode c w next := by
  cases next with
  | none => exact ⟨h, free_none⟩
  | some d =>
    simp only [Shape.follow]
    split
    · next hd =>
      refine Or.inl ⟨h, ?_⟩
      simpa [digitNext] using hd
    · next hd =>
      simp only [Bool.or_eq_true, decide_eq_true_eq, not_or, Bool.not_eq_true] at hd
      split
      · next hw => exact ⟨h, hw, hd.1⟩
      · next hw => exact ⟨h, free_some.mpr ⟨by simpa using hw, hd.2⟩⟩

theorem follow_float (h : IsFloat w) : (Shape.float.follow next).Holds mode c w next := by
  cases next with
  | none => exact ⟨h, free_none⟩
  | some d =>
    simp only [Shape.follow]
    split
    · next hp => exact ⟨h, by rw [hp]⟩
    · next hp =>
      split
      · next hd => exact ⟨Or.inl h, hd⟩
      · next hd =>
        split
        · next hw => exact ⟨h, hw, by simpa [digitNext] using hd⟩
        · next hw => exact ⟨h, free_some.mpr ⟨by simpa using hw, hp⟩⟩

theorem follow_character (h : IsSpelled w) :
    (Shape.character.follow next).Holds mode c w next := by
  cases next with
  | none => exact ⟨h, rfl⟩
  | some d =>
    simp only [Shape.follow]
    split
    · next hd => exact Or.inr ⟨h, hd⟩
    · next hd => exact ⟨h, by simpa using hd⟩

end Judge

/-- A sign before a digit begins an integer literal. -/
theorem follow_int_of_digitNext {next : Option Char} (h : digitNext next = true) :
    Shape.int.follow next = .keep (.within .int) := by
  cases next with
  | none => exact absurd h (by decide)
  | some d =>
    have hd : d.isDigit = true := h
    simp [Shape.follow, hd]

theorem isWordStart_of_isWordChar {c : Char} (hw : isWordChar c = true)
    (hd : ¬ c.isDigit = true) : isWordStart c = true := by
  simp only [isWordChar, Char.isAlphanum, Bool.or_eq_true] at hw
  rcases hw with (hw | hw) | hw
  · simp [isWordStart, hw]
  · exact absurd hw hd
  · simp only [isWordStart, hw, Bool.or_true]

/-- Between tokens, where the lexeme is the character itself. -/
theorem judgeStart_holds (c : Char) (next : Option Char) :
    (judgeStart c next).Holds .start c [c] next := by
  unfold judgeStart
  split
  · next kind hk => exact Lexeme.single hk
  next hk =>
  split
  · next hc => exact Or.inr ⟨hc, rfl⟩
  next hsemi =>
  split
  · next hc => exact ⟨[], StringBody.nil, by rw [hc]⟩
  next hquote =>
  split
  · next hc =>
    split
    · next b hb => exact ⟨by rw [hc], hb⟩
    · next hb => exact Or.inl ⟨by rw [hc], hb⟩
  next hback =>
  split
  · next hd =>
    simp only [Bool.or_eq_true, Bool.and_eq_true, decide_eq_true_eq] at hd
    rcases hd with hd | ⟨rfl, hd⟩
    · exact follow_int next ⟨[], [c], rfl, Or.inl rfl, by simpa [IsDigits] using hd⟩
    · rw [follow_int_of_digitNext hd]
      exact Or.inr ⟨rfl, hd⟩
  next hdigit =>
  split
  · next hp =>
    simp only [Bool.and_eq_true, decide_eq_true_eq] at hp
    exact ⟨Or.inr (by rw [hp.1]), hp.2⟩
  next hpoint =>
  simp only [Bool.or_eq_true, Bool.and_eq_true, decide_eq_true_eq, not_or, not_and,
    Bool.not_eq_true] at hdigit hpoint
  split
  · next hw =>
    exact follow_identifier next ⟨c, [], rfl, isWordStart_of_isWordChar hw (by simp [hdigit.1]),
      nofun⟩
  next hw =>
  split
  · next hb => exact Or.inl ⟨hb, rfl⟩
  · next hb =>
    refine ⟨rfl, hk, by simp [hsemi, hquote, hback], by simpa using hw, by simpa using hb, ?_⟩
    rintro (h | h)
    · exact hdigit.2 h
    · exact hpoint h

/-- In a string, behind the characters `w` that it began with. -/
theorem judgeString_holds {escaped : Bool} {c : Char} {w : List Char} (next : Option Char)
    (h : Begun (.string escaped) w (some c)) :
    (judgeString escaped c next).Holds (.string escaped) c (w ++ [c]) next := by
  cases escaped with
  | true =>
    obtain ⟨body, d, hb, rfl, hd, hn⟩ := h
    obtain rfl := Option.some.inj hn
    exact ⟨body ++ ['\\', c], hb.append (StringBody.escape hd StringBody.nil), by simp⟩
  | false =>
    obtain ⟨body, hb, rfl⟩ := h
    simp only [judgeString, Bool.false_eq_true, if_false]
    split
    · next hc => exact Lexeme.string ⟨body, hb, by rw [hc, List.cons_append]⟩
    next hquote =>
    split
    · next hc =>
      subst hc
      cases next with
      | none => exact ⟨body, hb, rfl, rfl⟩
      | some d =>
        simp only
        split
        · next hd => exact ⟨body, d, hb, rfl, hd, rfl⟩
        · next hd => exact ⟨body, hb, rfl, rfl, hd⟩
    · next hback =>
      exact ⟨body ++ [c], hb.append (StringBody.plain hquote hback StringBody.nil),
        List.cons_append⟩

/-- A point after a sign or in an integer literal makes a floating-point literal of it. -/
theorem isFloat_of_isInt_push_point {w : List Char} (h : IsInt w) : IsFloat (w ++ ['.']) :=
  Or.inl ⟨w, [], rfl, h, nofun⟩

/-- In a lexeme that ends where the next character cannot go on with it. -/
theorem within_holds {shape : Shape} {c : Char} {w : List Char} (next : Option Char)
    (h : Begun (.within shape) w (some c)) :
    (shape.judge c next).Holds (.within shape) c (w ++ [c]) next := by
  cases shape with
  | identifier =>
    obtain ⟨hw, hc⟩ := h
    exact follow_identifier next (hw.push hc)
  | int =>
    rcases h with ⟨hw, hc | hc⟩ | ⟨rfl, hc⟩
    · have hp : c ≠ '.' := by rintro rfl; exact absurd hc (by decide)
      rw [Shape.judge, if_neg (by simp [hp])]
      exact follow_int next (hw.push hc)
    · obtain rfl := Option.some.inj hc
      exact follow_float next (isFloat_of_isInt_push_point hw)
    · have hp : c ≠ '.' := by rintro rfl; exact absurd hc (by decide)
      have hd : c.isDigit = true := hc
      rw [Shape.judge, if_neg (by simp [hp])]
      exact follow_int next ⟨[negation], [c], rfl, Or.inr rfl, by simpa [IsDigits] using hd⟩
  | float =>
    obtain ⟨hw | rfl, hc⟩ := h
    · exact follow_float next (hw.push hc)
    · have hd : c.isDigit = true := hc
      exact follow_float next (Or.inr ⟨[c], rfl, by simpa [IsDigits] using hd⟩)
  | character =>
    rcases h with ⟨rfl, hc⟩ | ⟨⟨d, letters, rfl, hd, hl⟩, hc⟩
    · exact follow_character next ⟨c, [], rfl, by simpa [isBlank] using hc, nofun⟩
    · refine follow_character next ⟨d, letters ++ [c], rfl, hd, fun e he => ?_⟩
      rcases List.mem_append.mp he with he | he
      · exact hl e he
      · rw [List.mem_singleton.mp he]; exact hc

/-- **The decision is sound** in every mode. -/
theorem judge_holds {mode : Mode} {c : Char} {w : List Char} (next : Option Char)
    (h : Begun mode w (some c)) : (mode.judge c next).Holds mode c (w ++ [c]) next := by
  cases mode with
  | start =>
    obtain rfl : w = [] := h
    exact judgeStart_holds c next
  | comment => rfl
  | string escaped => exact judgeString_holds next h
  | within shape => exact within_holds next h

/-! ## 3. What a run keeps -/

/-- The gap read last is open exactly inside a comment. -/
def Trails (mode : Mode) (g : List Char) : Prop :=
  if mode = .comment then OpenComment g else Gap g

/-- The scanner after reading `cs`, with `ahead` in sight. -/
structure Reached (cs : List Char) (ahead : Option Char) (s : Scan) : Prop where
  position : s.position = Position.start.after cs
  begun : Begun s.mode s.lexeme.toList ahead
  parted : ∃ body g, cs = body ++ (g ++ s.lexeme.toList) ∧
    Pieces .start body ((g ++ s.lexeme.toList).head?.or ahead) s.tokens.toList ∧ Trails s.mode g

theorem reached_initial (ahead : Option Char) : Reached [] ahead initial :=
  ⟨rfl, rfl, [], [], rfl, Pieces.nil, Gap.nil⟩

/-- The character read next was the one in sight. -/
theorem head?_push_or (g : List Char) (c : Char) (next : Option Char) :
    (g ++ [c]).head?.or next = g.head?.or (some c) := by
  cases g <;> rfl

theorem Passes.trails {mode m : Mode} {c : Char} {g : List Char} (h : Passes mode c m)
    (hg : Trails mode g) : Trails m (g ++ [c]) := by
  cases mode with
  | start =>
    have hg : Gap g := hg
    rcases h with ⟨hc, rfl⟩ | ⟨rfl, rfl⟩
    · exact hg.append (Gap.blank hc Gap.nil)
    · exact ⟨g, [], hg, nofun, rfl⟩
  | comment =>
    have hg : OpenComment g := hg
    obtain rfl : m = if c = '\n' then .start else .comment := h
    by_cases hc : c = '\n'
    · rw [if_pos hc, hc]
      exact hg.close
    · rw [if_neg hc]
      exact hg.push hc
  | string escaped => exact h.elim
  | within shape => exact h.elim

/-- Nothing is begun where a character passes, before it or behind it. -/
theorem Passes.begun {mode m : Mode} {c : Char} {w : List Char} (next : Option Char)
    (h : Passes mode c m) (hw : Begun mode w (some c)) : w = [] ∧ Begun m w next := by
  cases mode with
  | start =>
    obtain rfl : w = [] := hw
    rcases h with ⟨-, rfl⟩ | ⟨-, rfl⟩ <;> exact ⟨rfl, rfl⟩
  | comment =>
    obtain rfl : w = [] := hw
    obtain rfl : m = if c = '\n' then .start else .comment := h
    split <;> exact ⟨rfl, rfl⟩
  | string escaped => exact h.elim
  | within shape => exact h.elim

/-- A comment only passes characters. -/
theorem mode_ne_comment {mode : Mode} {c : Char} {next : Option Char} {v : Verdict}
    (hj : mode.judge c next = v) (hv : ∀ m, v ≠ .skip m) : mode ≠ .comment := by
  rintro rfl
  exact hv _ hj.symm

/-- A lexeme that has ended is one of the kind it is given. -/
theorem Ended.lexeme {shape : Shape} {w : List Char} {next : Option Char} {kind : Kind}
    (h : Ended shape w next) (hk : shape.kind (String.ofList w) = .ok kind) :
    Lexeme kind w next := by
  cases shape with
  | identifier =>
    obtain rfl := Except.ok.inj hk
    exact Lexeme.word h.1 h.2
  | int =>
    obtain rfl := Except.ok.inj hk
    exact Lexeme.int h.1 h.2
  | float =>
    obtain rfl := Except.ok.inj hk
    exact Lexeme.float h.1 h.2
  | character =>
    obtain ⟨⟨c, letters, rfl, hc, -⟩, hn⟩ := h
    simp only [Shape.kind, String.length_ofList] at hk
    split at hk
    · next hv =>
      obtain rfl := Except.ok.inj hk
      refine Lexeme.character ?_ (by simpa [Option.any_eq_false] using hn)
      rcases hv with hv | hv
      · obtain rfl : letters = [] := by simpa using hv
        exact Or.inl ⟨c, hc, rfl⟩
      · obtain ⟨b, hb⟩ := mem_namedCharacters.mp hv
        exact Or.inr ⟨b, by rw [hb, String.toList_ofList]⟩
    · exact absurd hk (by simp)

theorem push_eq_ofList (text : String) (c : Char) :
    text.push c = String.ofList (text.toList ++ [c]) := by
  rw [← String.toList_inj, String.toList_push, String.toList_ofList]

section Step

variable {cs : List Char} {c : Char} {next : Option Char} {s t : Scan}

/-- The character completes a token. -/
theorem Reached.emit (h : Reached cs (some c) s) (hm : s.mode ≠ .comment) {kind : Kind}
    (hw : Lexeme kind (s.lexeme.toList ++ [c]) next) :
    Reached (cs ++ [c]) next
      (({ s with lexeme := s.lexeme.push c, position := s.position.advance c } : Scan).emit
        kind) := by
  obtain ⟨body, g, rfl, hb, hg⟩ := h.parted
  rw [Trails, if_neg hm] at hg
  have hread : body ++ (g ++ s.lexeme.toList) ++ [c] =
      body ++ (g ++ (s.lexeme.toList ++ [c])) := by simp
  have hplace : s.position.advance c =
      Position.start.after (body ++ (g ++ (s.lexeme.toList ++ [c]))) := by
    rw [h.position, ← hread, Position.after_append _ _ [c], Position.after_cons,
      Position.after_nil]
  have hb : Pieces .start body ((g ++ (s.lexeme.toList ++ [c])).head?.or next) s.tokens.toList := by
    rwa [← List.append_assoc, head?_push_or]
  have hone := hb.snoc hg hw
  rw [← hplace, ← push_eq_ofList] at hone
  rw [hread]
  exact ⟨hplace, rfl, _, [], (List.append_nil _).symm, by simpa [Scan.emit] using hone, Gap.nil⟩

/-- **One step** keeps what is known of the characters read. -/
theorem Reached.step (h : Reached cs (some c) s) (hs : s.step c next = .ok t) :
    Reached (cs ++ [c]) next t := by
  have hv := judge_holds next h.begun
  unfold Scan.step at hs
  cases hj : s.mode.judge c next with
  | skip m =>
    rw [hj] at hs hv
    obtain rfl := Except.ok.inj hs
    obtain ⟨hw, hw'⟩ := Passes.begun next hv h.begun
    obtain ⟨body, g, rfl, hb, hg⟩ := h.parted
    refine ⟨by simp [h.position], hw', body, g ++ [c], by simp [hw], ?_, Passes.trails hv hg⟩
    rw [hw, List.append_nil] at hb ⊢
    rwa [head?_push_or]
  | keep m =>
    rw [hj] at hs hv
    obtain rfl := Except.ok.inj hs
    have hm := mode_ne_comment hj nofun
    obtain ⟨body, g, rfl, hb, hg⟩ := h.parted
    have hv : Begun m (s.lexeme.toList ++ [c]) next := hv
    refine ⟨by simp [h.position], by simpa using hv, body, g, by simp, ?_, ?_⟩
    · simpa [← List.append_assoc, head?_push_or] using hb
    · rw [Trails, if_neg hm] at hg
      rw [Trails, if_neg]
      · exact hg
      · rintro rfl
        have hv : s.lexeme.toList ++ [c] = [] := hv
        exact absurd hv (by simp)
  | emit kind =>
    rw [hj] at hs hv
    obtain rfl := Except.ok.inj hs
    exact h.emit (mode_ne_comment hj nofun) hv
  | close shape =>
    rw [hj] at hs hv
    have hv : Ended shape (s.lexeme.toList ++ [c]) next := hv
    simp only [Scan.close] at hs
    split at hs
    · next kind hk =>
      obtain rfl := Except.ok.inj hs
      rw [push_eq_ofList] at hk
      exact h.emit (mode_ne_comment hj nofun) (hv.lexeme hk)
    · exact absurd hs (by simp)
  | refuse cause =>
    rw [hj] at hs
    exact absurd hs (by simp)

end Step

/-- **A run** keeps it. -/
theorem Reached.read {ahead : Option Char} : ∀ (ds cs : List Char) (s t : Scan),
    Reached cs (ds.head?.or ahead) s → s.read ds ahead = .ok t → Reached (cs ++ ds) ahead t
  | [], cs, s, t, h, hr => by
    obtain rfl := Except.ok.inj hr
    simpa using h
  | d :: ds, cs, s, t, h, hr => by
    simp only [Scan.read] at hr
    cases hs : s.step d (ds.head?.or ahead) with
    | error fault => rw [hs] at hr; exact absurd hr (by simp)
    | ok u =>
      rw [hs] at hr
      have hu := Reached.read ds (cs ++ [d]) u t (h.step hs) hr
      rwa [List.append_assoc, List.singleton_append] at hu

/-- A run from the beginning of a source. -/
theorem reached_of_read {cs : List Char} {ahead : Option Char} {s : Scan}
    (h : initial.read cs ahead = .ok s) : Reached cs ahead s :=
  Reached.read cs [] initial s (reached_initial _) h

/-! ## 4. The end of the source -/

/-- At the end of the source only a lone backslash is still waiting for a character. -/
theorem begun_within_none {shape : Shape} {w : List Char} (h : Begun (.within shape) w none) :
    shape = .character ∧ w = ['\\'] := by
  cases shape with
  | identifier => exact absurd h.2 (by simp)
  | int =>
    rcases h with ⟨-, h | h⟩ | ⟨-, h⟩
    · exact absurd h (by decide)
    · exact absurd h (by simp)
    · exact absurd h (by decide)
  | float => exact absurd h.2 (by decide)
  | character =>
    rcases h with ⟨h, -⟩ | ⟨-, h⟩
    · exact ⟨rfl, h⟩
    · exact absurd h (by simp)

/-- A scan that may end has cut what it read. -/
theorem Reached.cut {cs : List Char} {s t : Scan} (h : Reached cs none s)
    (hf : s.finish = .ok t) : Cut .start cs t.tokens.toList := by
  obtain ⟨body, g, rfl, hb, hg⟩ := h.parted
  have hw := h.begun
  unfold Scan.finish at hf
  cases hm : s.mode with
  | start =>
    rw [hm] at hf hw hg
    obtain rfl := Except.ok.inj hf
    have hw : s.lexeme.toList = [] := hw
    rw [hw, List.append_nil, Option.or_none] at hb
    exact ⟨body, g, by rw [hw, List.append_nil], hb, Or.inl hg⟩
  | comment =>
    rw [hm] at hf hw hg
    obtain rfl := Except.ok.inj hf
    have hw : s.lexeme.toList = [] := hw
    rw [hw, List.append_nil, Option.or_none] at hb
    exact ⟨body, g, by rw [hw, List.append_nil], hb, Or.inr hg⟩
  | string escaped => rw [hm] at hf; exact absurd hf (by simp)
  | within shape =>
    rw [hm] at hf hw
    obtain ⟨rfl, hlone⟩ := begun_within_none hw
    have htext : s.lexeme = "\\" := by rw [← String.toList_inj, hlone]; rfl
    have hk : Shape.character.kind s.lexeme = .error (.invalidCharacter "\\") := by
      rw [htext, Shape.kind, if_neg (by decide)]
    simp only [Scan.close, hk] at hf
    exact absurd hf (by simp)

/-- **A run that succeeds has cut its source.** -/
theorem run_cut {cs : List Char} {ts : List Token} (h : run cs = .ok ts) : Cut .start cs ts := by
  unfold run at h
  cases hr : initial.read cs none with
  | error fault => rw [hr] at h; exact absurd h (by simp)
  | ok s =>
    rw [hr] at h
    have hs := reached_of_read hr
    cases hf : s.finish with
    | error fault => simp only [hf, Except.map] at h; exact absurd h (by simp)
    | ok t =>
      simp only [hf, Except.map] at h
      obtain rfl := Except.ok.inj h
      exact hs.cut hf

end Sexpr.Token.Scan
