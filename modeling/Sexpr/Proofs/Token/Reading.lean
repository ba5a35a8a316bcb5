/-
# Reading what the grammar allows

The other direction of `Begun`: the scanner reads every lexeme and every gap of the grammar to its
end and is between tokens again.  Together they say that **the scanner accepts exactly the
grammar** and returns exactly the tokens of it (`run_eq_ok_iff`).

The lexemes that end by their next character are all read the same way, whatever their shape: every
character but the last is kept, because the one behind it belongs to the lexeme, and the last one
closes it (`read_within`).  A floating-point literal changes its shape at the point, so its digits
before the point are kept to the end and the point is read as the first character of the rest.
-/
import Sexpr.Proofs.Token.Begun

namespace Sexpr

namespace Token.Scan

/-- The scanner between two tokens. -/
def between (p : Position) (ts : Array Token) : Scan := ⟨.start, "", p, ts⟩

/-! ## 1. The first character -/

/-- A character of identifiers is nothing else. -/
theorem ofChar?_of_isWordChar {c : Char} (h : isWordChar c = true) : Kind.ofChar? c = none := by
  rw [Option.eq_none_iff_forall_ne_some]
  intro kind hkind
  rcases Kind.ofChar?_cases hkind with ⟨b, rfl, -⟩ | ⟨b, rfl, -⟩ | ⟨rfl, -⟩ | ⟨m, rfl, -⟩
  · cases b <;> exact absurd h (by decide)
  · cases b <;> exact absurd h (by decide)
  · exact absurd h (by decide)
  · cases m <;> exact absurd h (by decide)

theorem judgeStart_of_isWordChar {c : Char} (next : Option Char) (h : isWordChar c = true) :
    judgeStart c next =
      if c.isDigit then Shape.int.follow next else Shape.identifier.follow next := by
  have hsemi : c ≠ ';' := by rintro rfl; exact absurd h (by decide)
  have hquote : c ≠ '"' := by rintro rfl; exact absurd h (by decide)
  have hback : c ≠ '\\' := by rintro rfl; exact absurd h (by decide)
  have hsign : c ≠ negation := by rintro rfl; exact absurd h (by decide)
  have hpoint : c ≠ '.' := by rintro rfl; exact absurd h (by decide)
  simp [judgeStart, ofChar?_of_isWordChar h, hsemi, hquote, hback, hsign, hpoint, h]

theorem isWordChar_of_isDigit {c : Char} (h : c.isDigit = true) : isWordChar c = true :=
  isWordChar_iff.mpr (Or.inr (Or.inl h))

theorem isWordChar_of_isWordStart {c : Char} (h : isWordStart c = true) :
    isWordChar c = true := by
  simp only [isWordStart, Bool.or_eq_true] at h
  rcases h with h | h
  · exact isWordChar_iff.mpr (Or.inl h)
  · simp only [isWordChar, h, Bool.or_true]

/-- The code points of letters lie behind those of digits. -/
theorem not_isDigit_of_isAlpha {c : Char} (h : c.isAlpha = true) : ¬ c.isDigit = true := by
  intro hd
  have halpha : (decide (65 ≤ c.val ∧ c.val ≤ 90) ||
      (decide (97 ≤ c.val) && decide (c.val ≤ 122))) = true := h
  have hdigit : c.toNat ≤ 57 := (Char.isDigit_iff_toNat.mp hd).2
  have hval : c.val.toNat = c.toNat := rfl
  have hA : (65 : UInt32).toNat = 65 := rfl
  have ha : (97 : UInt32).toNat = 97 := rfl
  simp only [Bool.or_eq_true, Bool.and_eq_true, decide_eq_true_eq,
    UInt32.le_iff_toNat_le] at halpha
  omega

theorem not_isDigit_of_isWordStart {c : Char} (h : isWordStart c = true) :
    ¬ c.isDigit = true := by
  intro hd
  simp only [isWordStart, Bool.or_eq_true] at h
  rcases h with h | h
  · exact not_isDigit_of_isAlpha h hd
  · simp only [symbols, List.contains_iff_mem, List.mem_cons, List.not_mem_nil, or_false] at h
    rcases h with rfl | rfl | rfl | rfl | rfl | rfl | rfl | rfl | rfl | rfl <;>
      exact absurd hd (by decide)

/-- A blank between tokens is passed over. -/
theorem judgeStart_of_isBlank {c : Char} (next : Option Char) (h : isBlank c = true) :
    judgeStart c next = .skip .start := by
  rw [isBlank_iff] at h
  simp only [Char.isWhitespace, Bool.or_eq_true, decide_eq_true_eq] at h
  rcases h with ((rfl | rfl) | rfl) | rfl <;> rfl

/-! ## 2. Lexemes that end by their next character -/

section Read

variable {p : Position} {w : String} {ts : Array Token} {ahead : Option Char}

/-- A word or a number is complete before a character that is free. -/
theorem follow_of_free {shape : Shape} (hs : shape ≠ .character) (h : Free ahead) :
    shape.follow ahead = .close shape := by
  cases ahead with
  | none => cases shape <;> rfl
  | some d =>
    obtain ⟨hw, hp⟩ := free_some.mp h
    have hd : ¬ d.isDigit = true := by
      intro hd
      exact absurd (isWordChar_of_isDigit hd) (by simp [hw])
    cases shape with
    | identifier => simp [Shape.follow, hw, hp]
    | int => simp [Shape.follow, hw, hp, hd]
    | float => simp [Shape.follow, hw, hp, hd]
    | character => exact absurd rfl hs

theorem push_append_ofList (w : String) (c : Char) (cs : List Char) :
    w.push c ++ String.ofList cs = w ++ String.ofList (c :: cs) := by
  rw [← String.toList_inj]
  simp

theorem read_singleton (s : Scan) (c : Char) (ahead : Option Char) :
    s.read [c] ahead = s.step c ahead := by
  simp only [read, List.head?_nil, Option.none_or]
  cases s.step c ahead <;> rfl

/-- Reading in two pieces, the first of which succeeds. -/
theorem read_append_of_ok {s t : Scan} {cs ds : List Char}
    (h : s.read cs (ds.head?.or ahead) = .ok t) : s.read (cs ++ ds) ahead = t.read ds ahead := by
  rw [read_append, h]
  rfl

/-- A character kept in the lexeme. -/
theorem read_cons_keep {m m' : Mode} {c : Char} {cs : List Char}
    (h : m.judge c (cs.head?.or ahead) = .keep m') :
    (⟨m, w, p, ts⟩ : Scan).read (c :: cs) ahead =
      (⟨m', w.push c, p.advance c, ts⟩ : Scan).read cs ahead := by
  simp only [read, step, h]

/-- The mode matters to the next step through the decision alone, so the first character of a
lexeme may be read as one in its middle where both are judged alike. -/
theorem read_cons_congr {m m' : Mode} {c : Char} {cs : List Char}
    (h : m.judge c (cs.head?.or ahead) = m'.judge c (cs.head?.or ahead)) :
    (⟨m, w, p, ts⟩ : Scan).read (c :: cs) ahead =
      (⟨m', w, p, ts⟩ : Scan).read (c :: cs) ahead := by
  simp only [read, step, h]
  cases m'.judge c (cs.head?.or ahead) <;> rfl

/-- **Reading in the middle of a lexeme** that goes on with every character of `cs` behind the
first; `last` is what its last character does. -/
theorem read_within {shape : Shape} (last : Scan → Except Fault Scan)
    (hlast : ∀ (c : Char) (w : String) (p : Position), (shape = .int → c ≠ '.') →
      (⟨.within shape, w, p, ts⟩ : Scan).step c ahead =
        last ⟨.within shape, w.push c, p.advance c, ts⟩) :
    ∀ (cs : List Char) (c : Char) (w : String) (p : Position),
      (shape = .int → '.' ∉ c :: cs) →
      (∀ d ∈ cs, shape.follow (some d) = .keep (.within shape)) →
      (⟨.within shape, w, p, ts⟩ : Scan).read (c :: cs) ahead =
        last ⟨.within shape, w ++ String.ofList (c :: cs), p.after (c :: cs), ts⟩
  | [], c, w, p, hp, _ => by
    have hc : shape = .int → c ≠ '.' := fun h e => hp h (by simp [e])
    rw [read_singleton, hlast c w p hc, ← push_append_ofList, String.ofList_nil,
      String.append_empty, Position.after_cons, Position.after_nil]
  | d :: cs, c, w, p, hp, hk => by
    have hc : shape = .int → c ≠ '.' := fun h e => hp h (by simp [e])
    have hj : (Mode.within shape).judge c (some d) = .keep (.within shape) := by
      rw [Mode.judge, Shape.judge, if_neg (fun h => hc h.1 h.2)]
      exact hk d List.mem_cons_self
    have hp' : shape = .int → '.' ∉ d :: cs := by
      intro h hmem
      exact hp h (List.mem_cons_of_mem _ hmem)
    have hk' : ∀ e ∈ cs, shape.follow (some e) = .keep (.within shape) := by
      intro e he
      exact hk e (List.mem_cons_of_mem _ he)
    rw [read_cons_keep hj, read_within last hlast cs d _ _ hp' hk', push_append_ofList]
    rfl

/-- A complete lexeme becomes a token. -/
theorem close_of_kind {m : Mode} {shape : Shape} {kind : Kind} (h : shape.kind w = .ok kind) :
    (⟨m, w, p, ts⟩ : Scan).close shape = .ok (between p (ts.push ⟨kind, w, p⟩)) := by
  simp only [close, h]
  rfl

/-- The last character of a lexeme closes it. -/
theorem read_to_close {shape : Shape} {c : Char} {cs : List Char}
    (hp : shape = .int → '.' ∉ c :: cs)
    (hk : ∀ d ∈ cs, shape.follow (some d) = .keep (.within shape))
    (hf : shape.follow ahead = .close shape) :
    (⟨.within shape, w, p, ts⟩ : Scan).read (c :: cs) ahead =
      (⟨.within shape, w ++ String.ofList (c :: cs), p.after (c :: cs), ts⟩ : Scan).close shape := by
  rw [read_within (fun s => s.close shape) ?_ cs c w p hp hk]
  intro d w p hd
  have hj : (Mode.within shape).judge d ahead = .close shape := by
    rw [Mode.judge, Shape.judge, if_neg (fun h => hd h.1 h.2), hf]
  simp only [step, hj]

/-- The characters of a lexeme before the one that closes it. -/
theorem read_closing {shape : Shape} {c : Char} {cs : List Char} {kind : Kind}
    (hp : shape = .int → '.' ∉ c :: cs)
    (hk : ∀ d ∈ cs, shape.follow (some d) = .keep (.within shape))
    (hf : shape.follow ahead = .close shape)
    (hkind : shape.kind (w ++ String.ofList (c :: cs)) = .ok kind) :
    (⟨.within shape, w, p, ts⟩ : Scan).read (c :: cs) ahead =
      .ok (between (p.after (c :: cs))
        (ts.push ⟨kind, w ++ String.ofList (c :: cs), p.after (c :: cs)⟩)) := by
  rw [read_to_close hp hk hf, close_of_kind hkind]

/-- The characters of a lexeme that goes on behind them. -/
theorem read_keeping {shape : Shape} {c : Char} {cs : List Char}
    (hp : shape = .int → '.' ∉ c :: cs)
    (hk : ∀ d ∈ cs, shape.follow (some d) = .keep (.within shape))
    (hf : shape.follow ahead = .keep (.within shape)) :
    (⟨.within shape, w, p, ts⟩ : Scan).read (c :: cs) ahead =
      .ok ⟨.within shape, w ++ String.ofList (c :: cs), p.after (c :: cs), ts⟩ := by
  rw [read_within .ok ?_ cs c w p hp hk]
  intro d w p hd
  have hj : (Mode.within shape).judge d ahead = .keep (.within shape) := by
    rw [Mode.judge, Shape.judge, if_neg (fun h => hd h.1 h.2), hf]
  simp only [step, hj]

theorem follow_identifier_of_isWordChar {d : Char} (h : isWordChar d = true) :
    Shape.identifier.follow (some d) = .keep (.within .identifier) := by
  have hp : d ≠ '.' := by rintro rfl; exact absurd h (by decide)
  simp [Shape.follow, hp, h]

theorem follow_float_of_isDigit {d : Char} (h : d.isDigit = true) :
    Shape.float.follow (some d) = .keep (.within .float) := by
  have hp : d ≠ '.' := by rintro rfl; exact absurd h (by decide)
  simp [Shape.follow, hp, h]

theorem point_not_mem_of_isDigit {cs : List Char} (h : ∀ d ∈ cs, d.isDigit = true) :
    '.' ∉ cs := by
  intro hp
  exact absurd (h _ hp) (by decide)

/-- The start of a list of digits is judged as one in the middle of an integer literal. -/
theorem judgeStart_of_isDigit {c : Char} (next : Option Char) (h : c.isDigit = true) :
    Mode.start.judge c next = (Mode.within .int).judge c next := by
  have hp : c ≠ '.' := by rintro rfl; exact absurd h (by decide)
  rw [Mode.judge, judgeStart_of_isWordChar next (isWordChar_of_isDigit h), if_pos h, Mode.judge,
    Shape.judge, if_neg (fun hc => hp hc.2)]

theorem judgeStart_of_isWordStart {c : Char} (next : Option Char) (h : isWordStart c = true) :
    Mode.start.judge c next = (Mode.within .identifier).judge c next := by
  rw [Mode.judge, judgeStart_of_isWordChar next (isWordChar_of_isWordStart h),
    if_neg (not_isDigit_of_isWordStart h), Mode.judge, Shape.judge, if_neg (by simp)]

theorem read_word {cs : List Char} (h : IsWord cs) (hf : Free ahead) :
    (between p ts).read cs ahead =
      .ok (between (p.after cs)
        (ts.push ⟨Kind.ofWord (String.ofList cs), String.ofList cs, p.after cs⟩)) := by
  obtain ⟨c, rest, rfl, hc, hrest⟩ := h
  have hkind : Shape.identifier.kind ("" ++ String.ofList (c :: rest)) =
      .ok (Kind.ofWord (String.ofList (c :: rest))) := by rw [String.empty_append]; rfl
  have hstart : (between p ts).read (c :: rest) ahead =
      (⟨.within .identifier, "", p, ts⟩ : Scan).read (c :: rest) ahead :=
    read_cons_congr (judgeStart_of_isWordStart _ hc)
  have hkeep : ∀ d ∈ rest, Shape.identifier.follow (some d) = .keep (.within .identifier) := by
    intro d hd
    exact follow_identifier_of_isWordChar (hrest d hd)
  rw [hstart, read_closing (by simp) hkeep (follow_of_free (by decide) hf) hkind,
    String.empty_append]

/-- The first digit, behind a sign or not, begins an integer literal. -/
theorem read_int_start {sign : List Char} {d : Char} {digits : List Char}
    (hs : sign = [] ∨ sign = [negation]) (hd : d.isDigit = true) :
    (between p ts).read (sign ++ d :: digits) ahead =
      (⟨.within .int, String.ofList sign, p.after sign, ts⟩ : Scan).read (d :: digits) ahead := by
  rcases hs with rfl | rfl
  · exact read_cons_congr (judgeStart_of_isDigit _ hd)
  · have hj : Mode.start.judge negation (some d) = .keep (.within .int) := by
      have hn : digitNext (some d) = true := hd
      simp only [Mode.judge, judgeStart, hn, follow_int_of_digitNext]
      rfl
    exact read_cons_keep hj

theorem read_int {cs : List Char} (h : IsInt cs) (hf : Free ahead) :
    (between p ts).read cs ahead =
      .ok (between (p.after cs) (ts.push ⟨.int, String.ofList cs, p.after cs⟩)) := by
  obtain ⟨sign, _ | ⟨d, digits⟩, rfl, hs, hne, hd⟩ := h
  · exact absurd rfl hne
  have hkeep : ∀ e ∈ digits, Shape.int.follow (some e) = .keep (.within .int) := by
    intro e he
    exact follow_int_of_digitNext (hd e (List.mem_cons_of_mem _ he))
  have hkind : Shape.int.kind (String.ofList sign ++ String.ofList (d :: digits)) = .ok .int := rfl
  rw [read_int_start hs (hd d List.mem_cons_self),
    read_closing (fun _ => point_not_mem_of_isDigit hd) hkeep (follow_of_free (by decide) hf) hkind,
    ← String.ofList_append, ← Position.after_append]

/-- An integer literal before its point. -/
theorem read_whole {cs : List Char} (h : IsInt cs) :
    (between p ts).read cs (some '.') =
      .ok ⟨.within .int, String.ofList cs, p.after cs, ts⟩ := by
  obtain ⟨sign, _ | ⟨d, digits⟩, rfl, hs, hne, hd⟩ := h
  · exact absurd rfl hne
  have hkeep : ∀ e ∈ digits, Shape.int.follow (some e) = .keep (.within .int) := by
    intro e he
    exact follow_int_of_digitNext (hd e (List.mem_cons_of_mem _ he))
  rw [read_int_start hs (hd d List.mem_cons_self),
    read_keeping (fun _ => point_not_mem_of_isDigit hd) hkeep rfl,
    ← String.ofList_append, ← Position.after_append]

/-- The point turns an integer literal into a float, and the digits behind it end that. -/
theorem read_fraction {digits : List Char} (hd : ∀ d ∈ digits, d.isDigit = true)
    (hf : Free ahead) :
    (⟨.within .int, w, p, ts⟩ : Scan).read ('.' :: digits) ahead =
      .ok (between (p.after ('.' :: digits))
        (ts.push ⟨.float, w ++ String.ofList ('.' :: digits), p.after ('.' :: digits)⟩)) := by
  have hkeep : ∀ d ∈ digits, Shape.float.follow (some d) = .keep (.within .float) := by
    intro d h
    exact follow_float_of_isDigit (hd d h)
  have hkind : Shape.float.kind (w ++ String.ofList ('.' :: digits)) = .ok .float := rfl
  have hturn : (⟨.within .int, w, p, ts⟩ : Scan).read ('.' :: digits) ahead =
      (⟨.within .float, w, p, ts⟩ : Scan).read ('.' :: digits) ahead := read_cons_congr rfl
  rw [hturn, read_closing (by simp) hkeep (follow_of_free (by decide) hf) hkind]

theorem read_float {cs : List Char} (h : IsFloat cs) (hf : Free ahead) :
    (between p ts).read cs ahead =
      .ok (between (p.after cs) (ts.push ⟨.float, String.ofList cs, p.after cs⟩)) := by
  rcases h with ⟨whole, digits, rfl, hw, hd⟩ | ⟨_ | ⟨d, digits⟩, rfl, hne, hd⟩
  · rw [read_append_of_ok (read_whole hw), read_fraction hd hf, ← String.ofList_append,
      ← Position.after_append]
  · exact absurd rfl hne
  · have hn : digitNext (some d) = true := hd d List.mem_cons_self
    have hj : Mode.start.judge '.' (some d) = .keep (.within .float) := by
      simp only [Mode.judge, judgeStart, hn]
      rfl
    have hkeep : ∀ e ∈ digits, Shape.float.follow (some e) = .keep (.within .float) := by
      intro e he
      exact follow_float_of_isDigit (hd e (List.mem_cons_of_mem _ he))
    have hkind : Shape.float.kind ("".push '.' ++ String.ofList (d :: digits)) = .ok .float := rfl
    rw [between, read_cons_keep hj,
      read_closing (by simp) hkeep (follow_of_free (by decide) hf) hkind, push_append_ofList,
      String.empty_append]
    rfl

/-- What is spelled like a character literal is closed where no letter follows. -/
theorem read_spelled_to_close {cs : List Char} (h : IsSpelled cs)
    (hn : ∀ d ∈ ahead, d.isAlpha = false) :
    (between p ts).read cs ahead =
      (⟨.within .character, String.ofList cs, p.after cs, ts⟩ : Scan).close .character := by
  obtain ⟨c, letters, rfl, hc, hl⟩ := h
  have hj : Mode.start.judge '\\' (some c) = .keep (.within .character) := by
    have hb : Blank.ofChar? c = none := by simpa [isBlank] using hc
    simp [Mode.judge, judgeStart, Kind.ofChar?, hb]
  have hkeep : ∀ d ∈ letters, Shape.character.follow (some d) = .keep (.within .character) := by
    intro d hd
    simp [Shape.follow, hl d hd]
  have hclose : Shape.character.follow ahead = .close .character := by
    cases ahead with
    | none => rfl
    | some d => simp [Shape.follow, hn d rfl]
  rw [between, read_cons_keep hj, read_to_close (by simp) hkeep hclose, push_append_ofList,
    String.empty_append]
  rfl

/-- A character literal is read to its end where no letter follows. -/
theorem read_spelled {cs : List Char} (h : IsSpelled cs) (hn : ∀ d ∈ ahead, d.isAlpha = false)
    (hk : Shape.character.kind (String.ofList cs) = .ok .character) :
    (between p ts).read cs ahead =
      .ok (between (p.after cs) (ts.push ⟨.character, String.ofList cs, p.after cs⟩)) := by
  rw [read_spelled_to_close h hn, close_of_kind hk]

theorem isSpelled_literal (b : Blank) : IsSpelled b.literal.toList := by
  have hl : ∀ letters : List Char, letters.all Char.isAlpha = true →
      ∀ d ∈ letters, d.isAlpha = true := by
    intro letters h
    exact List.all_eq_true.mp h
  cases b <;> exact ⟨_, _, rfl, rfl, hl _ rfl⟩

theorem read_character {cs : List Char} (h : IsCharacter cs)
    (hn : ∀ d ∈ ahead, d.isAlpha = false) :
    (between p ts).read cs ahead =
      .ok (between (p.after cs) (ts.push ⟨.character, String.ofList cs, p.after cs⟩)) := by
  rcases h with ⟨c, hc, rfl⟩ | ⟨b, rfl⟩
  · have hk : Shape.character.kind (String.ofList ['\\', c]) = .ok .character :=
      if_pos (Or.inl (by rw [String.length_ofList]; rfl))
    exact read_spelled ⟨c, [], rfl, hc, nofun⟩ hn hk
  · have hk : Shape.character.kind (String.ofList b.literal.toList) = .ok .character := by
      rw [Shape.kind, String.ofList_toList]
      exact if_pos (Or.inr (mem_namedCharacters.mpr ⟨b, rfl⟩))
    exact read_spelled (isSpelled_literal b) hn hk

/-! ## 3. Strings -/

theorem read_body {body : List Char} (h : StringBody body) : ∀ (w : String) (p : Position),
    (⟨.string false, w, p, ts⟩ : Scan).read body ahead =
      .ok ⟨.string false, w ++ String.ofList body, p.after body, ts⟩ := by
  induction h with
  | nil => intro w p; simp
  | @plain c cs hq hb _ ih =>
    intro w p
    have hj : (Mode.string false).judge c (cs.head?.or ahead) = .keep (.string false) := by
      simp [Mode.judge, judgeString, hq, hb]
    rw [read_cons_keep hj, ih, push_append_ofList]
    rfl
  | @escape d cs hd _ ih =>
    intro w p
    have hj : (Mode.string false).judge '\\' (some d) = .keep (.string true) := by
      simp [Mode.judge, judgeString, hd]
    have hj' : (Mode.string true).judge d (cs.head?.or ahead) = .keep (.string false) := rfl
    rw [read_cons_keep hj, read_cons_keep hj', ih, push_append_ofList, push_append_ofList]
    rfl

theorem read_string {cs : List Char} (h : IsString cs) :
    (between p ts).read cs ahead =
      .ok (between (p.after cs) (ts.push ⟨.string, String.ofList cs, p.after cs⟩)) := by
  obtain ⟨body, hb, rfl⟩ := h
  have hj : Mode.start.judge '"' ((body ++ ['"']).head?.or ahead) = .keep (.string false) := rfl
  have htext : "".push '"' ++ String.ofList body ++ String.ofList ['"'] =
      String.ofList ('"' :: (body ++ ['"'])) := by
    rw [← String.toList_inj]
    simp
  have hplace : ((p.advance '"').after body).advance '"' = p.after ('"' :: (body ++ ['"'])) := by
    simp
  rw [between, read_cons_keep hj, read_append_of_ok (read_body hb _ _), read_singleton, ← htext,
    ← hplace, ← push_append_ofList, String.ofList_nil, String.append_empty]
  rfl

/-! ## 4. Lexemes, gaps and sources -/

theorem read_single {c : Char} {kind : Kind} (h : Kind.ofChar? c = some kind) :
    (between p ts).read [c] ahead =
      .ok (between (p.after [c]) (ts.push ⟨kind, String.ofList [c], p.after [c]⟩)) := by
  have hj : Mode.start.judge c ahead = .emit kind := by simp [Mode.judge, judgeStart, h]
  have htext : "".push c = String.ofList [c] := push_eq_ofList "" c
  rw [read_singleton, between, step, hj, htext]
  rfl

/-- **Every lexeme is read to its end.** -/
theorem read_lexeme {kind : Kind} {cs : List Char} (h : Lexeme kind cs ahead) :
    (between p ts).read cs ahead =
      .ok (between (p.after cs) (ts.push ⟨kind, String.ofList cs, p.after cs⟩)) := by
  cases h with
  | single h => exact read_single h
  | word h hn => exact read_word h hn
  | int h hn => exact read_int h hn
  | float h hn => exact read_float h hn
  | string h => exact read_string h
  | character h hn => exact read_character h hn

theorem read_comment : ∀ (text : List Char) (p : Position), '\n' ∉ text →
    (⟨.comment, "", p, ts⟩ : Scan).read text ahead = .ok ⟨.comment, "", p.after text, ts⟩
  | [], p, _ => rfl
  | c :: text, p, h => by
    have hc : c ≠ '\n' := by
      rintro rfl
      exact h List.mem_cons_self
    simp only [read, step, Mode.judge, if_neg hc]
    exact read_comment text (p.advance c) (fun m => h (List.mem_cons_of_mem _ m))

theorem read_openComment {text : List Char} (h : '\n' ∉ text) :
    (between p ts).read (';' :: text) ahead = .ok ⟨.comment, "", p.after (';' :: text), ts⟩ :=
  read_comment text (p.advance ';') h

/-- **Every gap is passed over.** -/
theorem read_gap {g : List Char} (h : Gap g) : ∀ p : Position,
    (between p ts).read g ahead = .ok (between (p.after g) ts) := by
  induction h with
  | nil => intro p; rfl
  | @blank c g hc _ ih =>
    intro p
    simp only [between, read, step, Mode.judge, judgeStart_of_isBlank _ hc]
    exact ih (p.advance c)
  | @comment text g ht _ ih =>
    intro p
    rw [← List.cons_append, read_append_of_ok (read_openComment ht), Position.after_append]
    exact ih ((p.after (';' :: text)).advance '\n')

end Read

/-- **Pieces are read to their end.** -/
theorem read_pieces {p : Position} {cs : List Char} {ahead : Option Char} {us : List Token}
    (h : Pieces p cs ahead us) : ∀ ts : Array Token,
    (between p ts).read cs ahead = .ok (between (p.after cs) (ts ++ us.toArray)) := by
  induction h with
  | nil => intro ts; simp
  | @cons p g w rest ahead kind us hg hw _ ih =>
    intro ts
    have hgap : (between p ts).read g ((w ++ rest).head?.or ahead) =
        .ok (between (p.after g) ts) := read_gap hg p
    rw [read_append_of_ok hgap, read_append_of_ok (read_lexeme hw), ← Position.after_append,
      ih, ← Position.after_append, List.append_assoc]
    simp

/-- Behind the pieces that a source begins with, the scanner is between two tokens. -/
theorem read_initial_pieces {body rest : List Char} {ahead : Option Char} {us : List Token}
    (h : Pieces .start body (rest.head?.or ahead) us) :
    initial.read (body ++ rest) ahead =
      (between (Position.start.after body) us.toArray).read rest ahead := by
  have hbody := read_pieces h #[]
  rw [Array.empty_append] at hbody
  exact read_append_of_ok hbody

/-- So what a source with these pieces comes to is decided by the rest of it. -/
theorem run_of_pieces {body rest : List Char} {us : List Token}
    (h : Pieces .start body rest.head? us) :
    run (body ++ rest) =
      (((between (Position.start.after body) us.toArray).read rest none).bind finish).map
        fun s => s.tokens.toList := by
  rw [← Option.or_none (o := rest.head?)] at h
  rw [run, read_initial_pieces h]
  cases (between (Position.start.after body) us.toArray).read rest none <;> rfl

/-- What is cut by the grammar is scanned. -/
theorem run_of_cut {cs : List Char} {ts : List Token} (h : Cut .start cs ts) :
    run cs = .ok ts := by
  obtain ⟨body, last, rfl, hb, hl⟩ := h
  rw [run_of_pieces hb]
  rcases hl with hl | ⟨g, text, hg, ht, rfl⟩
  · rw [read_gap hl]
    rfl
  · rw [read_append_of_ok (read_gap hg _), read_openComment ht]
    rfl

/-- **The scanner accepts the grammar**, and returns its tokens. -/
theorem run_eq_ok_iff {cs : List Char} {ts : List Token} :
    run cs = .ok ts ↔ Cut .start cs ts := by
  constructor
  · exact run_cut
  · exact run_of_cut

end Token.Scan

theorem tokenize_eq_ok_iff_run {source : String} {tokens : List Token} :
    tokenize source = .ok tokens ↔
      Token.Scan.run (Text.withoutMark source).toList = .ok tokens := by
  rw [tokenize, mapError_eq_ok_iff]

/-- A source that begins with no mark is scanned as it is. -/
theorem tokenize_eq_run {source : String} (h : source.toList.head? ≠ some '\uFEFF') :
    tokenize source = (Token.Scan.run source.toList).mapError (Token.Fault.diagnose source) := by
  rw [tokenize, Text.withoutMark_of_head h]

/-- Such a source is cut into its tokens. -/
theorem cut_of_tokenize {source : String} {tokens : List Token}
    (hm : source.toList.head? ≠ some '\uFEFF') (h : tokenize source = .ok tokens) :
    Token.Cut .start source.toList tokens := by
  rw [tokenize_eq_ok_iff_run, Text.withoutMark_of_head hm] at h
  exact Token.Scan.run_cut h

/-- **The language of sources.**  Without regard to one byte order mark at its front, a source is
tokenized exactly if gaps and lexemes make it up by turns; the tokens are its lexemes, each of its
kind and at the place where it ends. -/
theorem tokenize_eq_ok_iff_cut (source : String) (tokens : List Token) :
    tokenize source = .ok tokens ↔
      Token.Cut .start (Text.withoutMark source).toList tokens := by
  rw [tokenize_eq_ok_iff_run, Token.Scan.run_eq_ok_iff]

/-- All of the vocabulary: brackets, markers and the colon, every keyword and a name that is like one,
numbers, the four escapes and a line feed in a string, the named characters; behind a mark, with all
kinds of blanks and a comment in between. -/
theorem tokenize_eq_ok_iff_cut_vocabulary :
    ∃ source tokens,
      source = "\uFEFF([:',])true\tfalse;e\r\nlambda if let define If-0?\r~12 1. .5" ++
        "\"a\\\"\\t\\n\\\\\n\"\\space\\tab\\newline \\x" ∧
      tokens = [⟨.opening .round, "(", ⟨1, 1⟩⟩, ⟨.opening .square, "[", ⟨1, 2⟩⟩,
        ⟨.colon, ":", ⟨1, 3⟩⟩, ⟨.marker .quote, "'", ⟨1, 4⟩⟩, ⟨.marker .backquote, ",", ⟨1, 5⟩⟩,
        ⟨.closing .square, "]", ⟨1, 6⟩⟩, ⟨.closing .round, ")", ⟨1, 7⟩⟩,
        ⟨.keyword (.boolean true), "true", ⟨1, 11⟩⟩, ⟨.keyword (.boolean false), "false", ⟨1, 17⟩⟩,
        ⟨.keyword .lambda, "lambda", ⟨2, 6⟩⟩, ⟨.keyword .conditional, "if", ⟨2, 9⟩⟩,
        ⟨.keyword .binding, "let", ⟨2, 13⟩⟩, ⟨.keyword .definition, "define", ⟨2, 20⟩⟩,
        ⟨.identifier, "If-0?", ⟨2, 26⟩⟩, ⟨.int, "~12", ⟨2, 30⟩⟩, ⟨.float, "1.", ⟨2, 33⟩⟩,
        ⟨.float, ".5", ⟨2, 36⟩⟩, ⟨.string, "\"a\\\"\\t\\n\\\\\n\"", ⟨3, 1⟩⟩,
        ⟨.character, "\\space", ⟨3, 7⟩⟩, ⟨.character, "\\tab", ⟨3, 11⟩⟩,
        ⟨.character, "\\newline", ⟨3, 19⟩⟩, ⟨.character, "\\x", ⟨3, 22⟩⟩] ∧
      tokenize source = .ok tokens ∧
      Token.Cut .start (Text.withoutMark source).toList tokens := by
  refine ⟨_, _, rfl, rfl, (and_iff_left_of_imp (tokenize_eq_ok_iff_cut _ _).mp).mpr ?_⟩
  rfl

end Sexpr
