/-
# The grammar of sources

A source is gaps and lexemes by turns, a gap first and a gap last.  This module says what gaps and
lexemes are without the modes and decisions of the scanner: which texts they are, and which
character may stand behind a lexeme.  The scanner decides by looking one character ahead, and so
does the grammar: `Lexeme` takes the next character, if there is one, as an argument.

The two have their vocabulary in common: the tokens of one character, the keywords, the characters
of identifiers, the sign of numbers, the blanks and their names, the escapes.  What belongs to it is
written out entry by entry where it is defined (`Kind.ofChar?_eq_some_iff`,
`Keyword.ofSpelling?_eq_some_iff`, `isWordChar_iff`, `Blank.ofChar?_eq_some_iff`,
`Blank.literal_eq_iff`, `mem_escapes`).

**The next character matters in two ways only.**  Words and numbers must not run into a character
of identifiers or a point (`Free`), and a character literal must not run into a letter.  Nothing
is asked behind brackets, markers, colons and strings.  So a lexeme stays one before the end of the
source and before every character that is `Free` (`Lexeme.before`), which is all that a printer has
to know.

`Pieces` strings gaps and lexemes together and gives every token its place; `Cut` adds the gap at
the end, whose last comment need not be ended.
-/
import Sexpr.Token.Scan

namespace Sexpr.Token

/-! ## 1. Gaps -/

/-- What may stand between two tokens: blanks, and comments with the line feeds that end them. -/
inductive Gap : List Char → Prop
  | nil : Gap []
  | blank {c : Char} {g : List Char} (hc : isBlank c = true) (hg : Gap g) : Gap (c :: g)
  | comment {text g : List Char} (ht : '\n' ∉ text) (hg : Gap g) :
      Gap (';' :: (text ++ '\n' :: g))

/-- A gap and behind it a comment that no line feed ends. -/
def OpenComment (cs : List Char) : Prop :=
  ∃ g text, Gap g ∧ '\n' ∉ text ∧ cs = g ++ ';' :: text

/-- What may stand behind the last token. -/
def LastGap (cs : List Char) : Prop := Gap cs ∨ OpenComment cs

theorem Gap.append {g h : List Char} (hg : Gap g) (hh : Gap h) : Gap (g ++ h) := by
  induction hg with
  | nil => exact hh
  | blank hc _ ih => exact Gap.blank hc ih
  | comment ht _ ih =>
    rw [List.cons_append, List.append_assoc, List.cons_append]
    exact Gap.comment ht ih

theorem Gap.lastGap_append {g l : List Char} (hg : Gap g) (hl : LastGap l) : LastGap (g ++ l) := by
  rcases hl with hl | ⟨h, text, hh, ht, rfl⟩
  · exact Or.inl (hg.append hl)
  · exact Or.inr ⟨g ++ h, text, hg.append hh, ht, (List.append_assoc _ _ _).symm⟩

/-- One more character of a comment that is not ended yet. -/
theorem OpenComment.push {cs : List Char} (h : OpenComment cs) {c : Char} (hc : c ≠ '\n') :
    OpenComment (cs ++ [c]) := by
  obtain ⟨g, text, hg, ht, rfl⟩ := h
  refine ⟨g, text ++ [c], hg, ?_, by simp⟩
  simp [ht, Ne.symm hc]

/-- The line feed ends the comment, and what was read is a gap. -/
theorem OpenComment.close {cs : List Char} (h : OpenComment cs) : Gap (cs ++ ['\n']) := by
  obtain ⟨g, text, hg, ht, rfl⟩ := h
  rw [List.append_assoc, List.cons_append]
  exact hg.append (Gap.comment ht Gap.nil)

/-! ## 2. The shapes of lexemes -/

/-- A character that may begin an identifier: a letter or a symbol. -/
def isWordStart (c : Char) : Bool := c.isAlpha || symbols.contains c

/-- Shaped like an identifier. -/
def IsWord (cs : List Char) : Prop :=
  ∃ c rest, cs = c :: rest ∧ isWordStart c = true ∧ ∀ d ∈ rest, isWordChar d = true

def IsDigits (cs : List Char) : Prop := cs ≠ [] ∧ ∀ d ∈ cs, d.isDigit = true

/-- An integer literal: digits, behind a negation sign or not. -/
def IsInt (cs : List Char) : Prop :=
  ∃ sign digits, cs = sign ++ digits ∧ (sign = [] ∨ sign = [negation]) ∧ IsDigits digits

/-- A floating-point literal: a point behind an integer literal, with digits behind the point or
none; or a point before digits. -/
def IsFloat (cs : List Char) : Prop :=
  (∃ whole digits, cs = whole ++ '.' :: digits ∧ IsInt whole ∧ ∀ d ∈ digits, d.isDigit = true) ∨
    ∃ digits, cs = '.' :: digits ∧ IsDigits digits

/-- What stands between the quotes of a string literal. -/
inductive StringBody : List Char → Prop
  | nil : StringBody []
  | plain {c : Char} {cs : List Char} (hq : c ≠ '"') (hb : c ≠ '\\') (h : StringBody cs) :
      StringBody (c :: cs)
  | escape {d : Char} {cs : List Char} (hd : d ∈ escapes) (h : StringBody cs) :
      StringBody ('\\' :: d :: cs)

def IsString (cs : List Char) : Prop := ∃ body, StringBody body ∧ cs = '"' :: (body ++ ['"'])

/-- A backslash and one character that can be seen, or a backslash and the name of a blank. -/
def IsCharacter (cs : List Char) : Prop :=
  (∃ c, isBlank c = false ∧ cs = ['\\', c]) ∨ ∃ b : Blank, cs = b.literal.toList

theorem StringBody.append {cs ds : List Char} (hc : StringBody cs) (hd : StringBody ds) :
    StringBody (cs ++ ds) := by
  induction hc with
  | nil => exact hd
  | plain hq hb _ ih => exact StringBody.plain hq hb ih
  | escape he _ ih => exact StringBody.escape he ih

theorem IsWord.push {cs : List Char} (h : IsWord cs) {c : Char} (hc : isWordChar c = true) :
    IsWord (cs ++ [c]) := by
  obtain ⟨d, rest, rfl, hd, hrest⟩ := h
  refine ⟨d, rest ++ [c], rfl, hd, ?_⟩
  intro e he
  rcases List.mem_append.mp he with he | he
  · exact hrest e he
  · rwa [List.mem_singleton.mp he]

theorem IsDigits.push {cs : List Char} (h : ∀ d ∈ cs, d.isDigit = true) {c : Char}
    (hc : c.isDigit = true) : IsDigits (cs ++ [c]) := by
  refine ⟨by simp, ?_⟩
  intro d hd
  rcases List.mem_append.mp hd with hd | hd
  · exact h d hd
  · rwa [List.mem_singleton.mp hd]

theorem IsInt.push {cs : List Char} (h : IsInt cs) {c : Char} (hc : c.isDigit = true) :
    IsInt (cs ++ [c]) := by
  obtain ⟨sign, digits, rfl, hs, -, hd⟩ := h
  exact ⟨sign, digits ++ [c], List.append_assoc _ _ _, hs, IsDigits.push hd hc⟩

theorem IsFloat.push {cs : List Char} (h : IsFloat cs) {c : Char} (hc : c.isDigit = true) :
    IsFloat (cs ++ [c]) := by
  rcases h with ⟨whole, digits, rfl, hw, hd⟩ | ⟨digits, rfl, -, hd⟩
  · exact Or.inl ⟨whole, digits ++ [c], by simp, hw, (IsDigits.push hd hc).2⟩
  · exact Or.inr ⟨digits ++ [c], rfl, IsDigits.push hd hc⟩

/-! ## 3. Lexemes -/

/-- A word or a number may end here: neither a character of identifiers nor a point follows. -/
def Free (next : Option Char) : Prop := ∀ c ∈ next, isWordChar c = false ∧ c ≠ '.'

theorem free_none : Free none := nofun

@[simp] theorem free_some {c : Char} : Free (some c) ↔ isWordChar c = false ∧ c ≠ '.' := by
  simp [Free]

theorem free_of_isBlank {c : Char} (h : isBlank c = true) : Free (some c) := by
  rw [isBlank_iff] at h
  simp only [Char.isWhitespace, Bool.or_eq_true, decide_eq_true_eq] at h
  rw [free_some]
  rcases h with ((rfl | rfl) | rfl) | rfl <;> decide

theorem free_closer (b : Bracket) : Free (some b.closer) := by
  rw [free_some]
  cases b <;> decide

/-- A gap that is not empty begins free. -/
theorem Gap.free {g : List Char} (hg : Gap g) (hne : g ≠ []) (rest : List Char) :
    Free (g ++ rest).head? := by
  cases hg with
  | nil => contradiction
  | blank hc _ => exact free_of_isBlank hc
  | comment _ _ =>
    rw [List.cons_append, List.head?_cons, free_some]
    decide

/-- The text is a lexeme of this kind where `next` is the character behind it. -/
inductive Lexeme : Kind → (text : List Char) → (next : Option Char) → Prop
  | single {c : Char} {kind : Kind} {next : Option Char} (h : Kind.ofChar? c = some kind) :
      Lexeme kind [c] next
  | word {cs : List Char} {next : Option Char} (h : IsWord cs) (hn : Free next) :
      Lexeme (Kind.ofWord (String.ofList cs)) cs next
  | int {cs : List Char} {next : Option Char} (h : IsInt cs) (hn : Free next) :
      Lexeme .int cs next
  | float {cs : List Char} {next : Option Char} (h : IsFloat cs) (hn : Free next) :
      Lexeme .float cs next
  | string {cs : List Char} {next : Option Char} (h : IsString cs) : Lexeme .string cs next
  | character {cs : List Char} {next : Option Char} (h : IsCharacter cs)
      (hn : ∀ c ∈ next, c.isAlpha = false) : Lexeme .character cs next

theorem Lexeme.ne_nil {kind : Kind} {cs : List Char} {next : Option Char}
    (h : Lexeme kind cs next) : cs ≠ [] := by
  cases h with
  | single _ => simp
  | word h _ => obtain ⟨c, rest, rfl, -⟩ := h; simp
  | int h _ => obtain ⟨sign, digits, rfl, -, hd, -⟩ := h; simp [hd]
  | float h _ => rcases h with ⟨whole, digits, rfl, -⟩ | ⟨digits, rfl, -⟩ <;> simp
  | string h => obtain ⟨body, -, rfl⟩ := h; simp
  | character h _ =>
    rcases h with ⟨c, -, rfl⟩ | ⟨b, rfl⟩
    · simp
    · cases b <;> decide

/-- **A lexeme is one before every character that is free.** -/
theorem Lexeme.before {kind : Kind} {cs : List Char} {next next' : Option Char}
    (h : Lexeme kind cs next) (hn : Free next') : Lexeme kind cs next' := by
  cases h with
  | single h => exact Lexeme.single h
  | word h _ => exact Lexeme.word h hn
  | int h _ => exact Lexeme.int h hn
  | float h _ => exact Lexeme.float h hn
  | string h => exact Lexeme.string h
  | character h _ =>
    refine Lexeme.character h ?_
    intro c hc
    have hw := (hn c hc).1
    simp only [isWordChar, Char.isAlphanum, Bool.or_eq_false_iff] at hw
    exact hw.1.1

/-! ## 4. Sources -/

/-- Gaps and lexemes by turns, read from the place `p` and before the character `ahead`; every
token stands where its lexeme ends. -/
inductive Pieces : (p : Position) → List Char → (ahead : Option Char) → List Token → Prop
  | nil {p : Position} {ahead : Option Char} : Pieces p [] ahead []
  | cons {p : Position} {g w rest : List Char} {ahead : Option Char} {kind : Kind}
      {ts : List Token} (hg : Gap g) (hw : Lexeme kind w (rest.head?.or ahead))
      (hr : Pieces (p.after (g ++ w)) rest ahead ts) :
      Pieces p (g ++ (w ++ rest)) ahead (⟨kind, String.ofList w, p.after (g ++ w)⟩ :: ts)

/-- **The grammar.**  A source read from the place `p` is cut into these tokens. -/
def Cut (p : Position) (cs : List Char) (ts : List Token) : Prop :=
  ∃ body last, cs = body ++ last ∧ Pieces p body last.head? ts ∧ LastGap last

theorem Pieces.append {p : Position} {cs ds : List Char} {ahead : Option Char}
    {ts us : List Token} (hc : Pieces p cs (ds.head?.or ahead) ts)
    (hd : Pieces (p.after cs) ds ahead us) : Pieces p (cs ++ ds) ahead (ts ++ us) := by
  generalize hn : ds.head?.or ahead = next at hc
  induction hc with
  | nil => exact hd
  | @cons p g w rest next kind ts hg hw _ ih =>
    subst hn
    have hnext : (rest ++ ds).head?.or ahead = rest.head?.or (ds.head?.or ahead) := by
      rw [List.head?_append, Option.or_assoc]
    rw [List.append_assoc, List.append_assoc, List.cons_append]
    refine Pieces.cons hg (hnext ▸ hw) (ih ?_ rfl)
    rwa [← Position.after_append, List.append_assoc]

/-- Pieces stay pieces before every character that is free. -/
theorem Pieces.before {p : Position} {cs : List Char} {ahead next : Option Char} {ts : List Token}
    (h : Pieces p cs ahead ts) (hn : Free next) : Pieces p cs next ts := by
  induction h with
  | nil => exact Pieces.nil
  | @cons p g w rest ahead kind ts hg hw _ ih =>
    refine Pieces.cons hg ?_ ih
    cases rest with
    | nil => exact hw.before hn
    | cons c rest => exact hw

/-- One more gap and lexeme at the end. -/
theorem Pieces.snoc {p : Position} {cs g w : List Char} {ahead : Option Char} {kind : Kind}
    {ts : List Token} (hc : Pieces p cs ((g ++ w).head?.or ahead) ts) (hg : Gap g)
    (hw : Lexeme kind w ahead) :
    Pieces p (cs ++ (g ++ w)) ahead
      (ts ++ [⟨kind, String.ofList w, p.after (cs ++ (g ++ w))⟩]) := by
  refine hc.append ?_
  have hone := @Pieces.cons (p.after cs) g w [] ahead kind [] hg hw Pieces.nil
  rwa [List.append_nil, ← Position.after_append] at hone

/-- Every token was a lexeme where it stood. -/
theorem Pieces.lexeme_of_mem {p : Position} {cs : List Char} {ahead : Option Char}
    {ts : List Token} (h : Pieces p cs ahead ts) :
    ∀ t ∈ ts, ∃ next, Lexeme t.kind t.text.toList next := by
  induction h with
  | nil => simp
  | cons _ hw _ ih =>
    intro t ht
    rcases List.mem_cons.mp ht with rfl | ht
    · exact ⟨_, by rwa [String.toList_ofList]⟩
    · exact ih t ht

theorem Cut.last {p : Position} {l : List Char} (hl : LastGap l) : Cut p l [] :=
  ⟨[], l, rfl, Pieces.nil, hl⟩

/-- A gap in front joins the first gap there is. -/
theorem Cut.gap {p : Position} {g cs : List Char} {ts : List Token} (hg : Gap g)
    (h : Cut (p.after g) cs ts) : Cut p (g ++ cs) ts := by
  obtain ⟨body, l, rfl, hb, hl⟩ := h
  cases hb with
  | nil => exact Cut.last (hg.lastGap_append hl)
  | @cons _ g' w rest _ kind ts hg' hw hr =>
    refine ⟨(g ++ g') ++ (w ++ rest), l, by simp, ?_, hl⟩
    have hplace : (p.after g).after (g' ++ w) = p.after ((g ++ g') ++ w) := by simp
    rw [hplace] at hr ⊢
    exact Pieces.cons (hg.append hg') hw hr

/-- A lexeme in front is one more token. -/
theorem Cut.lexeme {p : Position} {w cs : List Char} {kind : Kind} {ts : List Token}
    (hw : Lexeme kind w cs.head?) (h : Cut (p.after w) cs ts) :
    Cut p (w ++ cs) (⟨kind, String.ofList w, p.after w⟩ :: ts) := by
  obtain ⟨body, l, rfl, hb, hl⟩ := h
  rw [List.head?_append] at hw
  exact ⟨w ++ body, l, (List.append_assoc _ _ _).symm, Pieces.cons Gap.nil hw hb, hl⟩

end Sexpr.Token
