/-
# Tokens that read back

A token made by hand may say anything of its text.  It is FAITHFUL if it is the token of a form and
its text, read by itself, is one token of the same kind and the same text.

**Faithful tokens are the lexemes at the end of a source** (`Token.faithful_iff`).  A lexeme stays
one before the end of the source whatever stood behind it before, so every token that the scanner
returns is faithful or else a bracket or a marker (`Token.faithful_of_mem`).

No gap and no lexeme begins with a byte order mark.  So what the grammar cuts loses nothing at its
front when it is read as a source (`Token.Cut.tokenize`).
-/
import Mathlib.Data.List.Basic
import Sexpr.Proofs.Token.Reading

namespace Sexpr.Token

/-! ## 1. No mark at the front -/

/-- The byte order mark, which is dropped in front of a source. -/
def byteOrderMark : Char := '\uFEFF'

theorem Gap.head?_ne_mark {g : List Char} (h : Gap g) : g.head? ≠ some byteOrderMark := by
  cases h with
  | nil => simp
  | @blank c g hc _ =>
    intro he
    obtain rfl : c = byteOrderMark := by simpa using he
    exact absurd hc (by decide)
  | comment _ _ => simp [byteOrderMark]

theorem IsInt.head?_ne_mark {cs : List Char} (h : IsInt cs) : cs.head? ≠ some byteOrderMark := by
  obtain ⟨sign, digits, rfl, hs, hne, hd⟩ := h
  intro he
  rcases hs with rfl | rfl
  · have hm : byteOrderMark ∈ digits := List.mem_of_head? he
    exact absurd (hd _ hm) (by decide)
  · exact absurd he (by simp [negation, byteOrderMark])

theorem Lexeme.head?_ne_mark {kind : Kind} {cs : List Char} {next : Option Char}
    (h : Lexeme kind cs next) : cs.head? ≠ some byteOrderMark := by
  cases h with
  | @single c kind _ h =>
    intro he
    obtain rfl : c = byteOrderMark := by simpa using he
    exact absurd h (by simp [Kind.ofChar?, byteOrderMark])
  | word h _ =>
    obtain ⟨c, rest, rfl, hc, -⟩ := h
    intro he
    obtain rfl : c = byteOrderMark := by simpa using he
    exact absurd hc (by decide)
  | int h _ => exact h.head?_ne_mark
  | float h _ =>
    rcases h with ⟨whole, digits, rfl, hw, -⟩ | ⟨digits, rfl, -⟩
    · have hne : whole ≠ [] := by
        obtain ⟨sign, ds, rfl, -, hds, -⟩ := hw
        simp [hds]
      rw [List.head?_append_of_ne_nil _ hne]
      exact hw.head?_ne_mark
    · simp [byteOrderMark]
  | string h =>
    obtain ⟨body, -, rfl⟩ := h
    simp [byteOrderMark]
  | character h _ =>
    rcases h with ⟨c, -, rfl⟩ | ⟨b, rfl⟩
    · simp [byteOrderMark]
    · cases b <;> decide

theorem LastGap.head?_ne_mark {cs : List Char} (h : LastGap cs) :
    cs.head? ≠ some byteOrderMark := by
  rcases h with h | ⟨g, text, hg, -, rfl⟩
  · exact h.head?_ne_mark
  · cases g with
    | nil => simp [byteOrderMark]
    | cons c g => exact hg.head?_ne_mark

/-- What the grammar cuts begins with no mark. -/
theorem Cut.head?_ne_mark {p : Position} {cs : List Char} {ts : List Token} (h : Cut p cs ts) :
    cs.head? ≠ some byteOrderMark := by
  obtain ⟨body, last, rfl, hb, hl⟩ := h
  cases hb with
  | nil => exact hl.head?_ne_mark
  | @cons _ g w rest _ kind ts hg hw _ =>
    cases g with
    | nil =>
      rw [List.nil_append, List.append_assoc, List.head?_append_of_ne_nil _ hw.ne_nil]
      exact hw.head?_ne_mark
    | cons c g => exact hg.head?_ne_mark

/-- As a source, what the grammar cuts loses nothing. -/
theorem Cut.withoutMark {cs : List Char} {ts : List Token} (h : Cut .start cs ts) :
    Text.withoutMark (String.ofList cs) = String.ofList cs := by
  refine Text.withoutMark_of_head ?_
  rw [String.toList_ofList]
  exact h.head?_ne_mark

/-- What the grammar cuts is tokenized. -/
theorem Cut.tokenize {cs : List Char} {ts : List Token} (h : Cut .start cs ts) :
    tokenize (String.ofList cs) = .ok ts := by
  rw [tokenize_eq_ok_iff_run, h.withoutMark, String.toList_ofList]
  exact Scan.run_of_cut h

theorem tokenize_of_cut {source : String} {tokens : List Token}
    (h : Cut .start source.toList tokens) :
    tokenize source = .ok tokens := by
  have hread := h.tokenize
  rwa [String.ofList_toList] at hread

/-! ## 2. Faithful tokens -/

/-- The token of a form whose text, read by itself, is this token again, up to its place. -/
def Faithful (t : Token) : Prop :=
  t.kind.isAtomic = true ∧ ∃ u, Sexpr.tokenize t.text = .ok [u] ∧ u.alike t = true

/-- Every token of a source was a lexeme, and is one by itself. -/
theorem lexeme_of_mem {source : String} {ts : List Token} (h : Sexpr.tokenize source = .ok ts) :
    ∀ t ∈ ts, Lexeme t.kind t.text.toList none := by
  intro t ht
  obtain ⟨body, last, -, hb, -⟩ := Scan.run_cut (tokenize_eq_ok_iff_run.mp h)
  obtain ⟨next, hw⟩ := hb.lexeme_of_mem t ht
  exact hw.before free_none

/-- A lexeme by itself is a source of one token. -/
theorem Lexeme.tokenize {kind : Kind} {text : String} (h : Lexeme kind text.toList none) :
    Sexpr.tokenize text = .ok [⟨kind, text, Position.start.after text.toList⟩] := by
  have hcut : Cut .start (text.toList ++ [])
      [⟨kind, String.ofList text.toList, Position.start.after text.toList⟩] :=
    Cut.lexeme h (Cut.last (Or.inl Gap.nil))
  have hread := hcut.tokenize
  rwa [List.append_nil, String.ofList_toList] at hread

/-- **Faithful tokens are lexemes.** -/
theorem faithful_iff {t : Token} :
    t.Faithful ↔ t.kind.isAtomic = true ∧ Lexeme t.kind t.text.toList none := by
  constructor
  · rintro ⟨ha, u, hu, halike⟩
    obtain ⟨hk, ht⟩ := alike_iff.mp halike
    have hw := lexeme_of_mem hu u List.mem_cons_self
    rw [hk, ht] at hw
    exact ⟨ha, hw⟩
  · rintro ⟨ha, hw⟩
    exact ⟨ha, _, hw.tokenize, alike_iff.mpr ⟨rfl, rfl⟩⟩

/-- **The scanner returns faithful tokens**, brackets and markers aside. -/
theorem faithful_of_mem {source : String} {ts : List Token} (h : Sexpr.tokenize source = .ok ts)
    {t : Token} (ht : t ∈ ts) (ha : t.kind.isAtomic = true) : t.Faithful :=
  faithful_iff.mpr ⟨ha, lexeme_of_mem h t ht⟩

theorem Faithful.of_alike {t u : Token} (h : t.Faithful) (ha : t.alike u = true) : u.Faithful := by
  obtain ⟨hk, ht⟩ := alike_iff.mp ha
  rw [faithful_iff] at h ⊢
  rwa [hk, ht] at h

end Sexpr.Token
