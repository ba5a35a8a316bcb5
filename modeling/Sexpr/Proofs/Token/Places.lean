/-
# Where tokens stand

Nothing of a source is lost or doubled: behind every gap stands the text of a token, to the letter,
and all of them together with the last gap are the source (`TakesApart`).  A token stands where its
last character does, and that place is counted in the source itself, without the scanner: its line
is one more than the line feeds up to there, and its column the number of characters since the last
of them.  This holds whatever stands before it, strings and comments of several lines included.

No lexeme is empty, so the places of the tokens strictly increase.
-/
import Sexpr.Proofs.Text.Lines
import Sexpr.Proofs.Token.Reading

namespace Sexpr

namespace Position

/-! ## 1. Earlier places -/

/-- Earlier in a text: on an earlier line, or before on the same line. -/
def Before (p q : Position) : Prop := p.line < q.line ∨ p.line = q.line ∧ p.column < q.column

theorem Before.trans {p q r : Position} (h : p.Before q) (h' : q.Before r) : p.Before r := by
  unfold Before at *
  omega

theorem before_advance (p : Position) (c : Char) : p.Before (p.advance c) := by
  unfold advance
  split
  · exact Or.inl (Nat.lt_succ_self _)
  · exact Or.inr ⟨rfl, Nat.lt_succ_self _⟩

/-- Whatever is read leads on. -/
theorem before_after : ∀ (cs : List Char) (p : Position), cs ≠ [] → p.Before (p.after cs)
  | [], _, h => absurd rfl h
  | [c], p, _ => before_advance p c
  | c :: d :: cs, p, _ => by
    have hrest := before_after (d :: cs) (p.advance c) (by simp)
    exact (before_advance p c).trans hrest

end Position

namespace Token

/-! ## 2. Sources taken apart -/

/-- The text that gaps and tokens make up by turns. -/
def woven (pieces : List (List Char × Token)) : List Char :=
  pieces.flatMap fun e => e.1 ++ e.2.text.toList

/-- The source is taken apart: into the tokens, each behind a gap, and the last gap. -/
structure TakesApart (source : List Char) (tokens : List Token)
    (pieces : List (List Char × Token)) (last : List Char) : Prop where
  tokens_eq : pieces.map Prod.snd = tokens
  source_eq : source = woven pieces ++ last
  gaps : ∀ e ∈ pieces, Gap e.1
  lastGap : LastGap last
  line_eq : ∀ k t, tokens[k]? = some t →
    t.position.line = 1 + (woven (pieces.take (k + 1))).count '\n'
  column_eq : ∀ k t, tokens[k]? = some t →
    t.position.column = ((woven (pieces.take (k + 1))).rtakeWhile (· ≠ '\n')).length

/-- The pieces of the grammar with the gaps kept; the place of a token is reached by reading
everything up to its end. -/
theorem Pieces.exists_woven {p : Position} {cs : List Char} {ahead : Option Char}
    {ts : List Token} (h : Pieces p cs ahead ts) :
    ∃ pieces : List (List Char × Token), pieces.map Prod.snd = ts ∧ cs = woven pieces ∧
      (∀ e ∈ pieces, Gap e.1) ∧
      ∀ k t, ts[k]? = some t → t.position = p.after (woven (pieces.take (k + 1))) := by
  induction h with
  | nil => exact ⟨[], rfl, rfl, nofun, nofun⟩
  | @cons p g w rest ahead kind ts hg hw _ ih =>
    obtain ⟨pieces, hts, rfl, hgaps, hplace⟩ := ih
    refine ⟨(g, ⟨kind, String.ofList w, p.after (g ++ w)⟩) :: pieces, by simp [hts],
      by simp [woven], ?_, ?_⟩
    · intro e he
      rcases List.mem_cons.mp he with rfl | he
      · exact hg
      · exact hgaps e he
    · intro k t hk
      cases k with
      | zero =>
        obtain rfl := Option.some.inj hk
        simp [woven]
      | succ k =>
        rw [hplace k t hk, ← Position.after_append]
        simp [woven]

/-- The places of the tokens lie behind `p` and strictly increase. -/
theorem Pieces.pairwise_before {p : Position} {cs : List Char} {ahead : Option Char}
    {ts : List Token} (h : Pieces p cs ahead ts) :
    (∀ t ∈ ts, p.Before t.position) ∧
      ts.Pairwise fun t u => t.position.Before u.position := by
  induction h with
  | nil => exact ⟨nofun, List.Pairwise.nil⟩
  | @cons p g w rest ahead kind ts hg hw _ ih =>
    have hp : p.Before (p.after (g ++ w)) := by
      refine Position.before_after _ p ?_
      simp [hw.ne_nil]
    refine ⟨?_, List.pairwise_cons.mpr ⟨ih.1, ih.2⟩⟩
    intro t ht
    rcases List.mem_cons.mp ht with rfl | ht
    · exact hp
    · exact hp.trans (ih.1 t ht)

/-- A source cut by the grammar is taken apart. -/
theorem Cut.takesApart {cs : List Char} {ts : List Token} (h : Cut .start cs ts) :
    ∃ pieces last, TakesApart cs ts pieces last := by
  obtain ⟨body, last, rfl, hb, hl⟩ := h
  obtain ⟨pieces, hts, rfl, hgaps, hplace⟩ := hb.exists_woven
  refine ⟨pieces, last, hts, rfl, hgaps, hl, ?_, ?_⟩
  · intro k t hk
    rw [hplace k t hk, Position.line_after_start]
  · intro k t hk
    rw [hplace k t hk, Position.column_after_start]

end Token

/-- **Tokens are lossless, and their places are true.**  A source that begins with no byte order
mark is its tokens and the gaps around them, every token stands where its last character does, and
the places strictly increase. -/
theorem tokenize_lossless {source : String} {tokens : List Token}
    (hm : source.toList.head? ≠ some '\uFEFF') (h : tokenize source = .ok tokens) :
    (∃ pieces last, Token.TakesApart source.toList tokens pieces last) ∧
      tokens.Pairwise fun t u => t.position.Before u.position := by
  rw [tokenize_eq_ok_iff_run, Text.withoutMark_of_head hm] at h
  have hcut := Token.Scan.run_cut h
  obtain ⟨body, last, hbody, hb, hl⟩ := hcut
  exact ⟨Token.Cut.takesApart ⟨body, last, hbody, hb, hl⟩, hb.pairwise_before.2⟩

/-- A comment, and a string that runs on over a line. -/
theorem tokenize_lossless_lines :
    ∃ tokens, tokens.map Token.position = [⟨1, 1⟩, ⟨3, 2⟩, ⟨3, 4⟩] ∧
      "a;b\n \"c\nd\" e".toList.head? ≠ some '\uFEFF' ∧
      tokenize "a;b\n \"c\nd\" e" = .ok tokens ∧
      (∃ pieces last, Token.TakesApart "a;b\n \"c\nd\" e".toList tokens pieces last) ∧
      tokens.Pairwise fun t u => t.position.Before u.position := by
  have hm : "a;b\n \"c\nd\" e".toList.head? ≠ some '\uFEFF' := by decide
  have h : tokenize "a;b\n \"c\nd\" e" =
      .ok [⟨.identifier, "a", ⟨1, 1⟩⟩, ⟨.string, "\"c\nd\"", ⟨3, 2⟩⟩,
        ⟨.identifier, "e", ⟨3, 4⟩⟩] := by rfl
  exact ⟨_, rfl, hm, h, tokenize_lossless hm h⟩

end Sexpr
