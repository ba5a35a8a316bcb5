/-
# Parts of lexemes and gaps

What is left of a lexeme or a gap when the source is cut off inside it.

**A gap is left a last gap**: blanks, ended comments, and perhaps a comment that is not ended.  **A
lexeme is left a lexeme of its own, or a fault at the end** (`Lexeme.part`).  Part of a word is a
word, and part of a number is a number, except for the sign alone and the point alone.  Part of a
string is never closed.  Part of a character literal is spelled like one, and is one if it happens
to be two characters long; a backslash alone is not.

Which of these it is can be told from the kind of the lexeme and the part that is left
(`partCause`).
-/
import Sexpr.Proofs.Token.Reading

namespace Sexpr.Token

/-! ## 1. Prefixes -/

/-- A prefix of two pieces is a prefix of the first, or runs on into the second. -/
theorem prefix_append_cases {α : Type} {q a b : List α} (h : q <+: a ++ b) :
    q <+: a ∨ ∃ q', q' ≠ [] ∧ q = a ++ q' ∧ q' <+: b := by
  obtain ⟨x, hx⟩ := h
  rcases List.append_eq_append_iff.mp hx with ⟨a', ha, -⟩ | ⟨q', hq, hb⟩
  · exact Or.inl ⟨a', ha.symm⟩
  · by_cases hne : q' = []
    · rw [hne, List.append_nil] at hq
      exact Or.inl (hq ▸ List.prefix_refl a)
    · exact Or.inr ⟨q', hne, hq, x, hb.symm⟩

/-! ## 2. Gaps -/

theorem Gap.lastGap_of_prefix {g : List Char} (h : Gap g) : ∀ q, q <+: g → LastGap q := by
  induction h with
  | nil =>
    intro q hq
    rw [List.prefix_nil.mp hq]
    exact Or.inl Gap.nil
  | @blank c g hc _ ih =>
    intro q hq
    rcases List.prefix_cons_iff.mp hq with rfl | ⟨q', rfl, hq'⟩
    · exact Or.inl Gap.nil
    · exact (Gap.blank hc Gap.nil).lastGap_append (ih q' hq')
  | @comment text g ht _ ih =>
    intro q hq
    have opened : ∀ text', text' <+: text → LastGap (';' :: text') := fun text' htext =>
      Or.inr ⟨[], text', Gap.nil, fun hmem => ht (htext.subset hmem), rfl⟩
    rcases List.prefix_cons_iff.mp hq with rfl | ⟨q', rfl, hq'⟩
    · exact Or.inl Gap.nil
    rcases prefix_append_cases hq' with htext | ⟨q'', hne, rfl, hq''⟩
    · exact opened q' htext
    rcases List.prefix_cons_iff.mp hq'' with rfl | ⟨rest, rfl, hrest⟩
    · exact absurd rfl hne
    · have hclosed := (Gap.comment ht Gap.nil).lastGap_append (ih rest hrest)
      simpa using hclosed

theorem LastGap.of_prefix {l q : List Char} (h : LastGap l) (hq : q <+: l) : LastGap q := by
  rcases h with h | ⟨g, text, hg, ht, rfl⟩
  · exact h.lastGap_of_prefix q hq
  rcases prefix_append_cases hq with hq | ⟨q', -, rfl, hq'⟩
  · exact hg.lastGap_of_prefix q hq
  rcases List.prefix_cons_iff.mp hq' with rfl | ⟨text', rfl, htext⟩
  · rw [List.append_nil]
    exact Or.inl hg
  · exact Or.inr ⟨g, text', hg, fun hmem => ht (htext.subset hmem), rfl⟩

/-! ## 3. What the end of a source refuses -/

/-- What is wrong with the part `w` of a lexeme of this kind where the source ends behind it, if
anything is. -/
def partCause (kind : Kind) (w : String) : Option Cause :=
  if kind = .string then some .unclosedString
  else if kind = .character ∧ ¬ (w.length = 2 ∨ w ∈ namedCharacters) then
    some (.invalidCharacter w)
  else if w = "~" then some (.unexpected '~')
  else if w = "." then some (.unexpected '.')
  else none

namespace Scan

/-- A source may not end behind `w`, read between two tokens: the fault stands at the end. -/
def Fails (w : List Char) (cause : Cause) : Prop :=
  ∀ (p : Position) (ts : Array Token),
    ((between p ts).read w none).bind finish = .error ⟨cause, p.after w⟩

theorem fails_sign : Fails [negation] (.unexpected negation) := fun _ _ => rfl

theorem fails_point : Fails ['.'] (.unexpected '.') := fun _ _ => rfl

theorem close_of_kind_error {m : Mode} {shape : Shape} {w : String} {p : Position}
    {ts : Array Token} {cause : Cause} (h : shape.kind w = .error cause) :
    (⟨m, w, p, ts⟩ : Scan).close shape = .error ⟨cause, p⟩ := by
  simp only [close, h]

theorem fails_backslash : Fails ['\\'] (.invalidCharacter "\\") := by
  intro p ts
  have hk : Shape.character.kind "\\" = .error (.invalidCharacter "\\") := by
    rw [Shape.kind, if_neg (by decide)]
  exact close_of_kind_error hk

/-- A literal that is neither one character nor the name of a blank. -/
theorem fails_spelled {w : List Char} (h : IsSpelled w)
    (hw : ¬ ((String.ofList w).length = 2 ∨ String.ofList w ∈ namedCharacters)) :
    Fails w (.invalidCharacter (String.ofList w)) := by
  intro p ts
  have hk : Shape.character.kind (String.ofList w) =
      .error (.invalidCharacter (String.ofList w)) := by
    rw [Shape.kind, if_neg hw]
  rw [read_spelled_to_close h (by simp), close_of_kind_error hk]
  rfl

/-- A string is read on behind its opening quote. -/
theorem read_quote {p : Position} {ts : Array Token} {ahead : Option Char} {cs : List Char} :
    (between p ts).read ('"' :: cs) ahead =
      (⟨.string false, "".push '"', p.advance '"', ts⟩ : Scan).read cs ahead :=
  read_cons_keep rfl

theorem fails_string {body : List Char} (h : StringBody body) :
    Fails ('"' :: body) .unclosedString := by
  intro p ts
  rw [read_quote, read_body h]
  rfl

theorem fails_escape {body : List Char} (h : StringBody body) :
    Fails ('"' :: (body ++ ['\\'])) .unclosedString := by
  intro p ts
  have hplace : p.after ('"' :: (body ++ ['\\'])) = ((p.advance '"').after body).advance '\\' := by
    simp
  rw [read_quote, read_append_of_ok (read_body h _ _), hplace]
  rfl

/-- Behind a lexeme a source may end. -/
theorem not_fails_of_lexeme {kind : Kind} {w : List Char} {cause : Cause}
    (h : Lexeme kind w none) : ¬ Fails w cause := by
  intro hf
  have hread := hf .start #[]
  rw [read_lexeme h] at hread
  exact absurd hread nofun

end Scan

open Scan (IsSpelled Fails)

/-! ## 4. Parts of lexemes -/

theorem IsWord.of_append {w rest : List Char} (h : IsWord (w ++ rest)) (hne : w ≠ []) :
    IsWord w := by
  obtain ⟨c, cs, heq, hc, hcs⟩ := h
  obtain ⟨d, w, rfl⟩ := List.exists_cons_of_ne_nil hne
  obtain ⟨rfl, rfl⟩ := List.cons.inj heq
  exact ⟨d, w, rfl, hc, fun e he => hcs e (List.mem_append_left _ he)⟩

/-- Part of an integer literal: its sign, or one with fewer digits. -/
theorem IsInt.of_prefix {cs w : List Char} (h : IsInt cs) (hw : w <+: cs) (hne : w ≠ []) :
    w = [negation] ∨ IsInt w := by
  obtain ⟨sign, digits, rfl, hs, hd⟩ := h
  rcases prefix_append_cases hw with hw | ⟨ds, hds, rfl, hdigits⟩
  · rcases hs with rfl | rfl
    · exact absurd (List.prefix_nil.mp hw) hne
    · rcases List.prefix_cons_iff.mp hw with rfl | ⟨w', rfl, hw'⟩
      · exact absurd rfl hne
      · exact Or.inl (by rw [List.prefix_nil.mp hw'])
  · exact Or.inr ⟨sign, ds, rfl, hs, hds, fun d hmem => hd.2 d (hdigits.subset hmem)⟩

/-- Part of a floating-point literal: its sign, its point, or a number. -/
theorem IsFloat.of_prefix {cs w : List Char} (h : IsFloat cs) (hw : w <+: cs) (hne : w ≠ []) :
    w = [negation] ∨ w = ['.'] ∨ IsInt w ∨ IsFloat w := by
  rcases h with ⟨whole, digits, rfl, hwhole, hd⟩ | ⟨digits, rfl, hd⟩
  · rcases prefix_append_cases hw with hw | ⟨w', hne', rfl, hw'⟩
    · exact (hwhole.of_prefix hw hne).imp_right fun hint => Or.inr (Or.inl hint)
    · rcases List.prefix_cons_iff.mp hw' with rfl | ⟨ds, rfl, hds⟩
      · exact absurd rfl hne'
      · exact Or.inr (Or.inr (Or.inr (Or.inl
          ⟨whole, ds, rfl, hwhole, fun d hmem => hd d (hds.subset hmem)⟩)))
  · rcases List.prefix_cons_iff.mp hw with rfl | ⟨ds, rfl, hds⟩
    · exact absurd rfl hne
    · by_cases hnil : ds = []
      · exact Or.inr (Or.inl (by rw [hnil]))
      · exact Or.inr (Or.inr (Or.inr (Or.inr
          ⟨ds, rfl, hnil, fun d hmem => hd.2 d (hds.subset hmem)⟩)))

/-- Part of what stands in a string may end in the middle of an escape. -/
theorem StringBody.of_prefix {body : List Char} (h : StringBody body) : ∀ b, b <+: body →
    StringBody b ∨ ∃ b', StringBody b' ∧ b = b' ++ ['\\'] := by
  induction h with
  | nil =>
    intro b hb
    rw [List.prefix_nil.mp hb]
    exact Or.inl StringBody.nil
  | @plain c cs hq hback _ ih =>
    intro b hb
    rcases List.prefix_cons_iff.mp hb with rfl | ⟨b₁, rfl, hb₁⟩
    · exact Or.inl StringBody.nil
    rcases ih b₁ hb₁ with hbody | ⟨b', hbody, rfl⟩
    · exact Or.inl (StringBody.plain hq hback hbody)
    · exact Or.inr ⟨c :: b', StringBody.plain hq hback hbody, rfl⟩
  | @escape d cs hd _ ih =>
    intro b hb
    rcases List.prefix_cons_iff.mp hb with rfl | ⟨b₁, rfl, hb₁⟩
    · exact Or.inl StringBody.nil
    rcases List.prefix_cons_iff.mp hb₁ with rfl | ⟨b₂, rfl, hb₂⟩
    · exact Or.inr ⟨[], StringBody.nil, rfl⟩
    rcases ih b₂ hb₂ with hbody | ⟨b', hbody, rfl⟩
    · exact Or.inl (StringBody.escape hd hbody)
    · exact Or.inr ⟨'\\' :: d :: b', StringBody.escape hd hbody, rfl⟩

/-- Every proper part of a string is open. -/
theorem IsString.fails_of_append {w rest : List Char} (h : IsString (w ++ rest)) (hne : w ≠ [])
    (hr : rest ≠ []) : Fails w .unclosedString := by
  obtain ⟨body, hbody, heq⟩ := h
  obtain ⟨c, b, rfl⟩ := List.exists_cons_of_ne_nil hne
  obtain ⟨rfl, htail⟩ := List.cons.inj heq
  have hprefix : b <+: body := by
    rcases List.prefix_concat_iff.mp ⟨rest, htail⟩ with rfl | hb
    · exact absurd (List.append_cancel_left (htail.trans (List.append_nil _).symm)) hr
    · exact hb
  rcases hbody.of_prefix b hprefix with hb | ⟨b', hb, rfl⟩
  · exact Scan.fails_string hb
  · exact Scan.fails_escape hb

theorem IsCharacter.isSpelled {cs : List Char} (h : IsCharacter cs) : IsSpelled cs := by
  rcases h with ⟨c, hc, rfl⟩ | ⟨b, rfl⟩
  · exact ⟨c, [], rfl, hc, nofun⟩
  · exact Scan.isSpelled_literal b

theorem IsSpelled.of_append {w rest : List Char} (h : IsSpelled (w ++ rest)) (hne : w ≠ []) :
    w = ['\\'] ∨ IsSpelled w := by
  obtain ⟨c, letters, heq, hc, hl⟩ := h
  match w, hne, heq with
  | [d], _, heq =>
    obtain ⟨rfl, -⟩ := List.cons.inj heq
    exact Or.inl rfl
  | d :: e :: w, _, heq =>
    obtain ⟨rfl, htail⟩ := List.cons.inj heq
    obtain ⟨rfl, rfl⟩ := List.cons.inj htail
    exact Or.inr ⟨e, w, rfl, hc, fun x hx => hl x (List.mem_append_left _ hx)⟩

/-- What a part of a lexeme comes to at the end of a source: a fault or a lexeme, as told from the
kind of the whole. -/
def EndsAs (kind : Kind) (w : List Char) : Prop :=
  (∃ cause, partCause kind (String.ofList w) = some cause ∧ Fails w cause) ∨
    partCause kind (String.ofList w) = none ∧ ∃ kind', Lexeme kind' w none

/-- A part that is a lexeme by itself. -/
theorem endsAs_of_lexeme {kind kind' : Kind} {w : List Char} (hs : kind ≠ .string)
    (hc : kind = .character →
      (String.ofList w).length = 2 ∨ String.ofList w ∈ namedCharacters)
    (h : Lexeme kind' w none) : EndsAs kind w := by
  refine Or.inr ⟨?_, kind', h⟩
  have hsign : String.ofList w ≠ "~" := by
    intro he
    have hw : w = [negation] := by rw [← String.toList_ofList (l := w), he]; rfl
    exact Scan.not_fails_of_lexeme h (hw ▸ Scan.fails_sign)
  have hpoint : String.ofList w ≠ "." := by
    intro he
    have hw : w = ['.'] := by rw [← String.toList_ofList (l := w), he]; rfl
    exact Scan.not_fails_of_lexeme h (hw ▸ Scan.fails_point)
  rw [partCause, if_neg hs, if_neg (fun hk => hk.2 (hc hk.1)), if_neg hsign, if_neg hpoint]

/-- The sign and the point need a digit behind them. -/
theorem endsAs_sign {kind : Kind} (hs : kind ≠ .string) (hc : kind ≠ .character) :
    EndsAs kind [negation] :=
  Or.inl ⟨_, by rw [partCause, if_neg hs, if_neg (fun hk => hc hk.1)]; rfl, Scan.fails_sign⟩

theorem endsAs_point {kind : Kind} (hs : kind ≠ .string) (hc : kind ≠ .character) :
    EndsAs kind ['.'] :=
  Or.inl ⟨_, by rw [partCause, if_neg hs, if_neg (fun hk => hc hk.1)]; rfl, Scan.fails_point⟩

/-- A part of a character literal. -/
theorem endsAs_of_isSpelled {w : List Char} (h : IsSpelled w) : EndsAs .character w := by
  by_cases hv : (String.ofList w).length = 2 ∨ String.ofList w ∈ namedCharacters
  · have hk : Scan.Shape.character.kind (String.ofList w) = .ok .character := if_pos hv
    have hended : Scan.Ended .character w none := ⟨h, rfl⟩
    exact endsAs_of_lexeme nofun (fun _ => hv) (hended.lexeme hk)
  · exact Or.inl ⟨_, by rw [partCause, if_neg nofun, if_pos ⟨rfl, hv⟩], Scan.fails_spelled h hv⟩

theorem Kind.ofWord_ne (text : String) : ofWord text ≠ .string ∧ ofWord text ≠ .character := by
  unfold ofWord
  split <;> exact ⟨nofun, nofun⟩

/-- **A proper part of a lexeme** is a fault or a lexeme at the end of a source, as the kind of the
whole tells. -/
theorem Lexeme.part {kind : Kind} {w rest : List Char} {next : Option Char}
    (h : Lexeme kind (w ++ rest) next) (hw : w ≠ []) (hr : rest ≠ []) : EndsAs kind w := by
  generalize hcs : w ++ rest = cs at h
  have hprefix : w <+: cs := ⟨rest, hcs⟩
  cases h with
  | single _ =>
    have hlength := congrArg List.length hcs
    have hlw := List.length_pos_iff.mpr hw
    have hlr := List.length_pos_iff.mpr hr
    simp only [List.length_append, List.length_singleton] at hlength
    omega
  | word h _ =>
    obtain ⟨hs, hc⟩ := Kind.ofWord_ne (String.ofList cs)
    subst hcs
    exact endsAs_of_lexeme hs (fun hk => absurd hk hc) (Lexeme.word (h.of_append hw) free_none)
  | int h _ =>
    rcases h.of_prefix hprefix hw with rfl | hint
    · exact endsAs_sign nofun nofun
    · exact endsAs_of_lexeme nofun nofun (Lexeme.int hint free_none)
  | float h _ =>
    rcases h.of_prefix hprefix hw with rfl | rfl | hint | hfloat
    · exact endsAs_sign nofun nofun
    · exact endsAs_point nofun nofun
    · exact endsAs_of_lexeme nofun nofun (Lexeme.int hint free_none)
    · exact endsAs_of_lexeme nofun nofun (Lexeme.float hfloat free_none)
  | string h =>
    subst hcs
    exact Or.inl ⟨_, rfl, h.fails_of_append hw hr⟩
  | character h _ =>
    subst hcs
    rcases IsSpelled.of_append h.isSpelled hw with rfl | hspelled
    · exact Or.inl ⟨_, by decide, Scan.fails_backslash⟩
    · exact endsAs_of_isSpelled hspelled

end Sexpr.Token
