/-
# Two stages in one step

A source is read in one step by `readForm` and `readForms`.  The same can be done stage by stage:
`tokenize` the source, and give the tokens to `Form.parse` or `Form.parseAll`.

**One step does what the two stages do, for the source without its mark.**  Only the second stage
knows less when it stands alone: it has no source to quote.  That plays no part in what it makes, or
in what it reports and where (`Form.Fault.diagnose_alike`).

**For the source itself it does so unless the source begins with two marks.**  One step drops a mark
before it cuts the source, and cutting drops one of its own.  Of two marks at the front nothing is
left, where stage by stage the second one is refused (`tokenize_of_two_marks`).  One step may refuse
a third, but the line that it quotes is then one mark shorter.
-/
import Sexpr.Proofs.Token.Reading
import Sexpr.Source

namespace Sexpr

/-! ## 1. Stage by stage -/

/-- `both` does in one step what `first` and `second` do one after the other: it makes the same, and
a fault of either stage is its fault, with the same cause and place.  The first stage is also quoted
as it is. -/
structure StageByStage {α : Type} (first : Except Token.Error (List Token))
    (second : List Token → Except Form.Error α) (both : Except Error α) : Prop where
  succeeds : ∀ x, both = .ok x ↔ ∃ tokens, first = .ok tokens ∧ second tokens = .ok x
  lexical : ∀ e, first = .error e → both = .error (.lexical e)
  parsing : ∀ tokens e, first = .ok tokens → second tokens = .error e →
    ∃ e', both = .error (.parsing e') ∧ e'.cause = e.cause ∧ e'.position = e.position

/-- **One step is the two stages, for the source without its mark**, whatever the tokens are run
through. -/
theorem withTokens_stageByStage {α : Type} (source : String)
    (run : List Token → Except Form.Fault α) :
    StageByStage (tokenize (Text.withoutMark source))
      (fun tokens => (run tokens).mapError (Form.Fault.diagnose none))
      (withTokens source fun tokens text =>
        (run tokens).mapError (Form.Fault.diagnose (some text))) where
  succeeds x := by simp only [withTokens_eq_ok_iff, mapError_eq_ok_iff]
  lexical e he := by rw [withTokens_eq, he]
  parsing tokens e htokens he := by
    obtain ⟨f, hf, rfl⟩ := mapError_eq_error_iff.mp he
    refine ⟨f.diagnose (some (Text.withoutMark source)), ?_, f.diagnose_alike _ _⟩
    simp only [withTokens_eq, htokens, hf]
    rfl

theorem readForm_stageByStage (source : String) :
    StageByStage (tokenize (Text.withoutMark source)) (Form.parse · none) (readForm source) := by
  simp only [readForm, Form.parse_eq]
  exact withTokens_stageByStage source fun tokens =>
    (Form.Reader.run .one tokens).map fun forms => forms.getLast?.getD .empty

theorem readForms_stageByStage (source : String) :
    StageByStage (tokenize (Text.withoutMark source)) (Form.parseAll · none) (readForms source) :=
  withTokens_stageByStage source (Form.Reader.run .many)

/-! ## 2. Marks -/

/-- The text begins with two byte order marks. -/
def TwoMarks (source : String) : Prop := ['\uFEFF', '\uFEFF'] <+: source.toList

theorem tokenize_of_mark {source : String} {cs : List Char} (h : source.toList = '\uFEFF' :: cs) :
    tokenize source =
      (Token.Scan.run cs).mapError (Token.Fault.diagnose (String.ofList cs)) := by
  simp only [tokenize, Text.withoutMark_of_mark h, String.toList_ofList]

/-- One mark is dropped by the first stage anyway. -/
theorem tokenize_withoutMark {source : String} (h : ¬ TwoMarks source) :
    tokenize (Text.withoutMark source) = tokenize source := by
  by_cases hm : source.toList.head? = some '\uFEFF'
  · obtain ⟨cs, hcs⟩ := List.head?_eq_some_iff.mp hm
    have hrest : (String.ofList cs).toList.head? ≠ some '\uFEFF' := by
      intro hsecond
      rw [String.toList_ofList] at hsecond
      obtain ⟨rest, rfl⟩ := List.head?_eq_some_iff.mp hsecond
      exact h ⟨rest, hcs.symm⟩
    rw [Text.withoutMark_of_mark hcs, tokenize_eq_run hrest, tokenize_of_mark hcs,
      String.toList_ofList]
  · rw [Text.withoutMark_of_head hm]

/-- The second of two marks is refused. -/
theorem tokenize_of_two_marks {source : String} {cs : List Char}
    (h : source.toList = '\uFEFF' :: '\uFEFF' :: cs) :
    tokenize source = .error ⟨.unexpected '\uFEFF', ⟨1, 1⟩,
      Text.line (String.ofList ('\uFEFF' :: cs)) 1⟩ := by
  rw [tokenize_of_mark h]
  rfl

/-- In one step, two marks are not refused as they are stage by stage. -/
theorem withTokens_not_stageByStage {α : Type} {source : String} (h : TwoMarks source)
    (second : List Token → Except Form.Error α) (next : List Token → String → Except Form.Error α) :
    ¬ StageByStage (tokenize source) second (withTokens source next) := by
  intro hs
  obtain ⟨cs, hcs⟩ := h
  have hmarks : (Text.withoutMark source).toList = '\uFEFF' :: cs := by
    rw [Text.withoutMark_of_mark hcs.symm, String.toList_ofList]
    rfl
  have hboth := hs.lexical _ (tokenize_of_two_marks hcs.symm)
  rw [withTokens_eq] at hboth
  cases htokens : tokenize (Text.withoutMark source) with
  | ok tokens =>
    rw [htokens] at hboth
    obtain ⟨e, -, he⟩ := mapError_eq_error_iff.mp hboth
    exact absurd he nofun
  | error e =>
    rw [htokens] at hboth
    obtain rfl := Error.lexical.inj (Except.error.inj hboth)
    -- the same cause at the same place, but each route quotes its own text
    rw [tokenize_of_mark hmarks] at htokens
    obtain ⟨f, -, hf⟩ := mapError_eq_error_iff.mp htokens
    obtain ⟨-, hplace, hline⟩ := Diagnosis.mk.inj hf
    rw [hplace, ← String.toList_inj, Text.line_one_cons (by decide) (by decide)] at hline
    exact List.cons_ne_self _ _ hline.symm

/-! ## 3. Both readers -/

/-- **Reading in one step and stage by stage.**  Both readers do in one step what the two stages do
with the source without its mark.  With the source itself they do so exactly if it does not begin
with two marks. -/
theorem readers_stageByStage_iff (source : String) :
    StageByStage (tokenize (Text.withoutMark source)) (Form.parse · none) (readForm source) ∧
      StageByStage (tokenize (Text.withoutMark source)) (Form.parseAll · none) (readForms source) ∧
      (StageByStage (tokenize source) (Form.parse · none) (readForm source) ↔
        ¬ TwoMarks source) ∧
      (StageByStage (tokenize source) (Form.parseAll · none) (readForms source) ↔
        ¬ TwoMarks source) := by
  refine ⟨readForm_stageByStage source, readForms_stageByStage source,
    ⟨fun h hm => withTokens_not_stageByStage hm _ _ h, fun hm => ?_⟩,
    ⟨fun h hm => withTokens_not_stageByStage hm _ _ h, fun hm => ?_⟩⟩
  · rw [← tokenize_withoutMark hm]
    exact readForm_stageByStage source
  · rw [← tokenize_withoutMark hm]
    exact readForms_stageByStage source

/-- Behind two marks a source is read in one step that cannot be cut into tokens. -/
theorem not_stageByStage_behind_two_marks :
    ¬ StageByStage (tokenize "\uFEFF\uFEFFa") (Form.parse · none) (readForm "\uFEFF\uFEFFa") ∧
      ¬ StageByStage (tokenize "\uFEFF\uFEFFa") (Form.parseAll · none)
        (readForms "\uFEFF\uFEFFa") := by
  have htokens : tokenize "\uFEFF\uFEFFa" =
      .error ⟨.unexpected '\uFEFF', ⟨1, 1⟩, "\uFEFFa"⟩ := by rfl
  have hone : readForm "\uFEFF\uFEFFa" =
      .ok (.atom none ⟨1, 1⟩ ⟨.identifier, "a", ⟨1, 1⟩⟩) := by rfl
  have hall : readForms "\uFEFF\uFEFFa" =
      .ok [.atom none ⟨1, 1⟩ ⟨.identifier, "a", ⟨1, 1⟩⟩] := by rfl
  constructor
  · intro h
    exact absurd (hone.symm.trans (h.lexical _ htokens)) nofun
  · intro h
    exact absurd (hall.symm.trans (h.lexical _ htokens)) nofun

end Sexpr
