/-
# One form, and any number of them

Where one form is expected, the reader does what it does where any number may come, **until a second form
begins** (`Reader.feedAll_one_or`).  Only what begins a form asks how many there may be, and a closing
bracket begins none.  So the two part at the first token behind a complete form that is no closing bracket,
which one of them refuses and the other takes; and at a closing bracket there they fail alike.

A second form is never there to be dropped: with one form complete and no list open, the reader of one form
takes no token at all (`Reader.Sole`).  So the two return the same form, and report the same fault
(`parse_refines_parseAll`).
-/
import Sexpr.Proofs.Form.Refusal

namespace Sexpr.Form

namespace Reader

variable {r r' : Reader} {ts : List Token} {t : Token}

/-! ## 1. Where the two agree -/

/-- The number of forms is asked for only where one begins, and only if there is one already. -/
theorem feed_one_eq_many (h : r.mayBegin .one = true ∨ t.kind.closes? ≠ none) :
    r.feed .one t = r.feed .many t := by
  have hmany : r.mayBegin .many = true := Roomy.mayBegin (Or.inl rfl)
  unfold feed
  rcases h with hone | hcloses
  · rw [hone, hmany]
  · cases hk : t.kind with
    | closing b => rfl
    | _ => exact absurd (by rw [hk]; rfl) hcloses

/-- **The two runs agree, or a second form begins**, and until then they agree. -/
theorem feedAll_one_or : ∀ (ts : List Token) (r : Reader), r.feedAll .one ts = r.feedAll .many ts ∨
    ∃ us t vs r', ts = us ++ t :: vs ∧ r.feedAll .one us = .ok r' ∧ r.feedAll .many us = .ok r' ∧
      r'.mayBegin .one = false ∧ t.kind.closes? = none
  | [], r => Or.inl rfl
  | t :: ts, r => by
    by_cases h : r.mayBegin .one = true ∨ t.kind.closes? ≠ none
    · have hfeed := feed_one_eq_many h
      cases hmany : r.feed .many t with
      | error cause =>
        left
        rw [feedAll, feedAll, hfeed, hmany]
      | ok r₁ =>
        rw [hmany] at hfeed
        rcases feedAll_one_or ts r₁ with heq | ⟨us, u, vs, r', rfl, hone, hmany', hb, hu⟩
        · left
          rw [feedAll, feedAll, hfeed, hmany]
          exact heq
        · right
          refine ⟨t :: us, u, vs, r', rfl, ?_, ?_, hb, hu⟩
          · rw [feedAll, hfeed]
            exact hone
          · rw [feedAll, hmany]
            exact hmany'
    · obtain ⟨hb, hk⟩ := not_or.mp h
      exact Or.inr ⟨[], t, ts, r, rfl, rfl, rfl, by simpa using hb, not_not.mp hk⟩

/-! ## 2. One form is all there is -/

/-- What the reader of one form can know: no form is complete, or one is and that is all. -/
inductive Sole : Reader → Prop
  | incomplete {r : Reader} (hf : r.forms = #[]) : Sole r
  | complete (f : Form) : Sole ⟨[], none, #[f]⟩

theorem Sole.of_attach (hf : r.forms = #[]) (hp : r.pending = none) (f : Form) :
    Sole (r.attach f) := by
  obtain ⟨stack, pending, forms⟩ := r
  obtain rfl : forms = #[] := hf
  obtain rfl : pending = none := hp
  cases stack with
  | nil => exact Sole.complete f
  | cons l rest => exact Sole.incomplete rfl

/-- **One token** keeps it so, and there is none if a form is complete. -/
theorem Sole.feed (h : Sole r) (hfeed : r.feed .one t = .ok r') : Sole r' := by
  rw [feed_eq_ok_iff] at hfeed
  cases h with
  | incomplete hf =>
    cases hfeed with
    | marker _ _ _ | opening _ _ => exact Sole.incomplete hf
    | @closing l rest _ _ hp => exact Sole.of_attach (r := { r with stack := rest }) hf hp _
    | atom _ _ => exact Sole.of_attach (r := { r with pending := none }) hf rfl _
  | complete f =>
    cases hfeed with
    | marker _ hb _ | opening _ hb | atom _ hb => exact absurd hb (by simp [mayBegin])
    | closing _ hs _ => exact absurd hs (by simp)

theorem sole_of_feedAll (h : initial.feedAll .one ts = .ok r) : Sole r :=
  feedAll_keeps (P := fun _ r => Sole r) Sole.feed ts [] initial r (Sole.incomplete rfl) h

/-- No other form may begin once one is complete and nothing else is begun. -/
theorem Sole.eq_complete (h : Sole r) (hb : r.mayBegin .one = false) : ∃ f, r = ⟨[], none, #[f]⟩ := by
  cases h with
  | incomplete hf => exact absurd hb (by simp [mayBegin, hf])
  | complete f => exact ⟨f, rfl⟩

/-- Any tokens make exactly one form, if they are taken as such. -/
theorem exists_eq_singleton_of_run {forms : List Form} (hne : ts ≠ [])
    (h : run .one ts = .ok forms) : ∃ f, forms = [f] := by
  obtain ⟨r, hread, hfinish⟩ := run_eq_ok_iff_feedAll.mp h
  obtain ⟨-, -, rfl⟩ := finish_eq_ok_iff.mp hfinish
  cases sole_of_feedAll hread with
  | incomplete hf =>
    have hfits := fits_of_run h
    rw [hf] at hfits
    exact absurd (List.forall₂_nil_left_iff.mp hfits) hne
  | complete f => exact ⟨f, rfl⟩

end Reader

/-! ## 3. Second forms -/

/-- The first `k` tokens make one form, and `t` stands behind them and closes nothing. -/
def SecondAt (ts : List Token) (k : Nat) (t : Token) : Prop :=
  (∃ f, parseAll (ts.take k) none = .ok [f]) ∧ ts[k]? = some t ∧ t.kind.closes? = none

/-- **A second form is refused at its first token.** -/
theorem SecondAt.run {ts : List Token} {k : Nat} {t : Token} (h : SecondAt ts k t) :
    Reader.run .one ts = .error ⟨.secondForm, some t⟩ := by
  obtain ⟨⟨f, hf⟩, ht, hk⟩ := h
  have hfits : List.Forall₂ Slot.Fits f.linear (ts.take k) := by
    simpa [linearAll] using Reader.fits_of_run (parseAll_eq_ok_iff_run.mp hf)
  obtain ⟨r, hread, hfinish⟩ := Reader.run_eq_ok_iff_feedAll.mp (Reader.run_one_of_fits hfits)
  obtain ⟨hs, -, hforms⟩ := Reader.finish_eq_ok_iff.mp hfinish
  have hb : r.mayBegin .one = false := by
    have hne : r.forms ≠ #[] := fun hnil => by simp [hnil] at hforms
    simp [Reader.mayBegin, hs, hne]
  have hfeed := Reader.feed_eq_error_iff.mpr (Reader.Refusal.second hk hb)
  rw [← take_append_cons_drop ht]
  exact Reader.run_of_stops (Reader.Stops.refused hread hfeed)

example : SecondAt [⟨.identifier, "a", ⟨1, 1⟩⟩, ⟨.identifier, "b", ⟨1, 3⟩⟩] 1
    ⟨.identifier, "b", ⟨1, 3⟩⟩ := ⟨⟨_, rfl⟩, rfl, rfl⟩

/-- Without a second form the two runs come to the same. -/
theorem run_one_eq_many {ts : List Token} (h : ∀ k t, ¬ SecondAt ts k t) :
    Reader.run .one ts = Reader.run .many ts := by
  rcases Reader.feedAll_one_or ts .initial with heq | ⟨us, t, vs, r, rfl, hone, hmany, hb, hk⟩
  · rw [Reader.run, Reader.run, heq]
  · obtain ⟨f, rfl⟩ := (Reader.sole_of_feedAll hone).eq_complete hb
    refine absurd ⟨⟨f, ?_⟩, ?_, hk⟩ (h us.length t)
    · rw [List.take_left, parseAll_eq_ok_iff_run, Reader.run_eq_ok_iff_feedAll]
      exact ⟨_, hmany, rfl⟩
    · simp

/-! ## 4. Both readers -/

/-- **Reading one form, and reading any number.**  No tokens make the empty list.  Where a second form
begins, the reader of one form stops at its first token, whatever follows.  Everywhere else the two agree:
one of them makes a form exactly if the other makes this form alone, and their reports are the same. -/
theorem parse_refines_parseAll (ts : List Token) (source? : Option String) :
    (ts = [] → parse ts source? = .ok (.list none ⟨1, 0⟩ .round [])) ∧
      (∀ k t, SecondAt ts k t → ∀ us, us.take (k + 1) = ts.take (k + 1) →
        parse us source? = .error ⟨.secondForm, t.position, lineOf source? t⟩) ∧
      (ts ≠ [] → (∀ k t, ¬ SecondAt ts k t) →
        (∀ f, parse ts source? = .ok f ↔ parseAll ts source? = .ok [f]) ∧
          ∀ e, parse ts source? = .error e ↔ parseAll ts source? = .error e) := by
  refine ⟨?_, ?_, ?_⟩
  · rintro rfl
    rfl
  · rintro k t ⟨hf, ht, hk⟩ us hus
    have hbefore : us.take k = ts.take k := by
      simpa [List.take_take] using congrArg (List.take k) hus
    have hsecond : SecondAt us k t := by
      refine ⟨by rwa [hbefore], ?_, hk⟩
      have hget := congrArg (fun ws : List Token => ws[k]?) hus
      simpa [ht] using hget
    exact parse_eq_error_iff.mpr ⟨_, hsecond.run, rfl⟩
  · intro hne hnone
    have hrun := run_one_eq_many hnone
    constructor
    · intro f
      rw [parse_eq_ok_iff, parseAll_eq_ok_iff_run, ← hrun]
      constructor
      · rintro ⟨forms, hforms, hlast⟩
        obtain ⟨g, rfl⟩ := Reader.exists_eq_singleton_of_run hne hforms
        obtain rfl : g = f := hlast
        exact hforms
      · intro hforms
        exact ⟨[f], hforms, rfl⟩
    · intro e
      rw [parse_eq_error_iff, parseAll_eq_error_iff, hrun]

end Sexpr.Form
