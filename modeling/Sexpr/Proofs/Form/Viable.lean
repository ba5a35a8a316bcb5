/-
# The earliest fault

Some tokens are viable if they can be gone on with until they are the tokens of forms.  **The reader takes
tokens as long as they are viable, and no longer** (`viable_iff_takes`).  What it has taken can be
completed: by a form for the marker that waits, and by a closing bracket for every list that is open,
innermost first (`Reader.feedAll_closers`).  What it has refused it refuses whatever follows.

So a report names the first token that cannot stand where it does, or the last one where only the end is
too early (`parseAll_error_earliest`).  If no marker stands before it, a token that cannot stand where it
does is a closing bracket, and what it should have been is decided by the lists left open.
-/
import Mathlib.Order.Bounds.Basic
import Sexpr.Proofs.Form.Refusal

namespace Sexpr.Form

/-! ## 1. Completions -/

namespace Reader

/-- **Closing brackets** of the open lists, innermost first, close them all. -/
theorem feedAll_closers : ∀ (cs : List Token) (r : Reader) (bs : List Bracket), r.pending = none →
    r.stack.map OpenList.bracket = bs → cs.map Token.kind = bs.map Token.Kind.closing →
      ∃ r', r.feedAll .many cs = .ok r' ∧ r'.stack = [] ∧ r'.pending = none
  | [], r, bs, hp, hs, hc => by
    obtain rfl := List.map_eq_nil_iff.mp hc.symm
    exact ⟨r, rfl, List.map_eq_nil_iff.mp hs, hp⟩
  | c :: cs, r, bs, hp, hs, hc => by
    obtain ⟨b, bs, rfl, hk, hkinds⟩ := List.map_eq_cons_iff.mp hc.symm
    obtain ⟨l, rest, hstack, rfl, hrest⟩ := List.map_eq_cons_iff.mp hs
    have hstep : Step .many r c ({ r with stack := rest }.attach l.toForm) :=
      Step.closing hk.symm hstack hp
    obtain ⟨r', hread, hend⟩ := feedAll_closers cs ({ r with stack := rest }.attach l.toForm) bs
      (by rw [pending_attach, hp]) (by rw [brackets_attach, hrest]) hkinds.symm
    exact ⟨r', by rw [feedAll_of_step hstep, hread], hend⟩

/-- Whatever has been taken, it can be gone on with to an end. -/
theorem exists_completion (r : Reader) :
    ∃ us r', r.feedAll .many us = .ok r' ∧ r'.stack = [] ∧ r'.pending = none := by
  -- One form takes the marker, if one waits, and does no harm if none does.
  let a : Token := ⟨.colon, "", .start⟩
  let cs : List Token := r.stack.map fun l => ⟨.closing l.bracket, "", .start⟩
  have hatom : Step .many r a ({ r with pending := none }.attach (.atom r.pending .start a)) :=
    Step.atom rfl (Roomy.mayBegin (Or.inl rfl))
  have hkinds : cs.map Token.kind = (r.stack.map OpenList.bracket).map Token.Kind.closing := by
    simp [cs]
  obtain ⟨r', hread, hend⟩ := feedAll_closers cs
    ({ r with pending := none }.attach (.atom r.pending .start a)) _ (pending_attach _ _)
    (brackets_attach _ _) hkinds
  exact ⟨a :: cs, r', by rw [feedAll_of_step hatom, hread], hend⟩

theorem run_of_feedAll {arity : Arity} {ts : List Token} {r : Reader}
    (hread : initial.feedAll arity ts = .ok r) (hs : r.stack = []) (hp : r.pending = none) :
    run arity ts = .ok r.forms.toList :=
  run_eq_ok_iff_feedAll.mpr ⟨r, hread, finish_eq_ok_iff.mpr ⟨hs, hp, rfl⟩⟩

theorem Takes.of_append {arity : Arity} {us vs : List Token} (h : Takes arity (us ++ vs)) :
    Takes arity us := by
  obtain ⟨r, hread⟩ := h
  rw [feedAll_append] at hread
  cases hus : initial.feedAll arity us with
  | error f => rw [hus] at hread; exact absurd hread (by simp [Except.bind])
  | ok r' => exact ⟨r', hus⟩

theorem not_takes_of_error {arity : Arity} {us vs : List Token} {t : Token} {r : Reader}
    {cause : Cause} (hread : initial.feedAll arity us = .ok r) (hfeed : r.feed arity t = .error cause) :
    ¬ Takes arity (us ++ t :: vs) := by
  rintro ⟨r', hr'⟩
  rw [feedAll_append_of_ok hread, feedAll, hfeed] at hr'
  exact absurd hr' (by simp)

end Reader

/-! ## 2. Viable tokens -/

/-- Some tokens can follow with which these are the tokens of forms. -/
def Viable (ts : List Token) : Prop := ∃ us forms, parseAll (ts ++ us) none = .ok forms

/-- **Tokens are viable exactly as long as the reader takes them.** -/
theorem viable_iff_takes {ts : List Token} : Viable ts ↔ Reader.Takes .many ts := by
  constructor
  · rintro ⟨us, forms, h⟩
    obtain ⟨r, hread, -⟩ := Reader.run_eq_ok_iff_feedAll.mp (parseAll_eq_ok_iff_run.mp h)
    exact Reader.Takes.of_append ⟨r, hread⟩
  · rintro ⟨r, hread⟩
    obtain ⟨us, r', hus, hs, hp⟩ := r.exists_completion
    refine ⟨us, r'.forms.toList, parseAll_eq_ok_iff_run.mpr (Reader.run_of_feedAll ?_ hs hp)⟩
    rw [Reader.feedAll_append_of_ok hread, hus]

/-- The reader stops behind the longest viable prefix. -/
theorem Reader.Stops.isGreatest {f : Fault} {us vs : List Token} (h : Stops .many f us vs) :
    IsGreatest {j | j ≤ (us ++ vs).length ∧ Viable ((us ++ vs).take j)} us.length := by
  constructor
  · refine ⟨by simp, ?_⟩
    rw [List.take_left, viable_iff_takes]
    cases h with
    | refused hread _ | unfinished hread _ => exact ⟨_, hread⟩
  · rintro j ⟨hj, hviable⟩
    by_contra hlt
    cases h with
    | @refused _ vs t r cause hread hfeed =>
      obtain ⟨i, rfl⟩ : ∃ i, j = us.length + (i + 1) := ⟨j - us.length - 1, by omega⟩
      rw [List.take_length_add_append, List.take_succ_cons, viable_iff_takes] at hviable
      exact Reader.not_takes_of_error hread hfeed hviable
    | unfinished _ _ =>
      rw [List.append_nil] at hj
      exact hlt hj

/-! ## 3. The earliest fault -/

/-- Why a token is refused, by the tokens in front of it.  Where no marker waits it closes no list or one
of another kind, and behind a marker another one is refused for that. -/
theorem Reader.Refusal.cause_of_tells {r : Reader} {us : List Token} {t : Token} {cause : Cause}
    (h : Refusal .many r t cause) (htells : Tells us r) :
    (waiting us = none → ∃ b, t.kind = .closing b ∧ (leftOpen us = [] → cause = .strayClose) ∧
        ∀ b' bs, leftOpen us = b' :: bs → b' ≠ b ∧ cause = .wrongClose b' b) ∧
      ∀ m m', waiting us = some m → t.kind = .marker m' → cause = .adjacentMarkers := by
  obtain ⟨hbrackets, hpending, -⟩ := htells
  cases h with
  | @stray b hk hs =>
    have hnone : leftOpen us = [] := by rw [← hbrackets, hs]; rfl
    refine ⟨fun _ => ⟨b, hk, fun _ => rfl, fun b' bs hsome => ?_⟩, fun m m' _ hm => ?_⟩
    · exact absurd (hnone.symm.trans hsome) (by simp)
    · exact absurd (hk.symm.trans hm) (by simp)
  | dangling hk _ hp =>
    refine ⟨fun hw => absurd (hpending.trans hw) hp, fun m m' _ hm => ?_⟩
    exact absurd (hk.symm.trans hm) (by simp)
  | @wrong b l rest hk hs hp hb =>
    have hsome : leftOpen us = l.bracket :: rest.map OpenList.bracket := by rw [← hbrackets, hs]; rfl
    refine ⟨fun _ => ⟨b, hk, fun hnone => ?_, fun b' bs h => ?_⟩, fun m m' _ hm => ?_⟩
    · exact absurd (hsome.symm.trans hnone) (by simp)
    · obtain ⟨rfl, -⟩ := List.cons.inj (hsome.symm.trans h)
      exact ⟨hb, rfl⟩
    · exact absurd (hk.symm.trans hm) (by simp)
  | adjacent _ _ hp => exact ⟨fun hw => absurd (hpending.trans hw) hp, fun _ _ _ _ => rfl⟩
  | second _ hb => exact absurd hb (by simp [mayBegin])

/-- A refusal is the same for all tokens that agree up to the token refused. -/
theorem parseAll_of_take_eq {us vs ws : List Token} {t : Token} {r : Reader} {cause : Cause}
    (hread : Reader.initial.feedAll .many us = .ok r) (h : Reader.Refusal .many r t cause)
    (hws : ws.take (us.length + 1) = (us ++ t :: vs).take (us.length + 1)) (source? : Option String) :
    parseAll ws source? = .error ⟨cause, t.position, lineOf source? t⟩ := by
  rw [List.take_length_add_append, List.take_succ_cons, List.take_zero] at hws
  have hsplit : us ++ t :: ws.drop (us.length + 1) = ws := by
    rw [List.append_cons, ← hws, List.take_append_drop]
  rw [← hsplit]
  exact parseAll_of_refusal hread h _ source?

/-- Where no marker waits, the closing brackets of the open lists are all that is missing. -/
theorem exists_parseAll_of_closers {us cs : List Token} {r : Reader}
    (hread : Reader.initial.feedAll .many us = .ok r) (hp : r.pending = none)
    (hcs : cs.map Token.kind = (leftOpen us).map .closing) (source? : Option String) :
    ∃ forms, parseAll (us ++ cs) source? = .ok forms := by
  obtain ⟨hbrackets, -, -⟩ := Reader.tells_of_feedAll hread
  obtain ⟨r', hclosed, hs', hp'⟩ := Reader.feedAll_closers cs r _ hp hbrackets hcs
  refine ⟨r'.forms.toList, parseAll_eq_ok_iff_run.mpr (Reader.run_of_feedAll ?_ hs' hp')⟩
  rw [Reader.feedAll_append_of_ok hread, hclosed]

/-- **The earliest fault is reported.**  Let `k` be the length of the longest prefix that is viable.  If it
is not the whole, the report is at the token behind it and is decided by the tokens up to there: this token
is a closing bracket, of no list or of the wrong kind for the innermost one, if no marker stands before it;
and if it is a marker behind a marker, then the report is about that.  If it is the whole, the report is
at the last token, and unless this is a marker, what is missing are the closing brackets of the open lists,
which there are as many of as opening brackets exceed closing ones. -/
theorem parseAll_error_earliest {ts : List Token} {source? : Option String} {e : Error}
    (h : parseAll ts source? = .error e) :
    ∃ k, IsGreatest {j | j ≤ ts.length ∧ Viable (ts.take j)} k ∧
      (∀ t, ts[k]? = some t →
        e.position = t.position ∧
        (∀ us, us.take (k + 1) = ts.take (k + 1) → parseAll us source? = .error e) ∧
        (waiting (ts.take k) = none → ∃ b, t.kind = .closing b ∧
          (leftOpen (ts.take k) = [] → e.cause = .strayClose) ∧
          ∀ b' bs, leftOpen (ts.take k) = b' :: bs → b' ≠ b ∧ e.cause = .wrongClose b' b) ∧
        ∀ m m', waiting (ts.take k) = some m → t.kind = .marker m' → e.cause = .adjacentMarkers) ∧
      (k = ts.length →
        (∃ t, ts.getLast? = some t ∧ e.position = t.position) ∧
        (waiting ts = none →
          leftOpen ts ≠ [] ∧ e.cause = .unclosed (leftOpen ts).length ∧
          (leftOpen ts).length + closings ts = openings ts ∧
          ∀ cs, cs.map Token.kind = (leftOpen ts).map .closing →
            ∃ forms, parseAll (ts ++ cs) source? = .ok forms)) := by
  obtain ⟨f, hrun, rfl⟩ := parseAll_eq_error_iff.mp h
  obtain ⟨us, vs, rfl, hstops⟩ := Reader.run_eq_error_iff.mp hrun
  refine ⟨us.length, hstops.isGreatest, ?_⟩
  cases hstops with
  | @refused _ vs t r cause hread hfeed =>
    have hrefusal := Reader.feed_eq_error_iff.mp hfeed
    have htells := Reader.tells_of_feedAll hread
    refine ⟨?_, fun hk => ?_⟩
    · intro t' ht'
      obtain rfl : t = t' := by simpa using ht'
      rw [List.take_left]
      refine ⟨rfl, ?_, hrefusal.cause_of_tells htells⟩
      intro ws hws
      exact parseAll_of_take_eq hread hrefusal hws source?
    · simp at hk
  | @unfinished _ r cause hread hfinish =>
    have htells := Reader.tells_of_feedAll hread
    have hne := Reader.ne_nil_of_finish_error hread hfinish
    have hlast := List.getLast?_eq_some_getLast hne
    rw [List.append_nil]
    refine ⟨fun t ht => absurd ht (by simp), fun _ => ⟨⟨_, hlast, by rw [hlast]; rfl⟩, ?_⟩⟩
    intro hw
    have hp : r.pending = none := htells.pending.trans hw
    rcases Reader.finish_eq_error_iff.mp hfinish with ⟨hs, rfl⟩ | ⟨-, hpending, -⟩
    · refine ⟨mt htells.stack_eq_nil_iff.mpr hs, ?_, htells.balance, ?_⟩
      · rw [← htells.length_stack, hlast]
        rfl
      · intro cs hcs
        exact exists_parseAll_of_closers hread hp hcs source?
    · exact absurd hp hpending

/-- An opening bracket can be gone on with, and not with a closing bracket of the other kind. -/
theorem parseAll_error_earliest_wrong_bracket :
    ∃ o c : Token, o = ⟨.opening .square, "[", ⟨1, 1⟩⟩ ∧ c = ⟨.closing .round, ")", ⟨1, 2⟩⟩ ∧
      parseAll [o, c] none = .error ⟨.wrongClose .square .round, ⟨1, 2⟩, " )"⟩ ∧
      IsGreatest {j | j ≤ [o, c].length ∧ Viable ([o, c].take j)} 1 ∧
      ∀ us, us.take 2 = [o, c] →
        parseAll us none = .error ⟨.wrongClose .square .round, ⟨1, 2⟩, " )"⟩ := by
  have he : parseAll [⟨.opening .square, "[", ⟨1, 1⟩⟩, ⟨.closing .round, ")", ⟨1, 2⟩⟩] none =
      .error ⟨.wrongClose .square .round, ⟨1, 2⟩, " )"⟩ := by rfl
  obtain ⟨k, hk, hbefore, hend⟩ := parseAll_error_earliest he
  obtain rfl : k = 1 := by
    match k, hk.1.1 with
    | 0, _ => exact absurd (hbefore _ rfl).1 (by decide)
    | 1, _ => rfl
    | 2, _ => exact absurd ((hend rfl).2 rfl).2.1 (by decide)
  exact ⟨_, _, rfl, rfl, he, hk, (hbefore _ rfl).2.1⟩

end Sexpr.Form
