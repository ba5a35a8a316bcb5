/-
# Where the reader stops, and why

The reader stops at the first token that it refuses, or behind the last one if lists are still open or a
marker still waits (`Reader.Stops`).  What it does with a token hangs on the lists that are open and on
the marker that waits, and **both can be read off the tokens taken** (`Reader.Tells`).  A closing bracket
takes the innermost list away, whatever stands in it, so the open lists are what brackets leave of each
other (`leftOpen`).  A marker waits for no longer than one token, so the one that waits is the last token
or there is none (`waiting`).

A marker that no form follows can be wrong in two ways at once, and then the brackets come first.  At the
end it is reported only if no list is open, and at a closing bracket only if the bracket has a list to
close (`parseAll_of_marker`).
-/
import Sexpr.Proofs.Form.Linear

namespace Sexpr.Form

/-! ## 1. Refusals -/

namespace Reader

/-- All that can stop the reader at a token. -/
inductive Refusal (arity : Arity) (r : Reader) (t : Token) : Cause → Prop
  | stray {b : Bracket} (hk : t.kind = .closing b) (hs : r.stack = []) :
      Refusal arity r t .strayClose
  | dangling {b : Bracket} (hk : t.kind = .closing b) (hs : r.stack ≠ []) (hp : r.pending ≠ none) :
      Refusal arity r t .danglingMarker
  | wrong {b : Bracket} {l : OpenList} {rest : List OpenList} (hk : t.kind = .closing b)
      (hs : r.stack = l :: rest) (hp : r.pending = none) (hb : l.bracket ≠ b) :
      Refusal arity r t (.wrongClose l.bracket b)
  | adjacent {m : Marker} (hk : t.kind = .marker m) (hb : r.mayBegin arity = true)
      (hp : r.pending ≠ none) : Refusal arity r t .adjacentMarkers
  | second (hk : t.kind.closes? = none) (hb : r.mayBegin arity = false) :
      Refusal arity r t .secondForm

variable {arity : Arity} {r : Reader} {t : Token} {cause : Cause}

theorem refusal_of_close {b : Bracket} (hk : t.kind = .closing b) (h : r.close b = .error cause) :
    Refusal arity r t cause := by
  unfold close at h
  cases hs : r.stack with
  | nil =>
    rw [hs] at h
    obtain rfl := Except.error.inj h
    exact Refusal.stray hk hs
  | cons l rest =>
    rw [hs] at h
    cases hp : r.pending with
    | some m =>
      rw [hp] at h
      obtain rfl := Except.error.inj h
      exact Refusal.dangling hk (by simp [hs]) (by simp [hp])
    | none =>
      by_cases hb : l.bracket = b
      · simp [hp, hb] at h
      · simp only [hp, if_pos hb] at h
        obtain rfl := Except.error.inj h
        exact Refusal.wrong hk hs hp hb

theorem guard_eq_error_iff {b : Bool} {x : Except Cause Reader} {cause' : Cause} :
    (if b then x else .error cause') = .error cause ↔
      b = true ∧ x = .error cause ∨ b = false ∧ cause' = cause := by
  cases b <;> simp

/-- **A token is refused exactly by a refusal.** -/
theorem feed_eq_error_iff : r.feed arity t = .error cause ↔ Refusal arity r t cause := by
  constructor
  · intro h
    cases hk : t.kind with
    | closing b =>
      rw [feed, hk] at h
      exact refusal_of_close hk h
    | opening b =>
      simp only [feed, hk] at h
      rcases guard_eq_error_iff.mp h with ⟨-, h⟩ | ⟨hb, rfl⟩
      · exact absurd h (by simp)
      · exact Refusal.second (by rw [hk]; rfl) hb
    | marker m =>
      simp only [feed, hk] at h
      rcases guard_eq_error_iff.mp h with ⟨hb, h⟩ | ⟨hb, rfl⟩
      · cases hp : r.pending with
        | none => simp [hp] at h
        | some m' =>
          rw [hp] at h
          obtain rfl := Except.error.inj h
          exact Refusal.adjacent hk hb (by simp [hp])
      · exact Refusal.second (by rw [hk]; rfl) hb
    | _ =>
      have ha : t.kind.isAtomic = true := by rw [hk]; rfl
      rw [feed_of_isAtomic ha] at h
      rcases guard_eq_error_iff.mp h with ⟨-, h⟩ | ⟨hb, rfl⟩
      · exact absurd h (by simp)
      · exact Refusal.second (by rw [hk]; rfl) hb
  · intro h
    cases h with
    | stray hk hs => simp [feed, hk, close, hs]
    | dangling hk hs hp =>
      obtain ⟨l, rest, hs⟩ := List.exists_cons_of_ne_nil hs
      obtain ⟨m, hp⟩ := Option.ne_none_iff_exists'.mp hp
      simp [feed, hk, close, hs, hp]
    | wrong hk hs hp hb => simp [feed, hk, close, hs, hp, hb]
    | adjacent hk hb hp =>
      obtain ⟨m, hp⟩ := Option.ne_none_iff_exists'.mp hp
      simp [feed, hk, hb, hp]
    | second hk hb =>
      cases hkind : t.kind with
      | closing b => simp [hkind, Token.Kind.closes?] at hk
      | _ => simp [feed, hkind, hb]

/-! ## 2. Runs that stop -/

/-- The reader stops with this fault when it has taken `us`, before `vs`.  Either it refuses the first
token of `vs`, or there is none and `us` may not end there. -/
inductive Stops (arity : Arity) : Fault → (us vs : List Token) → Prop
  | refused {us vs : List Token} {t : Token} {r : Reader} {cause : Cause}
      (hread : initial.feedAll arity us = .ok r) (hfeed : r.feed arity t = .error cause) :
      Stops arity ⟨cause, some t⟩ us (t :: vs)
  | unfinished {us : List Token} {r : Reader} {cause : Cause}
      (hread : initial.feedAll arity us = .ok r) (hfinish : r.finish = .error cause) :
      Stops arity ⟨cause, us.getLast?⟩ us []

/-- A run that is refused is refused at one token, and all before it are taken. -/
theorem feedAll_eq_error {f : Fault} : ∀ (ts : List Token) (r : Reader), r.feedAll arity ts = .error f →
    ∃ us t vs r' cause, ts = us ++ t :: vs ∧ r.feedAll arity us = .ok r' ∧
      r'.feed arity t = .error cause ∧ f = ⟨cause, some t⟩
  | [], r, h => absurd h (by simp [feedAll])
  | t :: ts, r, h => by
    rw [feedAll] at h
    cases hfeed : r.feed arity t with
    | error cause =>
      rw [hfeed] at h
      exact ⟨[], t, ts, r, cause, rfl, rfl, hfeed, (Except.error.inj h).symm⟩
    | ok r₁ =>
      rw [hfeed] at h
      obtain ⟨us, u, vs, r', cause, rfl, hread, hrefused, hf⟩ := feedAll_eq_error ts r₁ h
      refine ⟨t :: us, u, vs, r', cause, rfl, ?_, hrefused, hf⟩
      rw [feedAll, hfeed]
      exact hread

/-- **What every token keeps, a run keeps**, by induction on the tokens; `ts` are those taken before. -/
theorem feedAll_keeps {P : List Token → Reader → Prop}
    (hstep : ∀ {ts t r r'}, P ts r → r.feed arity t = .ok r' → P (ts ++ [t]) r') :
    ∀ (us ts : List Token) (r r' : Reader), P ts r → r.feedAll arity us = .ok r' → P (ts ++ us) r'
  | [], ts, r, r', h, hread => by
    obtain rfl := Except.ok.inj hread
    rwa [List.append_nil]
  | u :: us, ts, r, r', h, hread => by
    rw [feedAll] at hread
    cases hfeed : r.feed arity u with
    | error cause => simp [hfeed] at hread
    | ok r₁ =>
      rw [hfeed] at hread
      have hkept := feedAll_keeps hstep us (ts ++ [u]) r₁ r' (hstep h hfeed) hread
      rwa [List.append_assoc, List.singleton_append] at hkept

theorem run_of_stops {f : Fault} {us vs : List Token} (h : Stops arity f us vs) :
    run arity (us ++ vs) = .error f := by
  cases h with
  | refused hread hfeed => simp only [run, feedAll_append_of_ok hread, feedAll, hfeed]
  | unfinished hread hfinish =>
    rw [List.append_nil]
    simp only [run, hread, hfinish]
    rfl

/-- **A run fails exactly if it stops somewhere.** -/
theorem run_eq_error_iff {ts : List Token} {f : Fault} :
    run arity ts = .error f ↔ ∃ us vs, ts = us ++ vs ∧ Stops arity f us vs := by
  constructor
  · intro h
    unfold run at h
    cases hread : initial.feedAll arity ts with
    | error f' =>
      rw [hread] at h
      obtain rfl := Except.error.inj h
      obtain ⟨us, t, vs, r, cause, rfl, hus, hfeed, rfl⟩ := feedAll_eq_error ts initial hread
      exact ⟨us, t :: vs, rfl, Stops.refused hus hfeed⟩
    | ok r =>
      rw [hread] at h
      obtain ⟨cause, hfinish, rfl⟩ := mapError_eq_error_iff.mp h
      exact ⟨ts, [], (List.append_nil ts).symm, Stops.unfinished hread hfinish⟩
  · rintro ⟨us, vs, rfl, h⟩
    exact run_of_stops h

/-- Without tokens the end is no fault. -/
theorem ne_nil_of_finish_error {ts : List Token} (hread : initial.feedAll arity ts = .ok r)
    (h : r.finish = .error cause) : ts ≠ [] := by
  rintro rfl
  obtain rfl := Except.ok.inj hread
  exact absurd h nofun

/-- **A token is at fault**, wherever a run fails. -/
theorem exists_token_of_run {ts : List Token} {f : Fault} (h : run arity ts = .error f) :
    ∃ t ∈ ts, f.token = some t := by
  obtain ⟨us, vs, rfl, hstops⟩ := run_eq_error_iff.mp h
  cases hstops with
  | @refused _ vs t _ _ _ _ => exact ⟨t, by simp, rfl⟩
  | unfinished hread hfinish =>
    have hne := ne_nil_of_finish_error hread hfinish
    exact ⟨us.getLast hne, by simp, List.getLast?_eq_some_getLast hne⟩

theorem finish_eq_error_iff :
    r.finish = .error cause ↔
      r.stack ≠ [] ∧ cause = .unclosed r.stack.length ∨
        r.stack = [] ∧ r.pending ≠ none ∧ cause = .danglingMarker := by
  unfold finish
  by_cases hs : r.stack = []
  · cases hp : r.pending <;> simp [hs, eq_comm]
  · simp [hs, eq_comm]

end Reader

/-! ## 3. What the tokens say -/

/-- The lists that are open behind a token of this kind, by their brackets and innermost first, if `bs`
are open before it. -/
def nest (k : Token.Kind) (bs : List Bracket) : List Bracket :=
  match k with
  | .opening b => b :: bs
  | .closing _ => bs.tail
  | _ => bs

/-- The lists that some tokens leave open, by their brackets and innermost first. -/
def leftOpen (ts : List Token) : List Bracket := ts.foldl (fun bs t => nest t.kind bs) []

/-- The marker that some tokens end in. -/
def waiting (ts : List Token) : Option Marker := ts.getLast?.bind fun t => t.kind.marks?

def openings (ts : List Token) : Nat := ts.countP fun t => t.kind.opens?.isSome

def closings (ts : List Token) : Nat := ts.countP fun t => t.kind.closes?.isSome

theorem nest_of_isAtomic {k : Token.Kind} (h : k.isAtomic = true) (bs : List Bracket) :
    nest k bs = bs := by
  cases k with
  | opening b | closing b => exact absurd h (by simp [Token.Kind.isAtomic])
  | _ => rfl

theorem leftOpen_concat (ts : List Token) (t : Token) :
    leftOpen (ts ++ [t]) = nest t.kind (leftOpen ts) := by
  simp [leftOpen]

theorem waiting_concat (ts : List Token) (t : Token) : waiting (ts ++ [t]) = t.kind.marks? := by
  simp [waiting]

theorem openings_concat (ts : List Token) (t : Token) :
    openings (ts ++ [t]) = openings ts + if t.kind.opens?.isSome then 1 else 0 := by
  rw [openings, List.countP_append, List.countP_singleton]
  rfl

theorem closings_concat (ts : List Token) (t : Token) :
    closings (ts ++ [t]) = closings ts + if t.kind.closes?.isSome then 1 else 0 := by
  rw [closings, List.countP_append, List.countP_singleton]
  rfl

namespace Reader

variable {arity : Arity} {r r' : Reader} {ts : List Token} {t : Token}

/-- The tokens say what the reader knows of lists and markers. -/
structure Tells (ts : List Token) (r : Reader) : Prop where
  brackets : r.stack.map OpenList.bracket = leftOpen ts
  pending : r.pending = waiting ts
  balance : (leftOpen ts).length + closings ts = openings ts

theorem tells_initial : Tells [] initial := ⟨rfl, rfl, rfl⟩

/-- An attached form changes no list in its bracket. -/
theorem brackets_attach (r : Reader) (f : Form) :
    (r.attach f).stack.map OpenList.bracket = r.stack.map OpenList.bracket := by
  unfold attach
  split
  · rfl
  · next l rest hs => simp [hs, OpenList.push]

theorem Tells.stack_eq_nil_iff (h : Tells ts r) : r.stack = [] ↔ leftOpen ts = [] := by
  rw [← h.brackets, List.map_eq_nil_iff]

theorem Tells.length_stack (h : Tells ts r) : r.stack.length = (leftOpen ts).length := by
  rw [← h.brackets, List.length_map]

/-- **One more token** says what it changed. -/
theorem Tells.feed (h : Tells ts r) (hfeed : r.feed arity t = .ok r') : Tells (ts ++ [t]) r' := by
  obtain ⟨hbrackets, -, hbalance⟩ := h
  rw [feed_eq_ok_iff] at hfeed
  refine ⟨?_, ?_, ?_⟩
  · rw [leftOpen_concat, ← hbrackets]
    cases hfeed with
    | marker hk _ _ => rw [hk]; rfl
    | opening hk _ => rw [hk]; rfl
    | closing hk hs _ => rw [hk, brackets_attach, hs]; rfl
    | atom hk _ => rw [nest_of_isAtomic hk, brackets_attach]
  · rw [waiting_concat]
    cases hfeed with
    | marker hk _ _ => rw [hk]; rfl
    | opening hk _ => rw [hk]; rfl
    | closing hk _ hp => rw [hk, pending_attach, hp]; rfl
    | atom hk _ => rw [(Token.Kind.isAtomic_iff.mp hk).2.2, pending_attach]
  · rw [leftOpen_concat, openings_concat, closings_concat, ← hbalance, ← hbrackets]
    cases hfeed with
    | marker hk _ _ => rw [hk]; rfl
    | opening hk _ =>
      rw [hk]
      exact Nat.add_right_comm _ 1 _
    | closing hk hs _ =>
      rw [hk, hs]
      exact (Nat.add_right_comm _ 1 _).symm
    | atom hk _ =>
      obtain ⟨ho, hc, -⟩ := Token.Kind.isAtomic_iff.mp hk
      rw [nest_of_isAtomic hk, ho, hc]
      rfl

/-- The tokens of a run say what the reader knows behind it. -/
theorem tells_of_feedAll (h : initial.feedAll arity ts = .ok r) : Tells ts r :=
  feedAll_keeps (P := Tells) Tells.feed ts [] initial r tells_initial h

/-- The reader takes these tokens without a fault. -/
def Takes (arity : Arity) (ts : List Token) : Prop := ∃ r, initial.feedAll arity ts = .ok r

end Reader

/-! ## 4. What is reported -/

section Reports

variable {us : List Token} {r : Reader} {t : Token} {cause : Cause}

/-- A refusal is reported at the token refused, whatever follows it. -/
theorem parseAll_of_refusal (hread : Reader.initial.feedAll .many us = .ok r)
    (h : Reader.Refusal .many r t cause) (vs : List Token) (source? : Option String) :
    parseAll (us ++ t :: vs) source? = .error ⟨cause, t.position, lineOf source? t⟩ :=
  parseAll_eq_error_iff.mpr
    ⟨_, Reader.run_of_stops (Reader.Stops.refused hread (Reader.feed_eq_error_iff.mpr h)), rfl⟩

/-- What is missing at the end is reported at the last token. -/
theorem parseAll_of_finish (hread : Reader.initial.feedAll .many us = .ok r)
    (h : r.finish = .error cause) (ht : us.getLast? = some t) (source? : Option String) :
    parseAll us source? = .error ⟨cause, t.position, lineOf source? t⟩ := by
  refine parseAll_eq_error_iff.mpr ⟨⟨cause, us.getLast?⟩, ?_, by rw [ht]; rfl⟩
  have hrun := Reader.run_of_stops (Reader.Stops.unfinished hread h)
  rwa [List.append_nil] at hrun

end Reports

theorem take_append_cons_drop {ts : List Token} {k : Nat} {t : Token} (h : ts[k]? = some t) :
    ts.take k ++ t :: ts.drop (k + 1) = ts := by
  have hdrop : ts.drop k = t :: ts.drop (k + 1) := by
    rw [List.drop_eq_getElem?_toList_append, h]
    rfl
  rw [← hdrop, List.take_append_drop]

/-- **A marker without a form.**  Behind the last token it is at fault if no list is open, and otherwise
the open lists are.  At a closing bracket it is at fault if the bracket has a list to close, of its own
kind or not, and otherwise the bracket is. -/
theorem parseAll_of_marker {ts : List Token} {i : Nat} {t : Token} {m : Marker}
    (ht : ts[i]? = some t) (hk : t.kind = .marker m) (htakes : Reader.Takes .many (ts.take (i + 1)))
    (source? : Option String) :
    (i + 1 = ts.length →
      (leftOpen ts = [] →
        parseAll ts source? = .error ⟨.danglingMarker, t.position, lineOf source? t⟩) ∧
      (leftOpen ts ≠ [] →
        parseAll ts source? =
          .error ⟨.unclosed (leftOpen ts).length, t.position, lineOf source? t⟩)) ∧
    ∀ u b, ts[i + 1]? = some u → u.kind = .closing b →
      (leftOpen (ts.take (i + 1)) ≠ [] →
        parseAll ts source? = .error ⟨.danglingMarker, u.position, lineOf source? u⟩) ∧
      (leftOpen (ts.take (i + 1)) = [] →
        parseAll ts source? = .error ⟨.strayClose, u.position, lineOf source? u⟩) := by
  obtain ⟨r, hread⟩ := htakes
  have htells := Reader.tells_of_feedAll hread
  have htaken : ts.take (i + 1) = ts.take i ++ [t] := by rw [List.take_add_one, ht]; rfl
  have hpending : r.pending ≠ none := by
    rw [htells.pending, htaken, waiting_concat, hk]
    exact nofun
  constructor
  · intro hlast
    rw [List.take_of_length_le (Nat.le_of_eq hlast.symm)] at hread htells htaken
    have hend : ts.getLast? = some t := by rw [htaken, List.getLast?_concat]
    constructor
    · intro hnone
      have hs := htells.stack_eq_nil_iff.mpr hnone
      have hfinish := Reader.finish_eq_error_iff.mpr (Or.inr ⟨hs, hpending, rfl⟩)
      exact parseAll_of_finish hread hfinish hend source?
    · intro hsome
      have hs := mt htells.stack_eq_nil_iff.mp hsome
      rw [← htells.length_stack]
      have hfinish := Reader.finish_eq_error_iff.mpr (Or.inl ⟨hs, rfl⟩)
      exact parseAll_of_finish hread hfinish hend source?
  · intro u b hu hkb
    constructor
    · intro hsome
      have hs := mt htells.stack_eq_nil_iff.mp hsome
      rw [← take_append_cons_drop hu]
      exact parseAll_of_refusal hread (Reader.Refusal.dangling hkb hs hpending) _ source?
    · intro hnone
      have hs := htells.stack_eq_nil_iff.mpr hnone
      rw [← take_append_cons_drop hu]
      exact parseAll_of_refusal hread (Reader.Refusal.stray hkb hs) _ source?

/-- Before a bracket of the wrong kind, with a list to close. -/
theorem parseAll_of_marker_wrong_bracket :
    ∃ o q c : Token, o = ⟨.opening .square, "[", ⟨1, 1⟩⟩ ∧ q = ⟨.marker .quote, "'", ⟨1, 2⟩⟩ ∧
      c = ⟨.closing .round, ")", ⟨1, 3⟩⟩ ∧ [o, q, c][1]? = some q ∧ q.kind = .marker .quote ∧
      Reader.Takes .many ([o, q, c].take (1 + 1)) ∧ [o, q, c][1 + 1]? = some c ∧
      c.kind = .closing .round ∧ leftOpen ([o, q, c].take (1 + 1)) ≠ [] ∧
      parseAll [o, q, c] none = .error ⟨.danglingMarker, ⟨1, 3⟩, "  )"⟩ := by
  have hmarker : [(⟨.opening .square, "[", ⟨1, 1⟩⟩ : Token), ⟨.marker .quote, "'", ⟨1, 2⟩⟩,
      ⟨.closing .round, ")", ⟨1, 3⟩⟩][1]? = some ⟨.marker .quote, "'", ⟨1, 2⟩⟩ := rfl
  refine ⟨_, _, _, rfl, rfl, rfl, hmarker, rfl, ⟨_, rfl⟩, rfl, rfl, by decide, ?_⟩
  exact ((parseAll_of_marker hmarker rfl ⟨_, rfl⟩ none).2 _ _ rfl rfl).1 (by decide)

/-- A marker without a form need not be what is reported: in a list that is not closed the list is, and
before a bracket that closes nothing the bracket is. -/
theorem not_danglingMarker_of_marker :
    (¬ ∀ (ts : List Token) (i : Nat) (t : Token) (m : Marker), ts[i]? = some t → t.kind = .marker m →
        Reader.Takes .many (ts.take (i + 1)) → i + 1 = ts.length →
          ∃ e, parseAll ts none = .error e ∧ e.cause = .danglingMarker ∧ e.position = t.position) ∧
      ¬ ∀ (ts : List Token) (i : Nat) (t u : Token) (m : Marker) (b : Bracket), ts[i]? = some t →
        t.kind = .marker m → Reader.Takes .many (ts.take (i + 1)) → ts[i + 1]? = some u →
          u.kind = .closing b →
            ∃ e, parseAll ts none = .error e ∧ e.cause = .danglingMarker ∧ e.position = u.position := by
  constructor
  · intro h
    let ts : List Token := [⟨.opening .round, "(", ⟨1, 1⟩⟩, ⟨.marker .quote, "'", ⟨1, 2⟩⟩]
    have hunclosed : parseAll ts none = .error ⟨.unclosed 1, ⟨1, 2⟩, " '"⟩ := by rfl
    obtain ⟨e, he, hcause, -⟩ := h ts 1 _ _ rfl rfl ⟨_, rfl⟩ rfl
    obtain rfl := Except.error.inj (hunclosed.symm.trans he)
    exact absurd hcause (by decide)
  · intro h
    let ts : List Token := [⟨.marker .quote, "'", ⟨1, 1⟩⟩, ⟨.closing .round, ")", ⟨1, 2⟩⟩]
    have hstray : parseAll ts none = .error ⟨.strayClose, ⟨1, 2⟩, " )"⟩ := by rfl
    obtain ⟨e, he, hcause, -⟩ := h ts 0 _ _ _ .round rfl rfl ⟨_, rfl⟩ rfl rfl
    obtain rfl := Except.error.inj (hstray.symm.trans he)
    exact absurd hcause (by decide)

end Sexpr.Form
