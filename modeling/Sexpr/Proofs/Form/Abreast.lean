/-
# Two sequences of the same kinds

The reader asks a token for its kind and for nothing else.  So **two sequences of the same kinds fare
alike**, whatever their texts and places are (`parse_of_kinds`).

Where one fails, the other fails at the token opposite, for the same cause.  Whether a token is refused
hangs on the lists that are open, on the marker that waits, and on whether there is a complete form; and
readers that agree in this (`Reader.Matches`) agree behind the next two tokens of one kind as well.  What
stands in the forms so far does not matter, so it is not compared.

Where one makes forms, the kinds are well-bracketed, and **both rows of forms are put together from pairs
of tokens that stand opposite**, by induction on the brackets (`Abreast`).  No reader is followed here:
forms are read from exactly the tokens that they are put together from.
-/
import Sexpr.Proofs.Form.Sole

namespace Sexpr.Form

/-! ## 1. Readers that match -/

namespace Reader

variable {arity : Arity} {r r' s : Reader} {t u : Token} {cause : Cause}

/-- The same lists are open, by their brackets; the same marker waits; and as many forms are complete. -/
structure Matches (r r' : Reader) : Prop where
  brackets : r.stack.map OpenList.bracket = r'.stack.map OpenList.bracket
  pending : r.pending = r'.pending
  complete : r.forms.size = r'.forms.size

namespace Matches

theorem length_stack (h : Matches r r') : r.stack.length = r'.stack.length := by
  simpa using congrArg List.length h.brackets

theorem stack_eq_nil_iff (h : Matches r r') : r.stack = [] ↔ r'.stack = [] := by
  rw [← List.length_eq_zero_iff, ← List.length_eq_zero_iff, h.length_stack]

/-- Opposite an innermost list there is one of the same bracket, in lists of the same brackets. -/
theorem exists_stack_eq_cons {l : OpenList} {rest : List OpenList} (h : Matches r r')
    (hs : r.stack = l :: rest) :
    ∃ l' rest', r'.stack = l' :: rest' ∧ l'.bracket = l.bracket ∧
      rest'.map OpenList.bracket = rest.map OpenList.bracket := by
  have hbrackets := h.brackets
  rw [hs, List.map_cons, eq_comm] at hbrackets
  exact List.map_eq_cons_iff.mp hbrackets

theorem mayBegin (h : Matches r r') (arity : Arity) : r.mayBegin arity = r'.mayBegin arity := by
  have hstack : r.stack.isEmpty = r'.stack.isEmpty := by
    rw [Bool.eq_iff_iff, List.isEmpty_iff, List.isEmpty_iff, h.stack_eq_nil_iff]
  simp only [Reader.mayBegin, hstack, Array.isEmpty, h.complete]

theorem attach (h : Matches r r') (f f' : Form) : Matches (r.attach f) (r'.attach f') := by
  refine ⟨?_, ?_, ?_⟩
  · rw [brackets_attach, brackets_attach, h.brackets]
  · rw [pending_attach, pending_attach, h.pending]
  · unfold Reader.attach
    cases hs : r.stack with
    | nil =>
      rw [h.stack_eq_nil_iff.mp hs]
      simp [h.complete]
    | cons l rest =>
      obtain ⟨l', rest', hs', -⟩ := h.exists_stack_eq_cons hs
      rw [hs']
      exact h.complete

/-- **Where one takes a token**, the other takes every token of its kind. -/
theorem feed (h : Matches r r') (hk : t.kind = u.kind) (hfeed : r.feed arity t = .ok s) :
    ∃ s', r'.feed arity u = .ok s' ∧ Matches s s' := by
  simp only [feed_eq_ok_iff] at hfeed ⊢
  cases hfeed with
  | marker hm hb hp =>
    rw [hk] at hm
    rw [h.mayBegin] at hb
    rw [h.pending] at hp
    exact ⟨_, Step.marker hm hb hp, h.brackets, rfl, h.complete⟩
  | @opening b ho hb =>
    rw [hk] at ho
    rw [h.mayBegin] at hb
    exact ⟨_, Step.opening ho hb, congrArg (b :: ·) h.brackets, rfl, h.complete⟩
  | @closing l rest hc hs hp =>
    obtain ⟨l', rest', hs', hl', hrest⟩ := h.exists_stack_eq_cons hs
    rw [hk, ← hl'] at hc
    have hpopped : Matches { r with stack := rest } { r' with stack := rest' } :=
      ⟨hrest.symm, h.pending, h.complete⟩
    rw [h.pending] at hp
    exact ⟨_, Step.closing hc hs' hp, hpopped.attach _ _⟩
  | atom ha hb =>
    rw [hk] at ha
    rw [h.mayBegin] at hb
    have htaken : Matches { r with pending := none } { r' with pending := none } :=
      ⟨h.brackets, rfl, h.complete⟩
    exact ⟨_, Step.atom ha hb, htaken.attach _ _⟩

/-- **Where one refuses a token**, the other refuses every token of its kind, for the same cause. -/
theorem refusal (h : Matches r r') (hk : t.kind = u.kind) (hrefused : Refusal arity r t cause) :
    Refusal arity r' u cause := by
  cases hrefused with
  | stray hc hs =>
    rw [hk] at hc
    exact Refusal.stray hc (h.stack_eq_nil_iff.mp hs)
  | dangling hc hs hp =>
    rw [hk] at hc
    rw [h.pending] at hp
    exact Refusal.dangling hc (mt h.stack_eq_nil_iff.mpr hs) hp
  | wrong hc hs hp hb =>
    obtain ⟨l', rest', hs', hl', -⟩ := h.exists_stack_eq_cons hs
    rw [hk] at hc
    rw [h.pending] at hp
    rw [← hl'] at hb ⊢
    exact Refusal.wrong hc hs' hp hb
  | adjacent hm hb hp =>
    rw [hk] at hm
    rw [h.mayBegin] at hb
    rw [h.pending] at hp
    exact Refusal.adjacent hm hb hp
  | second hc hb =>
    rw [hk] at hc
    rw [h.mayBegin] at hb
    exact Refusal.second hc hb

theorem finish (h : Matches r r') (hfinish : r.finish = .error cause) : r'.finish = .error cause := by
  rw [finish_eq_error_iff] at hfinish ⊢
  rwa [ne_eq, h.stack_eq_nil_iff, h.length_stack, h.pending] at hfinish

/-- **A run that is taken** is taken in all sequences of its kinds. -/
theorem feedAll : ∀ (ts us : List Token) {r r' : Reader}, Matches r r' →
    ts.map Token.kind = us.map Token.kind → r.feedAll arity ts = .ok s →
      ∃ s', r'.feedAll arity us = .ok s' ∧ Matches s s'
  | [], us, r, r', h, hk, hread => by
    obtain rfl := List.map_eq_nil_iff.mp hk.symm
    obtain rfl := Except.ok.inj hread
    exact ⟨r', rfl, h⟩
  | t :: ts, us, r, r', h, hk, hread => by
    obtain ⟨u, us, rfl, hku, hkus⟩ := List.map_eq_cons_iff.mp hk.symm
    rw [Reader.feedAll] at hread
    cases hfeed : r.feed arity t with
    | error cause => simp [hfeed] at hread
    | ok r₁ =>
      rw [hfeed] at hread
      obtain ⟨r₁', hfeed', h₁⟩ := h.feed hku.symm hfeed
      rw [Reader.feedAll, hfeed']
      exact feedAll ts us h₁ hkus.symm hread

end Matches

theorem matches_initial : Matches initial initial := ⟨rfl, rfl, rfl⟩

/-- **A run that stops** stops in all sequences of its kinds, at the token opposite. -/
theorem run_error_of_kinds {ts us : List Token} {f : Fault} (hk : ts.map Token.kind = us.map Token.kind)
    (hrun : run arity ts = .error f) :
    ∃ (i : Nat) (t u : Token), ts[i]? = some t ∧ us[i]? = some u ∧ f = ⟨f.cause, some t⟩ ∧
      run arity us = .error ⟨f.cause, some u⟩ := by
  obtain ⟨before, after, rfl, hstops⟩ := run_eq_error_iff.mp hrun
  rw [List.map_append, eq_comm] at hk
  obtain ⟨before', after', rfl, hbefore, hafter⟩ := List.map_eq_append_iff.mp hk
  have hlength : before'.length = before.length := by simpa using congrArg List.length hbefore
  cases hstops with
  | @refused _ vs t _ cause hread hfeed =>
    obtain ⟨u, vs', rfl, hku, -⟩ := List.map_eq_cons_iff.mp hafter
    obtain ⟨s', hread', hmatches⟩ := matches_initial.feedAll _ _ hbefore.symm hread
    have hrefused := hmatches.refusal hku.symm (feed_eq_error_iff.mp hfeed)
    have hstops' : Stops arity ⟨cause, some u⟩ before' (u :: vs') :=
      Stops.refused hread' (feed_eq_error_iff.mpr hrefused)
    exact ⟨before.length, t, u, by simp, by simp [← hlength], rfl, run_of_stops hstops'⟩
  | unfinished hread hfinish =>
    obtain rfl := List.map_eq_nil_iff.mp hafter
    obtain ⟨s', hread', hmatches⟩ := matches_initial.feedAll _ _ hbefore.symm hread
    have hstops' := Stops.unfinished hread' (hmatches.finish hfinish)
    -- The fault is at the last token, and there is one: no tokens end without a fault.
    obtain ⟨init, t, rfl⟩ :=
      (List.eq_nil_or_concat' before).resolve_left (ne_nil_of_finish_error hread hfinish)
    rw [List.map_append] at hbefore
    obtain ⟨init', last', rfl, hinit, hlast⟩ := List.map_eq_append_iff.mp hbefore
    obtain ⟨u, rfl, -⟩ := List.map_eq_singleton_iff.mp hlast
    rw [List.getLast?_concat] at hstops' ⊢
    have hopposite : init'.length = init.length := by simpa using congrArg List.length hinit
    exact ⟨init.length, t, u, by simp, by simp [← hopposite], rfl, run_of_stops hstops'⟩

end Reader

/-! ## 2. Forms that are read abreast -/

/-- **Two rows of forms of one shape**, put together from pairs of tokens: opposite forms have the same
quotation, and both are atoms, of the two tokens of a pair, or both are lists of the same brackets, at the
two places of a pair of opening brackets, with children that are put together likewise.  All pairs are
used up in order. -/
inductive Abreast : List (Token × Token) → List Form → List Form → Prop
  | nil : Abreast [] [] []
  | atom {q : Option Marker} {t u : Token} {ms ps : List (Token × Token)} {fs gs : List Form}
      (hm : ms.map (fun p => p.1.kind) = markerKinds q) (h : Abreast ps fs gs) :
      Abreast (ms ++ (t, u) :: ps) (.atom q t.position t :: fs) (.atom q u.position u :: gs)
  | list {q : Option Marker} {b : Bracket} {o o' c c' : Token} {ms inner ps : List (Token × Token)}
      {cs ds fs gs : List Form} (hm : ms.map (fun p => p.1.kind) = markerKinds q)
      (ho : o.kind = .opening b) (hi : Abreast inner cs ds) (hc : c.kind = .closing b)
      (h : Abreast ps fs gs) :
      Abreast (ms ++ (o, o') :: (inner ++ (c, c') :: ps)) (.list q o.position b cs :: fs)
        (.list q o'.position b ds :: gs)

theorem Abreast.length_eq {ps : List (Token × Token)} {fs gs : List Form} (h : Abreast ps fs gs) :
    fs.length = gs.length := by
  induction h with
  | nil => rfl
  | atom _ _ ih => exact congrArg (· + 1) ih
  | list _ _ _ _ _ _ ih => exact congrArg (· + 1) ih

theorem length_eq_of_kinds {ts us : List Token} {ks : List Token.Kind} (ht : ts.map Token.kind = ks)
    (hu : us.map Token.kind = ks) : ts.length = us.length := by
  rw [← hu] at ht
  simpa using congrArg List.length ht

/-- The kinds of pairs of tokens that stand opposite. -/
theorem map_kind_zip {ts us : List Token} {ks : List Token.Kind} (ht : ts.map Token.kind = ks)
    (hu : us.map Token.kind = ks) : (ts.zip us).map (fun p => p.1.kind) = ks := by
  have hfst := congrArg (List.map Token.kind) (List.map_fst_zip (Nat.le_of_eq (length_eq_of_kinds ht hu)))
  rwa [List.map_map, ht] at hfst

/-- **Two sequences of well-bracketed kinds are read abreast.** -/
theorem WellBracketed.exists_abreast {ks : List Token.Kind} (h : WellBracketed ks) :
    ∀ ts us : List Token, ts.map Token.kind = ks → us.map Token.kind = ks →
      ∃ fs gs, List.Forall₂ Slot.Fits (linearAll fs) ts ∧ List.Forall₂ Slot.Fits (linearAll gs) us ∧
        Abreast (ts.zip us) fs gs := by
  induction h with
  | nil =>
    intro ts us ht hu
    obtain rfl := List.map_eq_nil_iff.mp ht
    obtain rfl := List.map_eq_nil_iff.mp hu
    exact ⟨[], [], List.Forall₂.nil, List.Forall₂.nil, Abreast.nil⟩
  | @atom q k ks hk _ ih =>
    intro ts us hts hus
    obtain ⟨ms, ts', rfl, hm, hts'⟩ := List.map_eq_append_iff.mp hts
    obtain ⟨ns, us', rfl, hn, hus'⟩ := List.map_eq_append_iff.mp hus
    obtain ⟨t, vs, rfl, ht, hvs⟩ := List.map_eq_cons_iff.mp hts'
    obtain ⟨u, ws, rfl, hu, hws⟩ := List.map_eq_cons_iff.mp hus'
    obtain ⟨fs, gs, hfs, hgs, habreast⟩ := ih vs ws hvs hws
    refine ⟨_, _, fits_cons_atom hm (by rwa [ht]) hfs, fits_cons_atom hn (by rwa [hu]) hgs, ?_⟩
    rw [List.zip_append (length_eq_of_kinds hm hn), List.zip_cons_cons]
    exact Abreast.atom (map_kind_zip hm hn) habreast
  | @list q b inner ks _ _ ihi ih =>
    -- Both sequences are split at the markers, at the two brackets and behind them.
    intro ts us hts hus
    obtain ⟨ms, ts', rfl, hm, hts'⟩ := List.map_eq_append_iff.mp hts
    obtain ⟨ns, us', rfl, hn, hus'⟩ := List.map_eq_append_iff.mp hus
    obtain ⟨o, ts'', rfl, ho, hts''⟩ := List.map_eq_cons_iff.mp hts'
    obtain ⟨o', us'', rfl, ho', hus''⟩ := List.map_eq_cons_iff.mp hus'
    obtain ⟨is, ts₃, rfl, his, hts₃⟩ := List.map_eq_append_iff.mp hts''
    obtain ⟨js, us₃, rfl, hjs, hus₃⟩ := List.map_eq_append_iff.mp hus''
    obtain ⟨c, vs, rfl, hc, hvs⟩ := List.map_eq_cons_iff.mp hts₃
    obtain ⟨c', ws, rfl, hc', hws⟩ := List.map_eq_cons_iff.mp hus₃
    obtain ⟨cs, ds, hcs, hds, hinner⟩ := ihi is js his hjs
    obtain ⟨fs, gs, hfs, hgs, habreast⟩ := ih vs ws hvs hws
    refine ⟨_, _, fits_cons_list hm ho hcs hc hfs, fits_cons_list hn ho' hds hc' hgs, ?_⟩
    rw [List.zip_append (length_eq_of_kinds hm hn), List.zip_cons_cons,
      List.zip_append (length_eq_of_kinds his hjs), List.zip_cons_cons]
    exact Abreast.list (map_kind_zip hm hn) ho hinner hc habreast

/-- Opposite the tokens of some forms there are the tokens of other such forms. -/
theorem exists_abreast_of_fits {ts us : List Token} {fs : List Form}
    (hk : ts.map Token.kind = us.map Token.kind) (h : List.Forall₂ Slot.Fits (linearAll fs) ts) :
    ∃ gs, List.Forall₂ Slot.Fits (linearAll gs) us ∧ Abreast (ts.zip us) fs gs := by
  have hkinds : WellBracketed (ts.map Token.kind) := wellBracketed_iff.mpr ⟨fs, isLinear_iff.mpr h⟩
  obtain ⟨fs', gs, hfs', hgs, habreast⟩ := hkinds.exists_abreast ts us rfl hk.symm
  obtain rfl : fs = fs' := by
    have hread := Reader.run_many_eq_ok_iff.mpr h
    rw [Reader.run_many_eq_ok_iff.mpr hfs'] at hread
    exact (Except.ok.inj hread).symm
  exact ⟨gs, hgs, habreast⟩

/-! ## 3. What becomes of both -/

/-- Two sequences of tokens fare alike: both fail for one cause at tokens of one index, or both are
read, and what is read is related. -/
inductive FareAlike {α : Type} (ts us : List Token) (Related : α → α → Prop) :
    Except Error α → Except Error α → Prop
  | failed {i : Nat} {t u : Token} {cause : Cause} (ht : ts[i]? = some t) (hu : us[i]? = some u) :
      FareAlike ts us Related (.error ⟨cause, t.position, lineOf none t⟩)
        (.error ⟨cause, u.position, lineOf none u⟩)
  | read {a b : α} (h : Related a b) : FareAlike ts us Related (.ok a) (.ok b)

/-- **Parsing depends on nothing but kinds.** -/
theorem parse_of_kinds {ts us : List Token} (h : ts.map Token.kind = us.map Token.kind) :
    FareAlike ts us (Abreast (ts.zip us)) (parseAll ts none) (parseAll us none) ∧
      (ts ≠ [] →
        FareAlike ts us (fun f g => Abreast (ts.zip us) [f] [g]) (parse ts none) (parse us none)) ∧
      (ts = [] → parse ts none = parse us none) := by
  refine ⟨?_, ?_, ?_⟩
  · cases hrun : Reader.run .many ts with
    | error f =>
      obtain ⟨i, t, u, ht, hu, hf, hrun'⟩ := Reader.run_error_of_kinds h hrun
      rw [parseAll_eq_error_iff.mpr ⟨f, hrun, rfl⟩, parseAll_eq_error_iff.mpr ⟨_, hrun', rfl⟩, hf]
      exact FareAlike.failed ht hu
    | ok fs =>
      obtain ⟨gs, hgs, habreast⟩ := exists_abreast_of_fits h (Reader.fits_of_run hrun)
      rw [parseAll_eq_ok_iff_run.mpr hrun,
        parseAll_eq_ok_iff_run.mpr (Reader.run_many_eq_ok_iff.mpr hgs)]
      exact FareAlike.read habreast
  · intro hne
    cases hrun : Reader.run .one ts with
    | error f =>
      obtain ⟨i, t, u, ht, hu, hf, hrun'⟩ := Reader.run_error_of_kinds h hrun
      rw [parse_eq_error_iff.mpr ⟨f, hrun, rfl⟩, parse_eq_error_iff.mpr ⟨_, hrun', rfl⟩, hf]
      exact FareAlike.failed ht hu
    | ok fs =>
      obtain ⟨f, rfl⟩ := Reader.exists_eq_singleton_of_run hne hrun
      obtain ⟨gs, hgs, habreast⟩ := exists_abreast_of_fits h (Reader.fits_of_run hrun)
      obtain ⟨g, rfl⟩ := List.length_eq_one_iff.mp habreast.length_eq.symm
      have hrun' : Reader.run .one us = .ok [g] := Reader.run_one_of_fits (by simpa [linearAll] using hgs)
      rw [parse_eq_ok_iff.mpr ⟨_, hrun, rfl⟩, parse_eq_ok_iff.mpr ⟨_, hrun', rfl⟩]
      exact FareAlike.read habreast
  · rintro rfl
    obtain rfl := List.map_eq_nil_iff.mp h.symm
    rfl

/-- A quoted list of one atom, and tokens of these kinds that nobody would write so. -/
theorem parse_of_kinds_quoted :
    ∃ ts us : List Token, ts.map Token.text = ["'", "(", "a", ")"] ∧
      us.map Token.text = [")", "", "\n", "'"] ∧ ts.map Token.kind = us.map Token.kind ∧
      (∃ f g, parse ts none = .ok f ∧ parse us none = .ok g ∧ f.position = ⟨1, 2⟩ ∧ g.position = ⟨0, 9⟩) ∧
      FareAlike ts us (fun f g => Abreast (ts.zip us) [f] [g]) (parse ts none) (parse us none) := by
  let ts : List Token := [⟨.marker .quote, "'", ⟨1, 1⟩⟩, ⟨.opening .round, "(", ⟨1, 2⟩⟩,
    ⟨.identifier, "a", ⟨1, 3⟩⟩, ⟨.closing .round, ")", ⟨1, 4⟩⟩]
  let us : List Token := [⟨.marker .quote, ")", ⟨7, 7⟩⟩, ⟨.opening .round, "", ⟨0, 9⟩⟩,
    ⟨.identifier, "\n", ⟨3, 0⟩⟩, ⟨.closing .round, "'", ⟨0, 9⟩⟩]
  have hkinds : ts.map Token.kind = us.map Token.kind := rfl
  exact ⟨ts, us, rfl, rfl, hkinds, ⟨_, _, rfl, rfl, rfl, rfl⟩,
    (parse_of_kinds hkinds).2.1 (List.cons_ne_nil _ _)⟩

end Sexpr.Form
