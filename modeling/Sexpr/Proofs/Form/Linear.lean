/-
# The reader undoes linearization

Written in a row, a form is a list of slots: a slot for its marker if it is quoted, and then the
slot of its token, or the slots of its opening bracket, of its children and of its closing bracket
(`Form.linear`).  Every slot asks one token for a kind, and the slots of atoms and opening brackets
ask for a place as well.

**The reader takes exactly the tokens that fit the slots of some forms, and returns these forms.**
For what it returns, look at what it knows between two tokens.  That is a row of slots too: those of
the forms outside all lists, then those of the open lists, outermost first and without their
closing brackets, then that of the waiting marker (`Reader.linear`).  Every token taken adds one
slot to the row, and fits it (`feed_linear`).

For what it takes, a form is attached to the reader once all of its slots have found their tokens
(`feedAll_linear`), by induction on the form.
-/
import Mathlib.Data.List.Forall2
import Sexpr.Form.Reader

namespace Sexpr.Form

/-! ## 1. Slots -/

/-- What a form knows of one of its tokens. -/
inductive Slot where
  | marker (marker : Marker)
  | atom (position : Position) (token : Token)
  | opening (bracket : Bracket) (position : Position)
  | closing (bracket : Bracket)

namespace Slot

def kind : Slot → Token.Kind
  | marker m => .marker m
  | atom _ u => u.kind
  | opening b _ => .opening b
  | closing b => .closing b

/-- What a slot asks of its token besides the kind: the token of an atom is kept as it is, and an
atom and a list stand where their first token behind the marker does. -/
def Holds : Slot → Token → Prop
  | atom p u, t => u.kind.isAtomic = true ∧ u = t ∧ p = t.position
  | opening _ p, t => p = t.position
  | marker _, _ | closing _, _ => True

def Fits (s : Slot) (t : Token) : Prop := t.kind = s.kind ∧ s.Holds t

/-- The slot of a marker, if there is one. -/
def marks (q : Option Marker) : List Slot := q.toList.map marker

@[simp] theorem fits_marker {m : Marker} {t : Token} : (marker m).Fits t ↔ t.kind = .marker m := by
  simp [Fits, kind, Holds]

@[simp] theorem fits_opening {b : Bracket} {p : Position} {t : Token} :
    (opening b p).Fits t ↔ t.kind = .opening b ∧ p = t.position := Iff.rfl

@[simp] theorem fits_closing {b : Bracket} {t : Token} :
    (closing b).Fits t ↔ t.kind = .closing b := by
  simp [Fits, kind, Holds]

@[simp] theorem fits_atom {p : Position} {u t : Token} :
    (atom p u).Fits t ↔ t.kind.isAtomic = true ∧ u = t ∧ p = t.position := by
  constructor
  · rintro ⟨-, ha, rfl, hp⟩
    exact ⟨ha, rfl, hp⟩
  · rintro ⟨ha, rfl, hp⟩
    exact ⟨rfl, ha, rfl, hp⟩

end Slot

open Slot (marks)

mutual

/-- The slots of a form, in the order of its tokens. -/
def linear : Form → List Slot
  | atom q p t => marks q ++ [.atom p t]
  | list q p b cs => marks q ++ .opening b p :: (linearAll cs ++ [.closing b])

def linearAll : List Form → List Slot
  | [] => []
  | c :: cs => c.linear ++ linearAll cs

end

theorem linearAll_append (cs ds : List Form) :
    linearAll (cs ++ ds) = linearAll cs ++ linearAll ds := by
  induction cs with
  | nil => rfl
  | cons c cs ih => rw [List.cons_append, linearAll, linearAll, ih, List.append_assoc]

/-- **The tokens are the forms in a row**: kind by kind, and each as its slot asks. -/
structure IsLinear (forms : List Form) (tokens : List Token) : Prop where
  kinds : tokens.map Token.kind = (linearAll forms).map Slot.kind
  slots : ∀ e ∈ (linearAll forms).zip tokens, e.1.Holds e.2

theorem isLinear_iff {forms : List Form} {tokens : List Token} :
    IsLinear forms tokens ↔ List.Forall₂ Slot.Fits (linearAll forms) tokens := by
  constructor
  · rintro ⟨hk, hs⟩
    have hlen : (linearAll forms).length = tokens.length := by
      simpa using (congrArg List.length hk).symm
    have hkinds :
        List.Forall₂ (fun s t => Token.kind t = Slot.kind s) (linearAll forms) tokens := by
      rw [← List.forall₂_map_left_iff (R := fun k t => Token.kind t = k), ← hk,
        List.forall₂_map_left_iff, List.forall₂_same]
      intro _ _
      rfl
    rw [List.forall₂_iff_zip] at hkinds ⊢
    refine ⟨hlen, ?_⟩
    intro s t h
    exact ⟨hkinds.2 h, hs _ h⟩
  · intro h
    constructor
    · generalize linearAll forms = row at h
      induction h with
      | nil => rfl
      | cons hf _ ih => rw [List.map_cons, List.map_cons, hf.1, ih]
    · intro e he
      exact (List.forall₂_zip h he).2

/-- What fits a row fits its two parts one after the other. -/
theorem forall₂_append_left {s s' : List Slot} {ts : List Token} :
    List.Forall₂ Slot.Fits (s ++ s') ts ↔
      ∃ us us', ts = us ++ us' ∧ List.Forall₂ Slot.Fits s us ∧ List.Forall₂ Slot.Fits s' us' := by
  constructor
  · intro h
    induction s generalizing ts with
    | nil => exact ⟨[], ts, rfl, List.Forall₂.nil, h⟩
    | cons a s ih =>
      obtain ⟨t, ts', ha, hr, rfl⟩ := List.forall₂_cons_left_iff.mp h
      obtain ⟨us, us', rfl, hu, hu'⟩ := ih hr
      exact ⟨t :: us, us', rfl, List.Forall₂.cons ha hu, hu'⟩
  · rintro ⟨us, us', rfl, hu, hu'⟩
    exact List.rel_append hu hu'

/-- The tokens of an atom are its own, behind its marker. -/
theorem exists_tokens_of_atom {q : Option Marker} {p : Position} {t : Token} {ts : List Token}
    (h : List.Forall₂ Slot.Fits (linear (.atom q p t)) ts) :
    ∃ ms, ts = ms ++ [t] ∧ List.Forall₂ Slot.Fits (marks q) ms ∧ t.kind.isAtomic = true ∧
      p = t.position := by
  obtain ⟨ms, ts', rfl, hm, ha⟩ := forall₂_append_left.mp h
  obtain ⟨u, us, hu, hnil, rfl⟩ := List.forall₂_cons_left_iff.mp ha
  obtain rfl := List.forall₂_nil_left_iff.mp hnil
  obtain ⟨hk, rfl, hp⟩ := Slot.fits_atom.mp hu
  exact ⟨ms, rfl, hm, hk, hp⟩

/-- The tokens of a list are its brackets, behind its marker, and those of its children between them. -/
theorem exists_tokens_of_list {q : Option Marker} {p : Position} {b : Bracket} {cs : List Form}
    {ts : List Token} (h : List.Forall₂ Slot.Fits (linear (.list q p b cs)) ts) :
    ∃ ms o us c, ts = ms ++ o :: (us ++ [c]) ∧ List.Forall₂ Slot.Fits (marks q) ms ∧
      o.kind = .opening b ∧ p = o.position ∧ List.Forall₂ Slot.Fits (linearAll cs) us ∧
      c.kind = .closing b := by
  obtain ⟨ms, ts', rfl, hm, hl⟩ := forall₂_append_left.mp h
  obtain ⟨o, us, ho, hin, rfl⟩ := List.forall₂_cons_left_iff.mp hl
  obtain ⟨inner, us', rfl, hinner, hlast⟩ := forall₂_append_left.mp hin
  obtain ⟨c, us, hc, hnil, rfl⟩ := List.forall₂_cons_left_iff.mp hlast
  obtain rfl := List.forall₂_nil_left_iff.mp hnil
  obtain ⟨hk, hp⟩ := Slot.fits_opening.mp ho
  exact ⟨ms, o, inner, c, rfl, hm, hk, hp, hinner, Slot.fits_closing.mp hc⟩

/-! ## 2. One token taken -/

namespace Reader

/-- All that taking a token can do. -/
inductive Step (arity : Arity) (r : Reader) (t : Token) : Reader → Prop
  | marker {m : Marker} (hk : t.kind = .marker m) (hb : r.mayBegin arity = true)
      (hp : r.pending = none) : Step arity r t { r with pending := some m }
  | opening {b : Bracket} (hk : t.kind = .opening b) (hb : r.mayBegin arity = true) :
      Step arity r t
        { r with stack := ⟨r.pending, t.position, b, #[]⟩ :: r.stack, pending := none }
  | closing {l : OpenList} {rest : List OpenList} (hk : t.kind = .closing l.bracket)
      (hs : r.stack = l :: rest) (hp : r.pending = none) :
      Step arity r t ({ r with stack := rest }.attach l.toForm)
  | atom (hk : t.kind.isAtomic = true) (hb : r.mayBegin arity = true) :
      Step arity r t ({ r with pending := none }.attach (.atom r.pending t.position t))

theorem feed_of_isAtomic {arity : Arity} {r : Reader} {t : Token} (h : t.kind.isAtomic = true) :
    r.feed arity t =
      if r.mayBegin arity then
        .ok ({ r with pending := none }.attach (.atom r.pending t.position t))
      else .error .secondForm := by
  unfold feed
  cases hk : t.kind with
  | opening b | closing b | marker m => simp [hk, Token.Kind.isAtomic] at h
  | _ => rfl

theorem close_eq_ok_iff {r r' : Reader} {b : Bracket} :
    r.close b = .ok r' ↔
      ∃ l rest, r.stack = l :: rest ∧ r.pending = none ∧ l.bracket = b ∧
        r' = { r with stack := rest }.attach l.toForm := by
  unfold close
  cases hs : r.stack with
  | nil => simp
  | cons l rest =>
    cases hp : r.pending with
    | some m => simp
    | none =>
      by_cases hb : l.bracket = b
      · simp [hb, eq_comm]
      · simp [hb]

theorem guard_eq_ok_iff {b : Bool} {x : Except Cause Reader} {cause : Cause} {r : Reader} :
    (if b then x else .error cause) = .ok r ↔ b = true ∧ x = .ok r := by
  cases b <;> simp

/-- **A token is taken exactly by a step.** -/
theorem feed_eq_ok_iff {arity : Arity} {r r' : Reader} {t : Token} :
    r.feed arity t = .ok r' ↔ Step arity r t r' := by
  constructor
  · intro h
    cases hk : t.kind with
    | closing b =>
      rw [feed, hk] at h
      obtain ⟨l, rest, hs, hp, rfl, rfl⟩ := close_eq_ok_iff.mp h
      exact Step.closing hk hs hp
    | opening b =>
      simp only [feed, hk] at h
      obtain ⟨hb, h⟩ := guard_eq_ok_iff.mp h
      obtain rfl := Except.ok.inj h
      exact Step.opening hk hb
    | marker m =>
      simp only [feed, hk] at h
      obtain ⟨hb, h⟩ := guard_eq_ok_iff.mp h
      cases hp : r.pending with
      | some m' => simp [hp] at h
      | none =>
        simp only [hp] at h
        obtain rfl := Except.ok.inj h
        exact Step.marker hk hb hp
    | _ =>
      have ha : t.kind.isAtomic = true := by rw [hk]; rfl
      rw [feed_of_isAtomic ha] at h
      obtain ⟨hb, h⟩ := guard_eq_ok_iff.mp h
      obtain rfl := Except.ok.inj h
      exact Step.atom ha hb
  · intro h
    cases h with
    | marker hk hb hp => simp [feed, hk, hb, hp]
    | opening hk hb => simp [feed, hk, hb]
    | @closing l rest hk hs hp =>
      rw [feed, hk]
      exact close_eq_ok_iff.mpr ⟨l, rest, hs, hp, rfl, rfl⟩
    | atom hk hb => rw [feed_of_isAtomic hk, if_pos hb]

end Reader

/-! ## 3. What the reader returns fits what it took -/

/-- The slots of a list that is still open. -/
def OpenList.linear (l : OpenList) : List Slot :=
  marks l.quotation ++ .opening l.bracket l.position :: linearAll l.children.toList

theorem OpenList.linear_push (l : OpenList) (f : Form) :
    (l.push f).linear = l.linear ++ f.linear := by
  simp [OpenList.linear, push, linearAll_append, linearAll]

/-- A closing bracket is all that an open list lacks. -/
theorem OpenList.linear_toForm (l : OpenList) :
    l.toForm.linear = l.linear ++ [.closing l.bracket] := by
  simp [OpenList.linear, toForm, Form.linear]

namespace Reader

variable {arity : Arity}

/-- The slots whose tokens have been taken. -/
def linear (r : Reader) : List Slot :=
  linearAll r.forms.toList ++ (r.stack.reverse.flatMap OpenList.linear ++ marks r.pending)

theorem linear_initial : initial.linear = [] := rfl

theorem linear_pending (r : Reader) :
    r.linear = { r with pending := none }.linear ++ marks r.pending := by
  simp [linear, marks]

/-- A form attached is its slots appended, wherever it goes. -/
theorem linear_attach {r : Reader} (hp : r.pending = none) (f : Form) :
    (r.attach f).linear = r.linear ++ f.linear := by
  obtain ⟨stack, pending, forms⟩ := r
  obtain rfl : pending = none := hp
  cases stack with
  | nil => simp [attach, linear, marks, linearAll_append, linearAll]
  | cons l rest => simp [attach, linear, marks, OpenList.linear_push]

/-- **One token, one slot.** -/
theorem feed_linear {r r' : Reader} {t : Token} (h : r.feed arity t = .ok r') :
    ∃ s : Slot, s.Fits t ∧ r'.linear = r.linear ++ [s] := by
  rw [feed_eq_ok_iff] at h
  cases h with
  | @marker m hk _ hp =>
    refine ⟨.marker m, Slot.fits_marker.mpr hk, ?_⟩
    simp [linear, marks, hp]
  | @opening b hk _ =>
    refine ⟨.opening b t.position, Slot.fits_opening.mpr ⟨hk, rfl⟩, ?_⟩
    simp [linear, marks, OpenList.linear, linearAll]
  | @closing l rest hk hs hp =>
    refine ⟨.closing l.bracket, Slot.fits_closing.mpr hk, ?_⟩
    have hrow : r.linear = { r with stack := rest }.linear ++ l.linear := by
      simp [linear, hs, hp, marks]
    have hlin := linear_attach (r := { r with stack := rest }) hp l.toForm
    rw [hlin, hrow, OpenList.linear_toForm, List.append_assoc]
  | atom hk _ =>
    refine ⟨.atom t.position t, Slot.fits_atom.mpr ⟨hk, rfl, rfl⟩, ?_⟩
    rw [linear_attach rfl, linear_pending r, Form.linear, List.append_assoc]

/-- By induction, the slots that a run adds fit its tokens. -/
theorem feedAll_fits (ts : List Token) : ∀ r r' : Reader, r.feedAll arity ts = .ok r' →
    ∃ row, List.Forall₂ Slot.Fits row ts ∧ r'.linear = r.linear ++ row := by
  induction ts with
  | nil =>
    intro r r' h
    obtain rfl := Except.ok.inj h
    exact ⟨[], List.Forall₂.nil, (List.append_nil _).symm⟩
  | cons t ts ih =>
    intro r r' h
    rw [feedAll] at h
    cases hfeed : r.feed arity t with
    | error cause => simp [hfeed] at h
    | ok r₁ =>
      rw [hfeed] at h
      obtain ⟨s, hs, hlin⟩ := feed_linear hfeed
      obtain ⟨row, hrow, hlin'⟩ := ih r₁ r' h
      refine ⟨s :: row, List.Forall₂.cons hs hrow, ?_⟩
      rw [hlin', hlin, List.append_assoc, List.singleton_append]

theorem finish_eq_ok_iff {r : Reader} {forms : List Form} :
    r.finish = .ok forms ↔ r.stack = [] ∧ r.pending = none ∧ r.forms.toList = forms := by
  unfold finish
  by_cases hs : r.stack = []
  · cases hp : r.pending <;> simp [hs]
  · simp [hs]

theorem run_eq_ok_iff_feedAll {tokens : List Token} {forms : List Form} :
    run arity tokens = .ok forms ↔
      ∃ r, initial.feedAll arity tokens = .ok r ∧ r.finish = .ok forms := by
  unfold run
  cases initial.feedAll arity tokens with
  | error fault => simp
  | ok r => simp [mapError_eq_ok_iff]

/-- **Nothing is lost or invented.** -/
theorem fits_of_run {tokens : List Token} {forms : List Form} (h : run arity tokens = .ok forms) :
    List.Forall₂ Slot.Fits (linearAll forms) tokens := by
  obtain ⟨r, hr, hf⟩ := run_eq_ok_iff_feedAll.mp h
  obtain ⟨hs, hp, rfl⟩ := finish_eq_ok_iff.mp hf
  obtain ⟨row, hrow, hlin⟩ := feedAll_fits tokens initial r hr
  have hall : r.linear = linearAll r.forms.toList := by simp [linear, hs, hp, marks]
  rwa [← hall, hlin, linear_initial, List.nil_append]

end Reader

/-! ## 4. The reader takes what fits -/

namespace Reader

variable {arity : Arity}

/-- Forms may go on beginning here, however many there are. -/
def Roomy (arity : Arity) (r : Reader) : Prop := arity = .many ∨ r.stack ≠ []

theorem Roomy.mayBegin {r : Reader} (h : r.Roomy arity) : r.mayBegin arity = true := by
  rcases h with rfl | hs
  · simp [Reader.mayBegin]
  · simp [Reader.mayBegin, hs]

theorem Roomy.attach {r : Reader} (h : r.Roomy arity) (f : Form) : (r.attach f).Roomy arity := by
  refine h.imp_right ?_
  intro hs
  unfold Reader.attach
  split
  · contradiction
  · simp

theorem pending_attach (r : Reader) (f : Form) : (r.attach f).pending = r.pending := by
  unfold attach
  split <;> rfl

/-- Several forms attached, one after the other. -/
def attachAll (r : Reader) (fs : List Form) : Reader := fs.foldl attach r

theorem attachAll_open : ∀ (fs : List Form) (l : OpenList) (rest : List OpenList)
    (q : Option Marker) (forms : Array Form),
    attachAll ⟨l :: rest, q, forms⟩ fs =
      ⟨{ l with children := l.children ++ fs.toArray } :: rest, q, forms⟩
  | [], l, rest, q, forms => by simp [attachAll]
  | f :: fs, l, rest, q, forms => by
    have ih := attachAll_open fs (l.push f) rest q forms
    simpa [attachAll, attach, OpenList.push] using ih

theorem attachAll_outside : ∀ (fs : List Form) (q : Option Marker) (forms : Array Form),
    attachAll ⟨[], q, forms⟩ fs = ⟨[], q, forms ++ fs.toArray⟩
  | [], q, forms => by simp [attachAll]
  | f :: fs, q, forms => by
    have ih := attachAll_outside fs q (forms.push f)
    simpa [attachAll, attach] using ih

theorem feedAll_of_step {r r' : Reader} {t : Token} {ts : List Token} (h : Step arity r t r') :
    r.feedAll arity (t :: ts) = r'.feedAll arity ts := by
  rw [feedAll, feed_eq_ok_iff.mpr h]

theorem feedAll_append_of_ok {r r' : Reader} {ts us : List Token}
    (h : r.feedAll arity ts = .ok r') :
    r.feedAll arity (ts ++ us) = r'.feedAll arity us := by
  rw [feedAll_append, h]
  rfl

/-- A marker waits, if there is one. -/
theorem feedAll_marks {r : Reader} {q : Option Marker} {ts : List Token}
    (hb : r.mayBegin arity = true) (hp : r.pending = none)
    (h : List.Forall₂ Slot.Fits (marks q) ts) :
    r.feedAll arity ts = .ok { r with pending := q } := by
  cases q with
  | none =>
    obtain rfl := List.forall₂_nil_left_iff.mp h
    rw [feedAll, ← hp]
  | some m =>
    obtain ⟨t, ts', ht, hnil, rfl⟩ := List.forall₂_cons_left_iff.mp h
    obtain rfl := List.forall₂_nil_left_iff.mp hnil
    rw [feedAll_of_step (Step.marker (Slot.fits_marker.mp ht) hb hp), feedAll]

mutual

/-- **A form is attached once its slots have their tokens.**  The slots of a list are split at its
brackets; between them the list is the innermost open one, and its children are attached to it. -/
theorem feedAll_linear : ∀ (f : Form) (r : Reader) (ts : List Token),
    r.mayBegin arity = true → r.pending = none → List.Forall₂ Slot.Fits f.linear ts →
      r.feedAll arity ts = .ok (r.attach f)
  | atom q p t, ⟨stack, pending, forms⟩, ts, hb, hp, h => by
    obtain ⟨ms, rfl, hm, hk, rfl⟩ := exists_tokens_of_atom h
    obtain rfl : pending = none := hp
    have hmarks : feedAll arity ⟨stack, none, forms⟩ ms = .ok ⟨stack, q, forms⟩ :=
      feedAll_marks hb rfl hm
    have hatom : Step arity ⟨stack, q, forms⟩ t
        (attach ⟨stack, none, forms⟩ (.atom q t.position t)) := Step.atom hk hb
    rw [feedAll_append_of_ok hmarks, feedAll_of_step hatom, feedAll]
  | list q p b cs, ⟨stack, pending, forms⟩, ts, hb, hp, h => by
    obtain ⟨ms, o, inner, c, rfl, hm, hk, rfl, hinner, hc⟩ := exists_tokens_of_list h
    obtain rfl : pending = none := hp
    have hmarks : feedAll arity ⟨stack, none, forms⟩ ms = .ok ⟨stack, q, forms⟩ :=
      feedAll_marks hb rfl hm
    have hopen : Step arity ⟨stack, q, forms⟩ o ⟨⟨q, o.position, b, #[]⟩ :: stack, none, forms⟩ :=
      Step.opening hk hb
    have hchildren : feedAll arity ⟨⟨q, o.position, b, #[]⟩ :: stack, none, forms⟩ inner =
        .ok ⟨⟨q, o.position, b, #[] ++ cs.toArray⟩ :: stack, none, forms⟩ := by
      rw [feedAll_linearAll cs _ inner (Or.inr (by simp)) rfl hinner, attachAll_open]
    have hclose : Step arity ⟨⟨q, o.position, b, #[] ++ cs.toArray⟩ :: stack, none, forms⟩ c
        (attach ⟨stack, none, forms⟩ (OpenList.toForm ⟨q, o.position, b, #[] ++ cs.toArray⟩)) :=
      Step.closing hc rfl rfl
    rw [feedAll_append_of_ok hmarks, feedAll_of_step hopen, feedAll_append_of_ok hchildren,
      feedAll_of_step hclose, feedAll]
    simp [OpenList.toForm]

theorem feedAll_linearAll : ∀ (fs : List Form) (r : Reader) (ts : List Token),
    r.Roomy arity → r.pending = none → List.Forall₂ Slot.Fits (linearAll fs) ts →
      r.feedAll arity ts = .ok (r.attachAll fs)
  | [], r, ts, _, _, h => by
    obtain rfl := List.forall₂_nil_left_iff.mp h
    rfl
  | f :: fs, r, ts, hr, hp, h => by
    obtain ⟨us, us', rfl, hf, hfs⟩ := forall₂_append_left.mp h
    rw [feedAll_append_of_ok (feedAll_linear f r us hr.mayBegin hp hf)]
    exact feedAll_linearAll fs (r.attach f) us' (hr.attach f) (by rw [pending_attach, hp]) hfs

end

/-- The reader of many forms is the inverse of linearization. -/
theorem run_many_eq_ok_iff {tokens : List Token} {forms : List Form} :
    run .many tokens = .ok forms ↔ List.Forall₂ Slot.Fits (linearAll forms) tokens := by
  constructor
  · exact fits_of_run
  · intro h
    rw [run_eq_ok_iff_feedAll]
    refine ⟨_, feedAll_linearAll forms initial tokens (Or.inl rfl) rfl h, ?_⟩
    rw [initial, attachAll_outside]
    simp [finish]

/-- The reader of one form takes the tokens of every form. -/
theorem run_one_of_fits {tokens : List Token} {f : Form}
    (h : List.Forall₂ Slot.Fits f.linear tokens) : run .one tokens = .ok [f] := by
  rw [run_eq_ok_iff_feedAll]
  exact ⟨_, feedAll_linear f initial tokens rfl rfl h, rfl⟩

end Reader

/-! ## 5. Well-bracketed sequences -/

def markerKinds (q : Option Marker) : List Token.Kind := q.toList.map .marker

/-- The kinds of the tokens of some forms: atoms, and matching brackets around well-bracketed
sequences, each behind one marker at most. -/
inductive WellBracketed : List Token.Kind → Prop
  | nil : WellBracketed []
  | atom {q : Option Marker} {k : Token.Kind} {ks : List Token.Kind} (hk : k.isAtomic = true)
      (h : WellBracketed ks) : WellBracketed (markerKinds q ++ k :: ks)
  | list {q : Option Marker} {b : Bracket} {inner ks : List Token.Kind}
      (hi : WellBracketed inner) (h : WellBracketed ks) :
      WellBracketed (markerKinds q ++ .opening b :: (inner ++ .closing b :: ks))

theorem map_kind_marks (q : Option Marker) : (marks q).map Slot.kind = markerKinds q := by
  simp [marks, markerKinds, Function.comp_def, Slot.kind]

theorem fits_marks_of_kinds {q : Option Marker} {ts : List Token}
    (h : ts.map Token.kind = markerKinds q) : List.Forall₂ Slot.Fits (marks q) ts := by
  cases q with
  | none =>
    obtain rfl := List.map_eq_nil_iff.mp h
    exact List.Forall₂.nil
  | some m =>
    obtain ⟨t, rfl, ht⟩ := List.map_eq_singleton_iff.mp h
    exact List.Forall₂.cons (Slot.fits_marker.mpr ht) List.Forall₂.nil

/-- The tokens of an atom before those of other forms. -/
theorem fits_cons_atom {q : Option Marker} {t : Token} {ms ts : List Token} {fs : List Form}
    (hms : ms.map Token.kind = markerKinds q) (hk : t.kind.isAtomic = true)
    (h : List.Forall₂ Slot.Fits (linearAll fs) ts) :
    List.Forall₂ Slot.Fits (linearAll (.atom q t.position t :: fs)) (ms ++ t :: ts) := by
  rw [linearAll, linear, List.append_assoc]
  have ht : (Slot.atom t.position t).Fits t := Slot.fits_atom.mpr ⟨hk, rfl, rfl⟩
  exact List.rel_append (fits_marks_of_kinds hms) (List.Forall₂.cons ht h)

/-- The tokens of a list before those of other forms. -/
theorem fits_cons_list {q : Option Marker} {b : Bracket} {o c : Token} {ms us ts : List Token}
    {cs fs : List Form} (hms : ms.map Token.kind = markerKinds q) (ho : o.kind = .opening b)
    (hcs : List.Forall₂ Slot.Fits (linearAll cs) us) (hc : c.kind = .closing b)
    (h : List.Forall₂ Slot.Fits (linearAll fs) ts) :
    List.Forall₂ Slot.Fits (linearAll (.list q o.position b cs :: fs)) (ms ++ o :: (us ++ c :: ts)) := by
  have hrow : linearAll (.list q o.position b cs :: fs) =
      marks q ++ .opening b o.position :: (linearAll cs ++ .closing b :: linearAll fs) := by
    simp [linearAll, linear]
  have hopen : (Slot.opening b o.position).Fits o := Slot.fits_opening.mpr ⟨ho, rfl⟩
  have hclose : (Slot.closing b).Fits c := Slot.fits_closing.mpr hc
  rw [hrow]
  exact List.rel_append (fits_marks_of_kinds hms)
    (List.Forall₂.cons hopen (List.rel_append hcs (List.Forall₂.cons hclose h)))

/-- Tokens of well-bracketed kinds are the tokens of some forms. -/
theorem WellBracketed.exists_fits {ks : List Token.Kind} (h : WellBracketed ks) :
    ∀ ts : List Token, ts.map Token.kind = ks →
      ∃ fs, List.Forall₂ Slot.Fits (linearAll fs) ts := by
  induction h with
  | nil =>
    intro ts hts
    obtain rfl := List.map_eq_nil_iff.mp hts
    exact ⟨[], List.Forall₂.nil⟩
  | @atom q k ks hk _ ih =>
    intro ts hts
    obtain ⟨ms, ts', rfl, hms, hts'⟩ := List.map_eq_append_iff.mp hts
    obtain ⟨t, us, rfl, rfl, hus⟩ := List.map_eq_cons_iff.mp hts'
    obtain ⟨fs, hfs⟩ := ih us hus
    exact ⟨_, fits_cons_atom hms hk hfs⟩
  | @list q b inner ks _ _ ihi ih =>
    intro ts hts
    obtain ⟨ms, ts', rfl, hms, hts'⟩ := List.map_eq_append_iff.mp hts
    obtain ⟨o, us, rfl, ho, hus⟩ := List.map_eq_cons_iff.mp hts'
    obtain ⟨is, us', rfl, his, hus'⟩ := List.map_eq_append_iff.mp hus
    obtain ⟨c, vs, rfl, hc, hvs⟩ := List.map_eq_cons_iff.mp hus'
    obtain ⟨cs, hcs⟩ := ihi is his
    obtain ⟨fs, hfs⟩ := ih vs hvs
    exact ⟨_, fits_cons_list hms ho hcs hc hfs⟩

theorem WellBracketed.append {ks ls : List Token.Kind} (hk : WellBracketed ks)
    (hl : WellBracketed ls) : WellBracketed (ks ++ ls) := by
  induction hk with
  | nil => exact hl
  | atom hk _ ih =>
    rw [List.append_assoc, List.cons_append]
    exact WellBracketed.atom hk ih
  | list hi _ _ ih =>
    rw [List.append_assoc, List.cons_append, List.append_assoc, List.cons_append]
    exact WellBracketed.list hi ih

mutual

/-- The tokens of a form are well-bracketed. -/
theorem wellBracketed_linear : ∀ (f : Form) (ts : List Token),
    List.Forall₂ Slot.Fits f.linear ts → WellBracketed (f.linear.map Slot.kind)
  | atom q p t, ts, h => by
    obtain ⟨-, -, -, hk, -⟩ := exists_tokens_of_atom h
    rw [linear, List.map_append, map_kind_marks]
    exact WellBracketed.atom hk WellBracketed.nil
  | list q p b cs, ts, h => by
    obtain ⟨-, -, inner, -, -, -, -, -, hinner, -⟩ := exists_tokens_of_list h
    have hcs := wellBracketed_linearAll cs inner hinner
    rw [linear, List.map_append, map_kind_marks, List.map_cons, List.map_append]
    exact WellBracketed.list hcs WellBracketed.nil

theorem wellBracketed_linearAll : ∀ (fs : List Form) (ts : List Token),
    List.Forall₂ Slot.Fits (linearAll fs) ts → WellBracketed ((linearAll fs).map Slot.kind)
  | [], _, _ => WellBracketed.nil
  | f :: fs, ts, h => by
    obtain ⟨us, us', rfl, hf, hfs⟩ := forall₂_append_left.mp h
    rw [linearAll, List.map_append]
    exact (wellBracketed_linear f us hf).append (wellBracketed_linearAll fs us' hfs)

end

/-- The tokens of forms are exactly the well-bracketed sequences. -/
theorem wellBracketed_iff {tokens : List Token} :
    WellBracketed (tokens.map Token.kind) ↔ ∃ forms, IsLinear forms tokens := by
  constructor
  · intro h
    obtain ⟨fs, hfs⟩ := h.exists_fits tokens rfl
    exact ⟨fs, isLinear_iff.mpr hfs⟩
  · rintro ⟨fs, hfs⟩
    rw [hfs.kinds]
    exact wellBracketed_linearAll fs tokens (isLinear_iff.mp hfs)

theorem parse_eq_ok_iff {tokens : List Token} {source? : Option String} {f : Form} :
    parse tokens source? = .ok f ↔
      ∃ forms, Reader.run .one tokens = .ok forms ∧ forms.getLast?.getD .empty = f := by
  unfold parse
  cases Reader.run .one tokens <;> simp

/-- A fault of the tokens is reported, and nothing else is. -/
theorem parse_eq_error_iff {tokens : List Token} {source? : Option String} {e : Error} :
    parse tokens source? = .error e ↔
      ∃ f, Reader.run .one tokens = .error f ∧ f.diagnose source? = e := by
  unfold parse
  cases Reader.run .one tokens <;> simp

theorem parseAll_eq_error_iff {tokens : List Token} {source? : Option String} {e : Error} :
    parseAll tokens source? = .error e ↔
      ∃ f, Reader.run .many tokens = .error f ∧ f.diagnose source? = e := by
  rw [parseAll, mapError_eq_error_iff]

theorem parseAll_eq_ok_iff_run {tokens : List Token} {source? : Option String}
    {forms : List Form} :
    parseAll tokens source? = .ok forms ↔ Reader.run .many tokens = .ok forms := by
  rw [parseAll, mapError_eq_ok_iff]

theorem parseAll_eq_ok_iff {tokens : List Token} {source? : Option String}
    {forms : List Form} :
    parseAll tokens source? = .ok forms ↔ IsLinear forms tokens := by
  rw [parseAll_eq_ok_iff_run, Reader.run_many_eq_ok_iff, isLinear_iff]

/-- **Reading is the exact inverse of linearization.**  The reader returns some forms exactly if the
tokens are these forms in a row.  So it takes the well-bracketed sequences and no others, and no two
rows of forms have the same tokens. -/
theorem parseAll_eq_ok_iff_isLinear (tokens : List Token) (source? : Option String) :
    (∀ forms, parseAll tokens source? = .ok forms ↔ IsLinear forms tokens) ∧
      ((∃ forms, parseAll tokens source? = .ok forms) ↔ WellBracketed (tokens.map Token.kind)) ∧
      ∀ forms forms', IsLinear forms tokens → IsLinear forms' tokens → forms = forms' := by
  refine ⟨?_, ?_, ?_⟩
  · intro forms
    exact parseAll_eq_ok_iff
  · rw [wellBracketed_iff]
    exact exists_congr fun forms => parseAll_eq_ok_iff
  · intro forms forms' h h'
    have hf := (@parseAll_eq_ok_iff tokens none forms).mpr h
    rw [parseAll_eq_ok_iff.mpr h'] at hf
    exact (Except.ok.inj hf).symm

end Sexpr.Form
