/-
# Forms that are moved

The reader asks a token for its kind and looks at no place.  So it does not notice if all places are
moved, whatever moves them: it takes the same tokens, refuses the same token for the same cause, and
the forms that it makes are moved likewise (`feed_behind`).

Nor does it notice, where any number of forms may come, how many forms are complete already.  **Where
the tokens of some forms end it starts anew**: behind them, moved tokens make the moved forms, and a
fault is the moved fault (`run_append`).  A fault is at the last token taken, and there always is one
(`exists_token_of_run`), so what the fault is at does not change with what stands in front.
-/
import Sexpr.Proofs.Form.Refusal

namespace Sexpr

/-- The token, its place moved. -/
def Token.relocate (move : Position → Position) (t : Token) : Token :=
  { t with position := move t.position }

namespace Form

/-! ## 1. Moving forms -/

mutual

/-- The form with all places in it moved, those of its tokens too. -/
def relocate (move : Position → Position) : Form → Form
  | atom q p t => atom q (move p) (t.relocate move)
  | list q p b cs => list q (move p) b (relocateAll move cs)

def relocateAll (move : Position → Position) : List Form → List Form
  | [] => []
  | c :: cs => c.relocate move :: relocateAll move cs

end

theorem relocateAll_eq_map (move : Position → Position) (fs : List Form) :
    relocateAll move fs = fs.map (relocate move) := by
  induction fs with
  | nil => rfl
  | cons f fs ih => rw [relocateAll, ih, List.map_cons]

def Fault.relocate (move : Position → Position) (f : Fault) : Fault :=
  { f with token := f.token.map (Token.relocate move) }

def OpenList.relocate (move : Position → Position) (l : OpenList) : OpenList :=
  ⟨l.quotation, move l.position, l.bracket, l.children.map (Form.relocate move)⟩

namespace Reader

/-! ## 2. The reader behind complete forms -/

section Behind

variable (fs : Array Form) (move : Position → Position)

/-- The reader of moved tokens, where the forms `fs` are complete before the first of them. -/
def behind (r : Reader) : Reader :=
  ⟨r.stack.map (OpenList.relocate move), r.pending, fs ++ r.forms.map (Form.relocate move)⟩

theorem attach_behind (r : Reader) (f : Form) :
    (r.behind fs move).attach (f.relocate move) = (r.attach f).behind fs move := by
  obtain ⟨stack, pending, forms⟩ := r
  cases stack with
  | nil => simp [attach, behind]
  | cons l rest => simp [attach, behind, OpenList.push, OpenList.relocate]

theorem toForm_relocate (l : OpenList) :
    (l.relocate move).toForm = l.toForm.relocate move := by
  simp [OpenList.toForm, OpenList.relocate, Form.relocate, relocateAll_eq_map]

theorem close_behind (r : Reader) (b : Bracket) :
    (r.behind fs move).close b = (r.close b).map (behind fs move) := by
  obtain ⟨stack, pending, forms⟩ := r
  cases stack with
  | nil => rfl
  | cons l rest =>
    have hattach := attach_behind fs move ⟨rest, pending, forms⟩ l.toForm
    have hbracket : (l.relocate move).bracket = l.bracket := rfl
    simp only [close, behind, List.map_cons, hbracket] at hattach ⊢
    cases pending with
    | some m => rfl
    | none =>
      by_cases hb : l.bracket = b
      · rw [toForm_relocate, hattach]
        simp [hb, Except.map, behind]
      · simp [hb, Except.map]

/-- Where any number of forms may come, another one may always begin. -/
theorem mayBegin_many (r : Reader) : r.mayBegin .many = true := Roomy.mayBegin (Or.inl rfl)

/-- **One token** is taken alike, since nothing is asked of its place. -/
theorem feed_behind (r : Reader) (t : Token) :
    (r.behind fs move).feed .many (t.relocate move) = (r.feed .many t).map (behind fs move) := by
  have hkind : (t.relocate move).kind = t.kind := rfl
  cases hk : t.kind with
  | closing b =>
    simp only [feed, hkind, hk]
    exact close_behind fs move r b
  | opening b =>
    simp only [feed, hkind, hk, mayBegin_many]
    simp [behind, Except.map, OpenList.relocate, Token.relocate]
  | marker m =>
    have hpending : (r.behind fs move).pending = r.pending := rfl
    simp only [feed, hkind, hk, mayBegin_many, hpending]
    cases r.pending <;> rfl
  | _ =>
    have ha : t.kind.isAtomic = true := by rw [hk]; rfl
    have ha' : (t.relocate move).kind.isAtomic = true := ha
    have hattach := attach_behind fs move { r with pending := none } (.atom r.pending t.position t)
    rw [feed_of_isAtomic ha, feed_of_isAtomic ha', if_pos (mayBegin_many _),
      if_pos (mayBegin_many _)]
    exact congrArg Except.ok hattach

/-- **A run** is alike. -/
theorem feedAll_behind (ts : List Token) : ∀ r : Reader,
    (r.behind fs move).feedAll .many (ts.map (Token.relocate move)) =
      ((r.feedAll .many ts).map (behind fs move)).mapError (Fault.relocate move) := by
  induction ts with
  | nil => intro r; rfl
  | cons t ts ih =>
    intro r
    rw [List.map_cons, feedAll, feedAll, feed_behind]
    cases r.feed .many t with
    | error cause => rfl
    | ok r' => exact ih r'

theorem finish_behind (r : Reader) :
    (r.behind fs move).finish =
      r.finish.map fun gs => fs.toList ++ gs.map (Form.relocate move) := by
  obtain ⟨stack, pending, forms⟩ := r
  cases stack with
  | nil => cases pending <;> simp [finish, behind, Except.map]
  | cons l rest => simp [finish, behind, Except.map]

end Behind

/-! ## 3. Tokens behind those of complete forms -/

/-- **The reader starts anew where the tokens of some forms end.** -/
theorem run_append {ts : List Token} {fs : List Form} (h : run .many ts = .ok fs)
    (move : Position → Position) (us : List Token) :
    run .many (ts ++ us.map (Token.relocate move)) =
      ((run .many us).map fun gs => fs ++ gs.map (Form.relocate move)).mapError
        (Fault.relocate move) := by
  obtain ⟨⟨stack, pending, forms⟩, hread, hfinish⟩ := run_eq_ok_iff_feedAll.mp h
  obtain ⟨rfl, rfl, rfl⟩ := finish_eq_ok_iff.mp hfinish
  have hbegin : initial.feedAll .many ts = .ok (initial.behind forms move) := by
    rw [hread]
    simp [initial, behind]
  rw [run, feedAll_append_of_ok hbegin, feedAll_behind, run]
  cases hus : initial.feedAll .many us with
  | error f => rfl
  | ok r' =>
    simp only [Except.map, Except.mapError, finish_behind]
    cases hfin : r'.finish with
    | ok gs => rfl
    | error cause =>
      -- The last of all tokens is one of those behind, since the end is no fault without any.
      have hne := ne_nil_of_finish_error hus hfin
      have hlast : (ts ++ us.map (Token.relocate move)).getLast? =
          us.getLast?.map (Token.relocate move) := by
        rw [List.getLast?_append, List.getLast?_map, List.getLast?_eq_some_getLast hne]
        rfl
      rw [hlast]
      rfl

end Reader

end Form

end Sexpr
