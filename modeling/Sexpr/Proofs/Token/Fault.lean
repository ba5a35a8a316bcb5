/-
# Where a scan stops

Every character read leads to the next place, whether it is taken or refused.  So a read that fails
fails on one character: all before it was taken, and the fault stands where this character does
(`read_eq_error`).  The end of the source can bring a fault of its own, and that one stands at the
end.  In either case the source is in two parts, what the scanner has read and what it has not, and
the fault stands at the end of the first (`exists_stops`, `Stops.position`).

The scanner looks one character ahead and no further.  **A fault before the end of a source is
final**: the character it was found on and the one behind it are there whatever follows the source
(`run_append_of_error`).
-/
import Sexpr.Proofs.Token.Places

namespace Sexpr.Token.Scan

variable {s t : Scan} {c : Char} {cs : List Char} {next ahead : Option Char} {f : Fault}

/-! ## 1. Places -/

theorem position_of_step_ok (h : s.step c next = .ok t) : t.position = s.position.advance c := by
  unfold step at h
  cases hj : s.mode.judge c next with
  | skip m | keep m | emit kind =>
    rw [hj] at h
    obtain rfl := Except.ok.inj h
    rfl
  | close shape =>
    simp only [hj, close] at h
    split at h
    · obtain rfl := Except.ok.inj h
      rfl
    · exact absurd h (by simp)
  | refuse cause => rw [hj] at h; exact absurd h (by simp)

theorem position_of_step_error (h : s.step c next = .error f) :
    f.position = s.position.advance c := by
  unfold step at h
  cases hj : s.mode.judge c next with
  | skip m | keep m | emit kind => rw [hj] at h; exact absurd h (by simp)
  | close shape =>
    simp only [hj, close] at h
    split at h
    · exact absurd h (by simp)
    · obtain rfl := Except.error.inj h
      rfl
  | refuse cause =>
    rw [hj] at h
    obtain rfl := Except.error.inj h
    rfl

/-- The end of the source is no character. -/
theorem position_of_finish_error (h : s.finish = .error f) : f.position = s.position := by
  unfold finish at h
  split at h
  · exact absurd h (by simp)
  · exact absurd h (by simp)
  · obtain rfl := Except.error.inj h
    rfl
  · unfold close at h
    split at h
    · exact absurd h (by simp)
    · obtain rfl := Except.error.inj h
      rfl

theorem position_of_read_ok : ∀ (cs : List Char) (s : Scan), s.read cs ahead = .ok t →
    t.position = s.position.after cs
  | [], s, h => by
    obtain rfl := Except.ok.inj h
    rfl
  | c :: cs, s, h => by
    simp only [read] at h
    cases hs : s.step c (cs.head?.or ahead) with
    | error f => rw [hs] at h; exact absurd h (by simp)
    | ok u =>
      rw [hs] at h
      rw [position_of_read_ok cs u h, position_of_step_ok hs, Position.after_cons]

/-! ## 2. What was read -/

/-- **A read fails on one character**: all before it is read, and this one is not. -/
theorem read_eq_error : ∀ (cs : List Char) (s : Scan), s.read cs ahead = .error f →
    ∃ ds c es t, cs = ds ++ c :: es ∧ s.read ds (some c) = .ok t ∧
      t.step c (es.head?.or ahead) = .error f
  | [], s, h => absurd h (by simp)
  | c :: cs, s, h => by
    simp only [read] at h
    cases hs : s.step c (cs.head?.or ahead) with
    | error f' =>
      rw [hs] at h
      obtain rfl := Except.error.inj h
      exact ⟨[], c, cs, s, rfl, rfl, hs⟩
    | ok u =>
      rw [hs] at h
      obtain ⟨ds, d, es, t, rfl, hread, hstep⟩ := read_eq_error cs u h
      have hnext : ds.head?.or (some d) = (ds ++ d :: es).head?.or ahead := by
        cases ds <;> rfl
      refine ⟨c :: ds, d, es, t, rfl, ?_, hstep⟩
      simp only [read, hnext, hs, hread]

/-- The scanner stops with this fault when it has read `q`, before `rest`.  Either it refuses the last
character of `q`, or `q` is the whole source, which may not end there. -/
inductive Stops (f : Fault) : (q rest : List Char) → Prop
  | refused {q rest : List Char} {c : Char} {t : Scan} (hread : initial.read q (some c) = .ok t)
      (hstep : t.step c rest.head? = .error f) : Stops f (q ++ [c]) rest
  | unfinished {q : List Char} {t : Scan} (hread : initial.read q none = .ok t)
      (hfinish : t.finish = .error f) : Stops f q []

/-- A run that fails stops somewhere. -/
theorem exists_stops (h : run cs = .error f) : ∃ q rest, cs = q ++ rest ∧ Stops f q rest := by
  unfold run at h
  cases hr : initial.read cs none with
  | error f' =>
    rw [hr] at h
    obtain rfl := Except.error.inj h
    obtain ⟨q, c, rest, t, rfl, hread, hstep⟩ := read_eq_error cs initial hr
    rw [Option.or_none] at hstep
    exact ⟨q ++ [c], rest, by simp, Stops.refused hread hstep⟩
  | ok s =>
    rw [hr] at h
    cases hf : s.finish with
    | ok t => simp only [hf, Except.map] at h; exact absurd h (by simp)
    | error f' =>
      simp only [hf, Except.map] at h
      obtain rfl := Except.error.inj h
      exact ⟨cs, [], (List.append_nil cs).symm, Stops.unfinished hr hf⟩

/-- **The fault stands at the end of what was read.** -/
theorem Stops.position {q rest : List Char} (h : Stops f q rest) :
    f.position = Position.start.after q := by
  cases h with
  | refused hread hstep =>
    rw [position_of_step_error hstep, position_of_read_ok _ initial hread, Position.after_append]
    rfl
  | unfinished hread hfinish =>
    rw [position_of_finish_error hfinish, position_of_read_ok _ initial hread]
    rfl

/-! ## 3. Before the end of a source -/

/-- **A fault before the end of a source is final.** -/
theorem run_append_of_error {xs : List Char} (h : run cs = .error f)
    (hf : f.position ≠ Position.start.after cs) : run (cs ++ xs) = .error f := by
  obtain ⟨q, rest, rfl, hstops⟩ := exists_stops h
  have hne : rest ≠ [] := by
    rintro rfl
    exact hf (by rw [List.append_nil]; exact hstops.position)
  obtain ⟨d, rest, rfl⟩ := List.exists_cons_of_ne_nil hne
  cases hstops with
  | @refused q _ c t hread hstep =>
    -- The character in sight is still `d`.
    have hstep : t.step c ((d :: rest ++ xs).head?.or none) = .error f := hstep
    have hsource : q ++ [c] ++ d :: rest ++ xs = q ++ c :: (d :: rest ++ xs) := by simp
    rw [run, hsource, read_append_of_ok hread]
    simp only [read, hstep]

end Sexpr.Token.Scan
