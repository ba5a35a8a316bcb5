/-
# Sources behind other sources

A source `v` behind a text is scanned as by itself, if the scanner is between two tokens where `v`
begins: the same tokens or the same fault, at places moved by the lines of that text and, on the
first line of `v`, by the columns of its last one.  The scan knows of what it has read only its
place and its tokens, no decision asks for either, and every step moves with them (`step_behind`).

**Where a separator ends, the scanner is between two tokens.**  A gap that is not empty ends the
last lexeme, which may then stand before the gap as it stood before the end of the source, and it
must itself end the comment in which the source may have been left (`Separates`).
-/
import Sexpr.Proofs.Token.Faithful
import Sexpr.Proofs.Token.Fault

namespace Sexpr

namespace Position

/-! ## 1. Places that are moved -/

/-- The place `p` of a text, where the text stands behind `cs`: lower by the line feeds of `cs` and,
on the first line, further in by what follows the last of them. -/
def behind (cs : List Char) (p : Position) : Position :=
  ⟨p.line + cs.count '\n',
    if p.line = 1 then p.column + (cs.rtakeWhile (· ≠ '\n')).length else p.column⟩

/-- The text begins where `cs` ends. -/
theorem behind_start (cs : List Char) : start.behind cs = start.after cs := by
  have hparts : start.after cs = ⟨(start.after cs).line, (start.after cs).column⟩ := rfl
  rw [hparts, line_after_start, column_after_start]
  simp [behind, start]

theorem behind_advance (cs : List Char) {p : Position} (h : 1 ≤ p.line) (c : Char) :
    (p.advance c).behind cs = (p.behind cs).advance c := by
  by_cases hc : c = '\n'
  · have hline : p.line ≠ 0 := by omega
    simp [behind, advance, hc, hline, Nat.add_right_comm]
  · by_cases hfirst : p.line = 1
    · simp [behind, advance, hc, hfirst, Nat.add_right_comm]
    · simp [behind, advance, hc, hfirst]

theorem one_le_line_advance {p : Position} (h : 1 ≤ p.line) (c : Char) :
    1 ≤ (p.advance c).line := by
  rw [line_advance]
  omega

end Position

namespace Token

/-- The token, where its text stands behind `cs`. -/
def behind (cs : List Char) (t : Token) : Token := { t with position := t.position.behind cs }

@[simp] theorem content_behind (cs : List Char) (t : Token) :
    (t.behind cs).content = t.content := rfl

/-- The fault, where its text stands behind `cs`. -/
def Fault.behind (cs : List Char) (f : Fault) : Fault :=
  { f with position := f.position.behind cs }

namespace Scan

/-! ## 2. Scans that are moved -/

/-- The scan of a text, where the text stands behind `cs` and the tokens of `cs` are `ts`. -/
def behind (cs : List Char) (ts : Array Token) (s : Scan) : Scan :=
  ⟨s.mode, s.lexeme, s.position.behind cs, ts ++ s.tokens.map (Token.behind cs)⟩

section Behind

variable (cs : List Char) (ts : Array Token)

/-- A result, where the text it was read from stands behind `cs`. -/
def resultBehind (r : Except Fault Scan) : Except Fault Scan :=
  (r.map (behind cs ts)).mapError (Fault.behind cs)

theorem emit_behind (s : Scan) (kind : Kind) :
    (s.behind cs ts).emit kind = (s.emit kind).behind cs ts := by
  simp [emit, behind, Token.behind]

theorem close_behind (s : Scan) (shape : Shape) :
    (s.behind cs ts).close shape = resultBehind cs ts (s.close shape) := by
  have hlexeme : (s.behind cs ts).lexeme = s.lexeme := rfl
  rw [close, close, hlexeme]
  cases shape.kind s.lexeme with
  | ok kind => exact congrArg Except.ok (emit_behind cs ts s kind)
  | error cause => rfl

/-- **One step** moves with its scan.  The decision is the same, since it asks for no place. -/
theorem step_behind {s : Scan} (h : 1 ≤ s.position.line) (c : Char) (next : Option Char) :
    (s.behind cs ts).step c next = resultBehind cs ts (s.step c next) := by
  have hplace := Position.behind_advance cs h c
  have hmode : (s.behind cs ts).mode = s.mode := rfl
  rw [step, step, hmode]
  simp only [behind, ← hplace]
  cases s.mode.judge c next with
  | skip mode => rfl
  | keep mode => rfl
  | emit kind =>
    exact congrArg Except.ok
      (emit_behind cs ts { s with lexeme := s.lexeme.push c, position := s.position.advance c } kind)
  | close shape =>
    exact close_behind cs ts
      { s with lexeme := s.lexeme.push c, position := s.position.advance c } shape
  | refuse cause => rfl

/-- **A run** moves with its scan. -/
theorem read_behind (ahead : Option Char) : ∀ (ds : List Char) (s : Scan), 1 ≤ s.position.line →
    (s.behind cs ts).read ds ahead = resultBehind cs ts (s.read ds ahead)
  | [], s, _ => rfl
  | d :: ds, s, h => by
    rw [read, read, step_behind cs ts h]
    cases hs : s.step d (ds.head?.or ahead) with
    | error f => rfl
    | ok t =>
      have hline : 1 ≤ t.position.line := by
        rw [position_of_step_ok hs]
        exact Position.one_le_line_advance h d
      exact read_behind ahead ds t hline

theorem finish_behind (s : Scan) : (s.behind cs ts).finish = resultBehind cs ts s.finish := by
  have hmode : (s.behind cs ts).mode = s.mode := rfl
  rw [finish, finish, hmode]
  cases s.mode with
  | start => rfl
  | comment => rfl
  | string escaped => rfl
  | within shape => exact close_behind cs ts s shape

end Behind

/-- **What is behind a text is scanned as by itself**, if the text is read to its end and the scan is
between two tokens there. -/
theorem run_append_of_between {cs ds : List Char} {ts : List Token}
    (h : initial.read cs ds.head? = .ok (between (Position.start.after cs) ts.toArray)) :
    run (cs ++ ds) =
      ((run ds).map fun us => ts ++ us.map (Token.behind cs)).mapError (Fault.behind cs) := by
  have hbegin : between (Position.start.after cs) ts.toArray = initial.behind cs ts.toArray := by
    have hplace := Position.behind_start cs
    simp only [between, behind, initial, hplace]
    simp
  rw [← Option.or_none (o := ds.head?)] at h
  rw [run, run, read_append_of_ok h, hbegin, read_behind cs ts.toArray none ds initial (le_refl 1)]
  cases initial.read ds none with
  | error f => rfl
  | ok s =>
    simp only [resultBehind, Except.map, Except.mapError, finish_behind]
    cases s.finish with
    | error f => rfl
    | ok t => simp [behind]

end Scan

/-! ## 3. Separators -/

/-- The source, read to its end, leaves a comment open. -/
def EndsInComment (cs : List Char) : Prop :=
  ∃ s, Scan.initial.read cs none = .ok s ∧ s.mode = .comment

/-- The gap separates the source `u` from what stands behind it: it is not empty, and it begins by
ending the comment that `u` may leave open. -/
structure Separates (u g : List Char) : Prop where
  gap : Gap g
  ne_nil : g ≠ []
  newline : EndsInComment u → g.head? = some '\n'

/-- Behind its line feed a gap goes on as a gap. -/
theorem Gap.of_newline_cons {g : List Char} (h : Gap ('\n' :: g)) : Gap g := by
  cases h with
  | blank _ hg => exact hg

/-- Whatever the source ends in, the separator makes a gap of it. -/
theorem Separates.gap_append {body last g : List Char} {ts : List Token}
    (h : Separates (body ++ last) g) (hb : Pieces .start body last.head? ts) (hl : LastGap last) :
    Gap (last ++ g) := by
  rcases hl with hl | hl
  · exact hl.append h.gap
  · have hopen : EndsInComment (body ++ last) := by
      obtain ⟨g', text, hg', ht, rfl⟩ := hl
      rw [← Option.or_none (o := (g' ++ ';' :: text).head?)] at hb
      have hread := Scan.read_initial_pieces hb
      rw [Scan.read_append_of_ok (Scan.read_gap hg' _), Scan.read_openComment ht] at hread
      exact ⟨_, hread, rfl⟩
    obtain ⟨rest, rfl⟩ := List.head?_eq_some_iff.mp (h.newline hopen)
    have hclosed := hl.close.append h.gap.of_newline_cons
    rwa [List.append_assoc, List.singleton_append] at hclosed

/-- **Behind a separator the scanner is between two tokens**, and has those of the source. -/
theorem Separates.read {u g : List Char} {ts : List Token} (h : Separates u g)
    (hu : Cut .start u ts) (next : Option Char) :
    Scan.initial.read (u ++ g) next =
      .ok (Scan.between (Position.start.after (u ++ g)) ts.toArray) := by
  obtain ⟨body, last, rfl, hb, hl⟩ := hu
  have hgap : Gap (last ++ g) := h.gap_append hb hl
  have hbody : Pieces .start body ((last ++ g).head?.or next) ts := by
    cases last with
    | nil =>
      have hfree := h.gap.free h.ne_nil []
      rw [List.append_nil] at hfree
      obtain ⟨c, rest, rfl⟩ := List.exists_cons_of_ne_nil h.ne_nil
      exact hb.before hfree
    | cons c last => exact hb
  rw [List.append_assoc, Scan.read_initial_pieces hbody, Scan.read_gap hgap,
    ← Position.after_append]

/-! ## 4. Sources with a separator between them -/

/-- What is left of a result where no place is looked at: the kinds and texts, or the cause. -/
def outcome (r : Except Error (List Token)) : Except Cause (List (Kind × String)) :=
  (r.map fun ts => ts.map content).mapError Diagnosis.cause

/-- Behind a separator a source is tokenized as by itself, its places moved. -/
theorem Separates.tokenize {u g v : String} {ts : List Token}
    (hu : u.toList.head? ≠ some '\uFEFF') (ht : Sexpr.tokenize u = .ok ts)
    (hg : Separates u.toList g.toList) :
    Sexpr.tokenize (u ++ g ++ v) =
      ((Scan.run v.toList).map fun us => ts ++ us.map (behind (u ++ g).toList)).mapError
        fun f => (f.behind (u ++ g).toList).diagnose (u ++ g ++ v) := by
  have hcut := cut_of_tokenize hu ht
  have hmark : (u ++ g ++ v).toList.head? ≠ some '\uFEFF' := by
    rw [String.toList_append, String.toList_append]
    cases hcs : u.toList with
    | nil =>
      obtain ⟨c, rest, hcons⟩ := List.exists_cons_of_ne_nil hg.ne_nil
      have hhead := hg.gap.head?_ne_mark
      rw [hcons] at hhead ⊢
      exact hhead
    | cons c rest =>
      rw [hcs] at hu
      exact hu
  have hread := hg.read hcut v.toList.head?
  rw [← String.toList_append] at hread
  rw [tokenize_eq_run hmark, String.toList_append, Scan.run_append_of_between hread]
  cases Scan.run v.toList <;> rfl

end Token

/-- **Tokenizing across a separator.**  Where a gap separates two sources, the tokens are those of
the first, untouched, and those of the second, moved; and if the second is at fault, so is the whole,
for the same cause at the place moved.  Which separator it is plays no part but in the places. -/
theorem tokenize_append_of_separates {u g v : String} {ts : List Token}
    (hu : u.toList.head? ≠ some '\uFEFF') (hv : v.toList.head? ≠ some '\uFEFF')
    (ht : tokenize u = .ok ts) (hg : Token.Separates u.toList g.toList) :
    (∀ us, tokenize v = .ok us →
        tokenize (u ++ g ++ v) = .ok (ts ++ us.map (Token.behind (u ++ g).toList))) ∧
      (∀ e, tokenize v = .error e →
        ∃ e', tokenize (u ++ g ++ v) = .error e' ∧ e'.cause = e.cause ∧
          e'.position = e.position.behind (u ++ g).toList) ∧
      ∀ h : String, Token.Separates u.toList h.toList →
        Token.outcome (tokenize (u ++ h ++ v)) = Token.outcome (tokenize (u ++ g ++ v)) := by
  rw [tokenize_eq_run hv, hg.tokenize hu ht]
  refine ⟨?_, ?_, ?_⟩
  · intro us hus
    rw [mapError_eq_ok_iff] at hus
    rw [hus]
    rfl
  · intro e he
    obtain ⟨f, hf, rfl⟩ := mapError_eq_error_iff.mp he
    rw [hf]
    exact ⟨_, rfl, rfl, rfl⟩
  · intro h hh
    rw [hh.tokenize hu ht]
    cases Token.Scan.run v.toList with
    | ok us => simp [Token.outcome, Except.map, Except.mapError, Function.comp_def]
    | error f => rfl

/-- A separator that ends one comment and has another, before a source and before one at fault. -/
theorem tokenize_append_of_separates_comments :
    "a;b".toList.head? ≠ some '\uFEFF' ∧ "(d".toList.head? ≠ some '\uFEFF' ∧
      "\"d".toList.head? ≠ some '\uFEFF' ∧
      tokenize "a;b" = .ok [⟨.identifier, "a", ⟨1, 1⟩⟩] ∧
      Token.Separates "a;b".toList "\n;c\n ".toList ∧
      tokenize ("a;b" ++ "\n;c\n " ++ "(d") =
        .ok [⟨.identifier, "a", ⟨1, 1⟩⟩, ⟨.opening .round, "(", ⟨3, 2⟩⟩,
          ⟨.identifier, "d", ⟨3, 3⟩⟩] ∧
      (∃ e, tokenize ("a;b" ++ "\n;c\n " ++ "\"d") = .error e ∧ e.cause = .unclosedString ∧
        e.position = ⟨3, 3⟩) ∧
      Token.outcome (tokenize ("a;b" ++ "\n" ++ "(d")) =
        Token.outcome (tokenize ("a;b" ++ "\n;c\n " ++ "(d")) := by
  have hu : "a;b".toList.head? ≠ some '\uFEFF' := by decide
  have hv : "(d".toList.head? ≠ some '\uFEFF' := by decide
  have hw : "\"d".toList.head? ≠ some '\uFEFF' := by decide
  have ht : tokenize "a;b" = .ok [⟨.identifier, "a", ⟨1, 1⟩⟩] := by rfl
  have hblank : Token.Gap [' '] := Token.Gap.blank rfl Token.Gap.nil
  have hcomment : Token.Gap (';' :: (['c'] ++ '\n' :: [' '])) :=
    Token.Gap.comment (by decide) hblank
  have hg : Token.Separates "a;b".toList "\n;c\n ".toList :=
    ⟨Token.Gap.blank rfl hcomment, by decide, fun _ => rfl⟩
  have hh : Token.Separates "a;b".toList "\n".toList :=
    ⟨Token.Gap.blank rfl Token.Gap.nil, by decide, fun _ => rfl⟩
  have hread := tokenize_append_of_separates hu hv ht hg
  have hfault := tokenize_append_of_separates hu hw ht hg
  exact ⟨hu, hv, hw, ht, hg, hread.1 _ rfl, hfault.2.1 _ rfl, hread.2.2 _ hh⟩

end Sexpr
