/-
# The scanner with one buffer

A `Scan` keeps nothing but what a token will be made of.  The textbook scanner of this kind keeps
ONE BUFFER for everything: each character of a line goes into it, and it is emptied where it turns
out to have held no token.  It looks at a line feed before it asks for the mode, and it closes a
lexeme in whatever mode it is.  `Buffered` is that scanner, over the same decision.

Written so, it has rules for cases that no source leads to: for a line feed inside a word, a number
or a character literal, or behind an escaping backslash, which could join two parts of a lexeme
across a line; and for a string that is closed as words are.  Here these rules are PARAMETERS
(`Stray`).

**No scan strays** (`tokenize_never_strays`).  Whatever the stray rules do, the tokens and faults
are those of `tokenize`, and every point on the way is the one that `Scan` comes to, up to what the
buffer holds of a comment.  This rests on what a scan can be in the middle of (`Poised`).  A lexeme
that is left open has the character in sight that goes on with it, so neither a line feed nor the
end of the source finds one open, but for a lone backslash at the end.
-/
import Sexpr.Proofs.Token.Begun

namespace Sexpr.Token.Scan

/-! ## 1. What a scan can be in the middle of -/

/-- What holds of a scan that has read `cs` when `ds` is left of the source. -/
structure Poised (s : Scan) (cs ds : List Char) : Prop where
  /-- Between tokens nothing is in the buffer. -/
  empty : s.mode = .start → s.lexeme = ""
  /-- In a lexeme, a string or another, the buffer holds all that was read of it, to the letter. -/
  verbatim : s.mode ≠ .start → s.mode ≠ .comment → s.lexeme ≠ "" ∧ s.lexeme.toList <:+ cs
  /-- A lexeme that ends by its next character is open only where a character follows on the same
  line, a lone backslash at the end of the source apart. -/
  goesOn : ∀ shape, s.mode = .within shape →
    (∃ d, ds.head? = some d ∧ d ≠ '\n') ∨ shape = .character ∧ s.lexeme = "\\" ∧ ds = []
  /-- Behind an escaping backslash stands a character that may. -/
  escape : s.mode = .string true → ∃ d ∈ escapes, ds.head? = some d
  /-- Line feeds are read between tokens, in comments, and as characters of strings. -/
  lineFeed : ds.head? = some '\n' →
    s.mode = .start ∨ s.mode = .comment ∨ s.mode = .string false

section Begun

variable {mode : Mode} {w : List Char} {next : Option Char}

/-- A lexeme begun is not empty. -/
theorem Begun.ne_nil (h : Begun mode w next) (hs : mode ≠ .start) (hc : mode ≠ .comment) :
    w ≠ [] := by
  cases mode with
  | start => exact absurd rfl hs
  | comment => exact absurd rfl hc
  | string escaped =>
    cases escaped with
    | false => obtain ⟨body, -, rfl⟩ := h; simp
    | true => obtain ⟨body, d, -, rfl, -⟩ := h; simp
  | within shape =>
    cases shape with
    | identifier => exact (Lexeme.word h.1 free_none).ne_nil
    | int =>
      rcases h with ⟨hw, -⟩ | ⟨rfl, -⟩
      · exact (Lexeme.int hw free_none).ne_nil
      · simp
    | float =>
      rcases h.1 with hw | rfl
      · exact (Lexeme.float hw free_none).ne_nil
      · simp
    | character => rcases h with ⟨rfl, -⟩ | ⟨⟨c, letters, rfl, -⟩, -⟩ <;> simp

/-- No lexeme that ends by its next character is begun before a line feed. -/
theorem not_begun_within_newline {shape : Shape} : ¬ Begun (.within shape) w (some '\n') := by
  intro h
  cases shape with
  | identifier => exact absurd h.2 (by decide)
  | int =>
    rcases h with ⟨-, h | h⟩ | ⟨-, h⟩
    · exact absurd h (by decide)
    · exact absurd h (by decide)
    · exact absurd h (by decide)
  | float => exact absurd h.2 (by decide)
  | character =>
    rcases h with ⟨-, h⟩ | ⟨-, h⟩
    · exact absurd h (by decide)
    · exact absurd h (by decide)

/-- The modes in which a line feed can be in sight. -/
theorem Begun.mode_of_newline (h : Begun mode w (some '\n')) :
    mode = .start ∨ mode = .comment ∨ mode = .string false := by
  cases mode with
  | start => exact Or.inl rfl
  | comment => exact Or.inr (Or.inl rfl)
  | string escaped =>
    cases escaped with
    | false => exact Or.inr (Or.inr rfl)
    | true =>
      obtain ⟨body, d, -, -, hd, hnext⟩ := h
      obtain rfl := Option.some.inj hnext
      exact absurd (mem_escapes.mp hd) (by decide)
  | within shape => exact absurd h not_begun_within_newline

end Begun

/-- **Every point of a scan is poised.** -/
theorem Reached.poised {s : Scan} {cs ds : List Char} (h : Reached cs ds.head? s) :
    Poised s cs ds where
  empty hm := by
    have hw := h.begun
    rw [hm] at hw
    exact String.toList_eq_nil_iff.mp hw
  verbatim hs hc := by
    obtain ⟨body, g, hcs, -⟩ := h.parted
    refine ⟨fun hempty => h.begun.ne_nil hs hc (String.toList_eq_nil_iff.mpr hempty), body ++ g, ?_⟩
    rw [hcs, List.append_assoc]
  goesOn shape hm := by
    have hw := h.begun
    rw [hm] at hw
    cases ds with
    | nil =>
      obtain ⟨rfl, hlone⟩ := begun_within_none hw
      exact Or.inr ⟨rfl, String.toList_inj.mp hlone, rfl⟩
    | cons d ds =>
      refine Or.inl ⟨d, rfl, ?_⟩
      rintro rfl
      exact not_begun_within_newline hw
  escape hm := by
    have hw := h.begun
    rw [hm] at hw
    obtain ⟨body, d, -, -, hd, hnext⟩ := hw
    exact ⟨d, hd, hnext⟩
  lineFeed hnext := by
    have hw := h.begun
    rw [hnext] at hw
    exact hw.mode_of_newline

/-! ## 2. One buffer -/

/-- Rules for where no source leads. -/
structure Stray where
  /-- A line feed in a word, a number or a character literal, or behind an escaping backslash. -/
  lineFeed : Scan → Except Fault Scan
  /-- What is in the buffer is to be closed as words are, in the middle of a string. -/
  string : Scan → Except Fault Scan

/-- The rules as the hand-written scanner has them: its branch for line feeds keeps one in any string,
escaped or not, and passes over it in every other open lexeme; and where it finishes a lexeme, an open
string becomes a string token. -/
def Stray.joining : Stray where
  lineFeed s := .ok (if s.mode = .string true then { s with lexeme := s.lexeme.push '\n' } else s)
  string s := .ok (s.emit .string)

namespace Buffered

/-- There was no token in the buffer. -/
def discard (s : Scan) : Scan := { s with mode := .start, lexeme := "" }

/-- A line feed, which the rules for other characters do not get to see. -/
def feedLine (stray : Stray) (s : Scan) : Except Fault Scan :=
  let position := s.position.advance '\n'
  match s.mode with
  | .start => .ok { s with position }
  | .comment => .ok (discard { s with position })
  | .string false => .ok { s with lexeme := s.lexeme.push '\n', position }
  | .string true | .within _ => stray.lineFeed { s with position }

/-- What is in the buffer ends here.  The mode says what it is. -/
def close (stray : Stray) (s : Scan) : Except Fault Scan :=
  match s.mode with
  | .start | .comment => .ok (discard s)
  | .string _ => stray.string s
  | .within shape => s.close shape

/-- A word, a number or a character literal that is complete: the mode becomes its shape.  Whatever
else the scan is in the middle of, it stays in it. -/
def shaped (s : Scan) (shape : Shape) : Scan :=
  match s.mode with
  | .start | .within _ => { s with mode := .within shape }
  | .comment | .string _ => s

/-- Carry out what was decided on the character that came into the buffer last. -/
def heed (stray : Stray) (s : Scan) : Verdict → Except Fault Scan
  | .skip .start => .ok (discard s)
  | .skip mode | .keep mode => .ok { s with mode }
  | .emit kind => .ok (s.emit kind)
  | .close shape => close stray (shaped s shape)
  | .refuse cause => .error ⟨cause, s.position⟩

/-- One character read, `next` being the one behind it. -/
def step (stray : Stray) (s : Scan) (c : Char) (next : Option Char) : Except Fault Scan :=
  if c = '\n' then feedLine stray s
  else
    heed stray { s with lexeme := s.lexeme.push c, position := s.position.advance c }
      (s.mode.judge c next)

/-- Some characters read, `ahead` being the one behind the last of them. -/
def read (stray : Stray) (s : Scan) : List Char → (ahead : Option Char) → Except Fault Scan
  | [], _ => .ok s
  | c :: cs, ahead =>
    match step stray s c (cs.head?.or ahead) with
    | .ok s => read stray s cs ahead
    | .error fault => .error fault

/-- The source ends here, and with it what is in the buffer, unless that is a string. -/
def finish (stray : Stray) (s : Scan) : Except Fault Scan :=
  match s.mode with
  | .string _ => .error ⟨.unclosedString, s.position⟩
  | .start | .comment | .within _ => close stray s

/-- A whole source. -/
def run (stray : Stray) (cs : List Char) : Except Fault (List Token) :=
  match read stray initial cs none with
  | .error fault => .error fault
  | .ok s => (finish stray s).map fun t => t.tokens.toList

/-- The tokens of a source, without regard to one byte order mark at its front. -/
def tokenize (stray : Stray) (source : String) : Except Token.Error (List Token) :=
  let text := Text.withoutMark source
  (run stray text.toList).mapError (Fault.diagnose text)

/-! ## 3. Comments forgotten -/

/-- The scan that keeps nothing of a comment. -/
def forget (s : Scan) : Scan :=
  { s with lexeme := if s.mode = .comment then "" else s.lexeme }

theorem forget_of_ne {s : Scan} (h : s.mode ≠ .comment) : forget s = s := by
  rw [forget, if_neg h]

/-- In a comment only line feeds are spoken of. -/
theorem poised_of_forget {s : Scan} {cs ds : List Char} (h : Poised (forget s) cs ds) :
    Poised s cs ds := by
  by_cases hm : s.mode = .comment
  · refine ⟨?_, ?_, ?_, ?_, h.lineFeed⟩ <;> simp [hm]
  · rwa [forget_of_ne hm] at h

section Step

variable {stray : Stray} {s : Scan} {c : Char} {next : Option Char}

/-- A line feed is read alike in the modes in which it can be in sight. -/
theorem feedLine_forget (h : Begun s.mode (forget s).lexeme.toList (some '\n')) :
    (feedLine stray s).map forget = (forget s).step '\n' next := by
  obtain ⟨mode, w, p, ts⟩ := s
  rcases h.mode_of_newline with rfl | rfl | rfl
  · rfl
  · rfl
  · rfl

/-- In a comment the buffer alone takes the character. -/
theorem step_forget_of_comment (hm : s.mode = .comment) (hc : c ≠ '\n') :
    (step stray s c next).map forget = (forget s).step c next := by
  obtain ⟨mode, w, p, ts⟩ := s
  obtain rfl : mode = .comment := hm
  simp only [step, Scan.step, forget, Mode.judge, if_neg hc]
  rfl

/-- No character of a string closes it as words are closed. -/
theorem judgeString_ne_close {escaped : Bool} {shape : Shape} :
    judgeString escaped c next ≠ .close shape := by
  fun_cases judgeString escaped c next <;> simp

/-- Where neither a comment nor a string is open, the stray rule is not asked. -/
theorem heed_close {shape : Shape} (hm : s.mode ≠ .comment)
    (hs : ∀ escaped, s.mode ≠ .string escaped) :
    heed stray s (.close shape) = s.close shape := by
  obtain ⟨mode, w, p, ts⟩ := s
  cases mode with
  | start => rfl
  | comment => exact absurd rfl hm
  | string escaped => exact absurd rfl (hs escaped)
  | within shape => rfl

/-- Outside comments the buffer is the lexeme. -/
theorem step_forget_of_ne (hm : s.mode ≠ .comment) (hc : c ≠ '\n')
    (h : Begun s.mode s.lexeme.toList (some c)) :
    (step stray s c next).map forget = s.step c next := by
  have hv := judge_holds next h
  obtain ⟨mode, w, p, ts⟩ := s
  simp only [step, Scan.step, if_neg hc]
  cases hj : mode.judge c next with
  | skip m =>
    rw [hj] at hv
    cases mode with
    | start =>
      -- The buffer was empty; what came into it is thrown away or begins a comment.
      obtain rfl : w = "" := String.toList_eq_nil_iff.mp h
      rcases hv with ⟨-, rfl⟩ | ⟨-, rfl⟩
      · rfl
      · rfl
    | comment => exact absurd rfl hm
    | string escaped => exact hv.elim
    | within shape => exact hv.elim
  | keep m =>
    rw [hj] at hv
    have hv : Begun m (w.toList ++ [c]) next := hv
    have hm' : m ≠ .comment := by
      rintro rfl
      exact absurd hv (List.append_ne_nil_of_right_ne_nil _ (List.cons_ne_nil _ _))
    exact congrArg Except.ok (forget_of_ne hm')
  | emit kind => rfl
  | close shape =>
    have hs : ∀ escaped, mode ≠ .string escaped := by
      rintro escaped rfl
      exact judgeString_ne_close hj
    have hclosed : heed stray ⟨mode, w.push c, p.advance c, ts⟩ (.close shape) =
        (⟨mode, w.push c, p.advance c, ts⟩ : Scan).close shape := heed_close hm hs
    rw [hclosed]
    simp only [Scan.close]
    cases shape.kind (w.push c) with
    | ok kind => rfl
    | error cause => rfl
  | refuse cause => rfl

/-- **One step** is one step of `Scan`. -/
theorem step_forget (h : Begun s.mode (forget s).lexeme.toList (some c)) :
    (step stray s c next).map forget = (forget s).step c next := by
  by_cases hc : c = '\n'
  · subst hc
    rw [step, if_pos rfl]
    exact feedLine_forget h
  · by_cases hm : s.mode = .comment
    · exact step_forget_of_comment hm hc
    · rw [forget_of_ne hm] at h ⊢
      exact step_forget_of_ne hm hc h

end Step

/-- **A run** is a run of `Scan`. -/
theorem read_forget (stray : Stray) {ahead : Option Char} : ∀ (ds cs : List Char) (s : Scan),
    Reached cs (ds.head?.or ahead) (forget s) →
      (read stray s ds ahead).map forget = (forget s).read ds ahead
  | [], _, _, _ => rfl
  | d :: ds, cs, s, h => by
    have hbegun : Begun s.mode (forget s).lexeme.toList (some d) := h.begun
    have hstep := @step_forget stray s d (ds.head?.or ahead) hbegun
    simp only [read, Scan.read]
    cases ht : step stray s d (ds.head?.or ahead) with
    | error fault =>
      rw [ht] at hstep
      rw [← hstep]
      rfl
    | ok t =>
      rw [ht] at hstep
      rw [← hstep]
      exact read_forget stray ds (cs ++ [d]) t (h.step hstep.symm)

theorem read_initial_forget (stray : Stray) (cs : List Char) (ahead : Option Char) :
    (read stray initial cs ahead).map forget = initial.read cs ahead :=
  read_forget stray cs [] initial (reached_initial _)

theorem finish_forget (stray : Stray) (s : Scan) :
    (finish stray s).map (fun t => t.tokens.toList) =
      (forget s).finish.map fun t => t.tokens.toList := by
  obtain ⟨mode, w, p, ts⟩ := s
  cases mode with
  | start => rfl
  | comment => rfl
  | string escaped => rfl
  | within shape => rfl

/-- **Both scanners make the same tokens**, and find the same faults. -/
theorem run_eq (stray : Stray) (cs : List Char) : run stray cs = Scan.run cs := by
  unfold run Scan.run
  rw [← read_initial_forget stray cs none]
  cases read stray initial cs none with
  | error fault => rfl
  | ok s => exact finish_forget stray s

theorem poised_of_read {stray : Stray} {cs ds : List Char} {s : Scan}
    (h : read stray initial cs ds.head? = .ok s) : Poised s cs ds := by
  have hread := read_initial_forget stray cs ds.head?
  rw [h] at hread
  exact poised_of_forget (reached_of_read hread.symm).poised

end Buffered

/-! ## 4. Sources -/

/-- **No scan strays.**  Whatever the rules are for a line feed that would stand inside a lexeme and
for a string that would be closed as words are, the scanner with one buffer makes the tokens and
finds the faults that `tokenize` does; so neither rule is ever applied.  At every point of a source
it has read what `Scan` has, and if that is no fault, the point is poised. -/
theorem tokenize_never_strays (stray : Stray) (source : String) :
    Buffered.tokenize stray source = tokenize source ∧
      ∀ cs ds, (Text.withoutMark source).toList = cs ++ ds →
        (Buffered.read stray initial cs ds.head?).map Buffered.forget = initial.read cs ds.head? ∧
          ∀ s, Buffered.read stray initial cs ds.head? = .ok s → Poised s cs ds := by
  constructor
  · simp only [Buffered.tokenize, Buffered.run_eq, tokenize]
  · intro cs ds _
    exact ⟨Buffered.read_initial_forget stray cs ds.head?, fun s hs => Buffered.poised_of_read hs⟩

/-- Behind a mark, a comment and a string of two lines, a lone backslash at the end. -/
theorem tokenize_never_strays_backslash :
    (Text.withoutMark "\uFEFF;b\n\"c\nd\" \\").toList = ";b\n\"c\nd\" \\".toList ++ [] ∧
      Buffered.read .joining initial ";b\n\"c\nd\" \\".toList none =
        .ok ⟨.within .character, "\\", ⟨3, 4⟩, #[⟨.string, "\"c\nd\"", ⟨3, 2⟩⟩]⟩ ∧
      Poised ⟨.within .character, "\\", ⟨3, 4⟩, #[⟨.string, "\"c\nd\"", ⟨3, 2⟩⟩]⟩
        ";b\n\"c\nd\" \\".toList [] ∧
      Buffered.tokenize .joining "\uFEFF;b\n\"c\nd\" \\" = tokenize "\uFEFF;b\n\"c\nd\" \\" := by
  have hsource : (Text.withoutMark "\uFEFF;b\n\"c\nd\" \\").toList =
      ";b\n\"c\nd\" \\".toList ++ [] := by rfl
  have hread : Buffered.read .joining initial ";b\n\"c\nd\" \\".toList none =
      .ok ⟨.within .character, "\\", ⟨3, 4⟩, #[⟨.string, "\"c\nd\"", ⟨3, 2⟩⟩]⟩ := by rfl
  obtain ⟨heq, hpoints⟩ := tokenize_never_strays .joining "\uFEFF;b\n\"c\nd\" \\"
  exact ⟨hsource, hread, (hpoints _ _ hsource).2 _ hread, heq⟩

end Sexpr.Token.Scan
