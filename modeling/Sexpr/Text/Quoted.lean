/-
# Quoted texts

A text or a character is shown between quotes, on one line, with everything that cannot be seen
written by name or by number: NUL, tab, carriage return and line feed have short names, the
backslash and the quote in use stand behind a backslash, and any other unprintable character is
`\u`, its code point in hexadecimal between braces.

Which characters count as unprintable is a parameter.  The form is lossless whatever it is,
because the backslash itself is always escaped.
-/
namespace Sexpr.Text

/-- The one-letter names behind a backslash. -/
def shortName? : Char → Option Char
  | '\x00' => some '0'
  | '\t' => some 't'
  | '\r' => some 'r'
  | '\n' => some 'n'
  | '\\' => some '\\'
  | _ => none

/-- One character as it stands between two quotes. -/
def escapeChar (unprintable : Char → Bool) (quote c : Char) : List Char :=
  match shortName? c with
  | some name => ['\\', name]
  | none =>
    if c = quote then ['\\', c]
    else if unprintable c then ['\\', 'u', '{'] ++ Nat.toDigits 16 c.toNat ++ ['}']
    else [c]

/-- A whole text between two quotes. -/
def quoted (unprintable : Char → Bool) (quote : Char) (cs : List Char) : List Char :=
  quote :: (cs.flatMap (escapeChar unprintable quote) ++ [quote])

/-- A text in double quotes; the apostrophe stands for itself. -/
def showText (unprintable : Char → Bool) (text : String) : String :=
  String.ofList (quoted unprintable '"' text.toList)

/-- A character in apostrophes; the double quote stands for itself. -/
def showChar (unprintable : Char → Bool) (c : Char) : String :=
  String.ofList (quoted unprintable '\'' [c])

/-! ## On one line -/

theorem newline_ne_digitChar (n : Nat) : '\n' ≠ n.digitChar := by
  grind [Nat.digitChar]

/-- A number is written with digits alone, whatever its base. -/
theorem not_mem_toDigits {c : Char} (hc : ∀ n : Nat, c ≠ n.digitChar) {b : Nat} (hb : 1 < b)
    (n : Nat) : c ∉ b.toDigits n := by
  induction n using Nat.strongRecOn with
  | _ n ih =>
    rw [Nat.toDigits_eq_if hb]
    split
    · simp [hc n]
    · have hlt : n / b < n := Nat.div_lt_self (by omega) hb
      simp [ih _ hlt, hc (n % b)]

theorem shortName?_ne_newline (c : Char) : shortName? c ≠ some '\n' := by
  unfold shortName?
  split <;> decide

/-- **A line feed is always escaped**, and nothing is escaped by one. -/
theorem newline_not_mem_escapeChar (unprintable : Char → Bool) (quote c : Char) :
    '\n' ∉ escapeChar unprintable quote c := by
  unfold escapeChar
  cases hname : shortName? c with
  | some name =>
    have hne : '\n' ≠ name := by
      rintro rfl
      exact shortName?_ne_newline c hname
    simp [hne]
  | none =>
    have hc : '\n' ≠ c := by
      rintro rfl
      exact absurd hname (by decide)
    have hdigits := not_mem_toDigits newline_ne_digitChar (by omega : 1 < 16) c.toNat
    dsimp only
    split
    · simp [hc]
    · split
      · simp [hdigits]
      · simp [hc]

/-- A quoted text stands on one line. -/
theorem newline_not_mem_quoted (unprintable : Char → Bool) {quote : Char} (hq : quote ≠ '\n')
    (cs : List Char) : '\n' ∉ quoted unprintable quote cs := by
  have hbody : '\n' ∉ cs.flatMap (escapeChar unprintable quote) := by
    intro hmem
    obtain ⟨c, -, hc⟩ := List.mem_flatMap.mp hmem
    exact newline_not_mem_escapeChar unprintable quote c hc
  rw [quoted, List.mem_cons, List.mem_append, List.mem_singleton, not_or, not_or]
  exact ⟨hq.symm, hbody, hq.symm⟩

end Sexpr.Text
