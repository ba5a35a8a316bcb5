/-
# Forms that were built

A form may be built without a source, by constructors that write the text of an atom themselves.
**Every form built with the checked ones reads back**, on one line and on several
(`Built.faithful`).  The text that each constructor writes is a lexeme of the kind it gives, and a
lexeme is a faithful atom.  Lists, quotations and places do not matter for this, so it is kept by
every way to put forms together.

The text of an atom says what it was made from.  `intValue?`, `booleanValue?`, `stringValue?` and
`characterValue?` read a text without the scanner, the constructors and the tables of both, so that they
say what the texts are by themselves: digits in decimal behind a sign, two words, a text between two quotes
with its escapes undone, a character behind a backslash or one of three that are named.  They give back the
number, the truth value, the text and the character, except that a carriage return is spelled as a new
line; and a symbol is spelled by its name.
-/
import Sexpr.Proofs.Form.RoundTrip
import Sexpr.Proofs.Form.Symbol

namespace Sexpr.Form

open Token (IsDigits IsInt StringBody IsString IsCharacter Lexeme Blank)

/-! ## 1. Numbers -/

theorem isDigits_repr (n : Nat) : IsDigits n.repr.toList := by
  rw [Nat.toList_repr]
  exact ⟨Nat.toDigits_ne_nil, fun d hd => Nat.isDigit_of_mem_toDigits (by omega) (by omega) hd⟩

/-- The text of a number is its digits, behind a sign or not. -/
theorem toList_intText (v : Int) :
    (intText v).toList = (if v < 0 then [Token.negation] else []) ++ v.natAbs.repr.toList := by
  unfold intText
  split <;> simp

theorem isInt_intText (v : Int) : IsInt (intText v).toList := by
  refine ⟨if v < 0 then [Token.negation] else [], v.natAbs.repr.toList, toList_intText v, ?_,
    isDigits_repr _⟩
  split
  · exact Or.inr rfl
  · exact Or.inl rfl

/-- The number that digits are in decimal, if all of them are digits and there is one. -/
def decimal? (digits : List Char) : Option Nat :=
  if digits ≠ [] ∧ digits.all Char.isDigit then some (Nat.ofDigitChars 10 digits 0) else none

/-- The number that a text is in decimal, the sign read as minus. -/
def intValue? (text : String) : Option Int :=
  match text.toList with
  | [] => none
  | c :: digits =>
    if c = '~' then (decimal? digits).map fun n : Nat => -(n : Int)
    else (decimal? (c :: digits)).map Int.ofNat

theorem decimal?_repr (n : Nat) : decimal? n.repr.toList = some n := by
  have hall : n.repr.toList.all Char.isDigit = true := List.all_eq_true.mpr (isDigits_repr n).2
  rw [decimal?, if_pos ⟨(isDigits_repr n).1, hall⟩, Nat.toList_repr, Nat.ofDigitChars_ten_toDigits]

/-- **A number is given back**, whatever its sign. -/
theorem intValue?_intText (v : Int) : intValue? (intText v) = some v := by
  rw [intValue?, toList_intText]
  by_cases hv : v < 0
  · have habs : -(v.natAbs : Int) = v := by omega
    rw [if_pos hv, List.singleton_append]
    simp only [if_pos (show Token.negation = '~' from rfl), decimal?_repr, Option.map_some, habs]
  · have habs : (v.natAbs : Int) = v := by omega
    obtain ⟨d, digits, hd⟩ := List.exists_cons_of_ne_nil (isDigits_repr v.natAbs).1
    have hdigit : d.isDigit = true := (isDigits_repr v.natAbs).2 d (hd ▸ List.mem_cons_self)
    have hsign : d ≠ '~' := by rintro rfl; exact absurd hdigit (by decide)
    rw [if_neg hv, List.nil_append, hd]
    simp only [if_neg hsign, ← hd, decimal?_repr, Option.map_some, Int.ofNat_eq_natCast, habs]

/-! ## 2. Texts -/

/-- A character is written as itself or as one escape, and either may stand in a string. -/
theorem stringBody_escape (c : Char) : StringBody (escape c) := by
  unfold escape
  split
  · exact StringBody.escape (by decide) StringBody.nil
  · exact StringBody.escape (by decide) StringBody.nil
  · exact StringBody.escape (by decide) StringBody.nil
  · exact StringBody.escape (by decide) StringBody.nil
  · next hquote hback _ _ => exact StringBody.plain hquote hback StringBody.nil

theorem stringBody_flatMap_escape (cs : List Char) : StringBody (cs.flatMap escape) := by
  induction cs with
  | nil => exact StringBody.nil
  | cons c cs ih =>
    rw [List.flatMap_cons]
    exact (stringBody_escape c).append ih

theorem isString_stringText (s : String) : IsString (stringText s).toList :=
  ⟨s.toList.flatMap escape, stringBody_flatMap_escape _, String.toList_ofList⟩

/-- The character that an escape stands for. -/
def escaped? : Char → Option Char
  | '"' => some '"'
  | '\\' => some '\\'
  | 't' => some '\t'
  | 'n' => some '\n'
  | _ => none

/-- Escapes undone; none if something else stands behind a backslash. -/
def unescape? : List Char → Option (List Char)
  | [] => some []
  | ['\\'] => none
  | '\\' :: d :: cs => (escaped? d).bind fun c => (unescape? cs).map (c :: ·)
  | c :: cs => (unescape? cs).map (c :: ·)

/-- The text between two quotes, its escapes undone. -/
def stringValue? (text : String) : Option String :=
  match text.toList with
  | '"' :: cs =>
    if cs.getLast? = some '"' then (unescape? cs.dropLast).map String.ofList else none
  | _ => none

theorem unescape?_cons {c : Char} (hc : c ≠ '\\') (cs : List Char) :
    unescape? (c :: cs) = (unescape? cs).map (c :: ·) := by
  rw [unescape?]
  · exact fun h _ => hc h
  · exact fun _ _ h _ => hc h

/-- One character is undone. -/
theorem unescape?_escape_append (c : Char) (cs : List Char) :
    unescape? (escape c ++ cs) = (unescape? cs).map (c :: ·) := by
  unfold escape
  split
  · rfl
  · rfl
  · rfl
  · rfl
  · next hback _ _ => exact unescape?_cons hback cs

theorem unescape?_flatMap_escape (cs : List Char) : unescape? (cs.flatMap escape) = some cs := by
  induction cs with
  | nil => rfl
  | cons c cs ih => rw [List.flatMap_cons, unescape?_escape_append, ih, Option.map_some]

/-- **A text is given back**, whatever stands in it. -/
theorem stringValue?_stringText (s : String) : stringValue? (stringText s) = some s := by
  rw [stringValue?, stringText, String.toList_ofList]
  simp only [List.getLast?_concat, if_true, List.dropLast_concat, unescape?_flatMap_escape,
    Option.map_some, String.ofList_toList]

/-! ## 3. Characters -/

theorem isCharacter_characterText (c : Char) : IsCharacter (characterText c).toList := by
  unfold characterText
  cases hb : Blank.ofChar? c with
  | some b => exact Or.inr ⟨b, rfl⟩
  | none => exact Or.inl ⟨c, by rw [Token.isBlank, hb]; rfl, String.toList_ofList⟩

/-- The character that a text names, or else the one behind its backslash. -/
def characterValue? (text : String) : Option Char :=
  if text = "\\space" then some ' '
  else if text = "\\tab" then some '\t'
  else if text = "\\newline" then some '\n'
  else
    match text.toList with
    | ['\\', c] => some c
    | _ => none

/-- **A character is given back**, except that a carriage return gives a line feed. -/
theorem characterValue?_characterText (c : Char) :
    characterValue? (characterText c) = some (if c = '\r' then '\n' else c) := by
  unfold characterText
  cases hb : Blank.ofChar? c with
  | some b =>
    simp only [Blank.ofChar?_eq_some_iff, List.mem_cons, Prod.mk.injEq, List.not_mem_nil,
      or_false] at hb
    rcases hb with ⟨rfl, rfl⟩ | ⟨rfl, rfl⟩ | ⟨rfl, rfl⟩ | ⟨rfl, rfl⟩ <;> rfl
  | none =>
    have hreturn : c ≠ '\r' := by rintro rfl; exact absurd hb (by decide)
    -- the names are longer than a backslash and one character
    have hname : ∀ name : String, name.length ≠ 2 → String.ofList ['\\', c] ≠ name := by
      rintro name hlength rfl
      exact hlength String.length_ofList
    simp only [characterValue?, if_neg (hname "\\space" (by decide)),
      if_neg (hname "\\tab" (by decide)), if_neg (hname "\\newline" (by decide)),
      String.toList_ofList, if_neg hreturn]

/-! ## 4. Words -/

/-- The truth value that a word names. -/
def booleanValue? (text : String) : Option Bool :=
  if text = "true" then some true else if text = "false" then some false else none

theorem booleanValue?_spelling (v : Bool) :
    booleanValue? (Keyword.boolean v).spelling = some v := by
  cases v <;> rfl

/-- A symbol is spelled by its name. -/
theorem text_of_symbol? {name : String} {f : Form} (h : symbol? name = some f) :
    f.token?.map Token.text = some name := by
  obtain ⟨-, rfl⟩ := symbol?_eq_some_iff.mp h
  rfl

/-! ## 5. Atoms that are built -/

theorem token?_literal (kind : Token.Kind) (text : String) :
    (literal kind text).token? = some ⟨kind, text, .start⟩ := rfl

/-- A lexeme is a faithful atom. -/
theorem faithful_literal {kind : Token.Kind} {text : String} (ha : kind.isAtomic = true)
    (h : Lexeme kind text.toList none) : (literal kind text).Faithful := by
  intro t ht
  obtain rfl := List.mem_singleton.mp ht
  exact Token.faithful_iff.mpr ⟨ha, h⟩

theorem faithful_int (v : Int) : (int v).Faithful :=
  faithful_literal rfl (Lexeme.int (isInt_intText v) Token.free_none)

theorem faithful_boolean (v : Bool) : (boolean v).Faithful := by
  refine faithful_literal rfl ?_
  have hword : Token.IsWord (Keyword.boolean v).spelling.toList := by
    cases v
    · exact ⟨'f', "alse".toList, rfl, rfl, List.all_eq_true.mp rfl⟩
    · exact ⟨'t', "rue".toList, rfl, rfl, List.all_eq_true.mp rfl⟩
  have hlex := hword.lexeme
  rwa [Token.Kind.ofWord_spelling] at hlex

theorem faithful_string (s : String) : (string s).Faithful :=
  faithful_literal rfl (Lexeme.string (isString_stringText s))

theorem faithful_character (c : Char) : (character c).Faithful :=
  faithful_literal rfl (Lexeme.character (isCharacter_characterText c) nofun)

/-- An accepted name is a word. -/
theorem faithful_of_symbol? {name : String} {f : Form} (h : symbol? name = some f) :
    f.Faithful := by
  obtain ⟨hword, rfl⟩ := symbol?_eq_some_iff.mp h
  exact faithful_literal (Token.Kind.isAtomic_ofWord name) hword.lexeme

/-! ## 6. Forms that are built -/

@[simp] theorem faithful_withQuotation {f : Form} {q : Option Marker} :
    (f.withQuotation q).Faithful ↔ f.Faithful := by
  cases f <;> rfl

@[simp] theorem faithful_movedTo {f : Form} {p : Position} :
    (f.movedTo p).Faithful ↔ f.Faithful := by
  cases f <;> rfl

theorem faithful_bracketed {b : Bracket} {cs : List Form} :
    (bracketed b cs).Faithful ↔ ∀ c ∈ cs, c.Faithful :=
  faithfulAll_iff

/-- A child that is pushed is one more child, or none if there can be none. -/
theorem Faithful.push {f child : Form} (hf : f.Faithful) (hc : child.Faithful) :
    (f.push child).Faithful := by
  cases f with
  | atom q p t => exact hf
  | list q p b cs =>
    have hall : FaithfulAll (cs ++ [child]) := by
      rw [faithfulAll_iff] at *
      intro c hmem
      rcases List.mem_append.mp hmem with hmem | hmem
      · exact faithfulAll_iff.mp hf c hmem
      · rwa [List.mem_singleton.mp hmem]
    exact hall

/-- The forms that the checked constructors make, used in any way. -/
inductive Built : Form → Prop
  | int (v : Int) : Built (.int v)
  | boolean (v : Bool) : Built (.boolean v)
  | string (s : String) : Built (.string s)
  | character (c : Char) : Built (.character c)
  | symbol {name : String} {f : Form} (h : symbol? name = some f) : Built f
  | rounds {cs : List Form} (h : ∀ c ∈ cs, Built c) : Built (.rounds cs)
  | squares {cs : List Form} (h : ∀ c ∈ cs, Built c) : Built (.squares cs)
  | bracketed (b : Bracket) {cs : List Form} (h : ∀ c ∈ cs, Built c) : Built (.bracketed b cs)
  | push {f child : Form} (hf : Built f) (hc : Built child) : Built (f.push child)
  | quoted {f : Form} (h : Built f) : Built f.quoted
  | backquoted {f : Form} (h : Built f) : Built f.backquoted
  | withQuotation {f : Form} (q : Option Marker) (h : Built f) : Built (f.withQuotation q)
  | movedTo {f : Form} (p : Position) (h : Built f) : Built (f.movedTo p)

/-- **Every form that is built has faithful atoms.** -/
theorem Built.faithful {f : Form} (h : Built f) : f.Faithful := by
  induction h with
  | int v => exact faithful_int v
  | boolean v => exact faithful_boolean v
  | string s => exact faithful_string s
  | character c => exact faithful_character c
  | symbol h => exact faithful_of_symbol? h
  | rounds _ ih | squares _ ih | bracketed _ _ ih => exact faithful_bracketed.mpr ih
  | push _ _ ihf ihc => exact ihf.push ihc
  | quoted _ ih | backquoted _ ih | withQuotation _ _ ih => exact faithful_withQuotation.mpr ih
  | movedTo _ _ ih => exact faithful_movedTo.mpr ih

/-- **Built forms read back.**  Printed on one line or on several, a form made by the checked
constructors is read as a form alike to it; and the texts of its atoms give back what they were made
from, but for a carriage return, which gives a line feed. -/
theorem built_reads_back :
    (∀ f, Built f →
        (∃ g, readForm f.compact = .ok g ∧ g.alike f = true) ∧
          ∃ g, readForm f.pretty = .ok g ∧ g.alike f = true) ∧
      (∀ v : Int, (int v).token?.bind (fun t => intValue? t.text) = some v) ∧
      (∀ s : String, (string s).token?.bind (fun t => stringValue? t.text) = some s) ∧
      (∀ c : Char, (character c).token?.bind (fun t => characterValue? t.text) =
        some (if c = '\r' then '\n' else c)) ∧
      (∀ v : Bool, (boolean v).token?.bind (fun t => booleanValue? t.text) = some v) ∧
      ∀ name f, symbol? name = some f → f.token?.map Token.text = some name := by
  refine ⟨?_, ?_, ?_, ?_, ?_, ?_⟩
  · intro f hf
    exact ⟨(prints_spell f).readForm hf.faithful, (prints_layout 0 f).readForm hf.faithful⟩
  · intro v
    rw [int, token?_literal, Option.bind_some, intValue?_intText]
  · intro s
    rw [string, token?_literal, Option.bind_some, stringValue?_stringText]
  · intro c
    rw [character, token?_literal, Option.bind_some, characterValue?_characterText]
  · intro v
    rw [boolean, token?_literal, Option.bind_some, booleanValue?_spelling]
  · intro name f
    exact text_of_symbol?

/-- Lists in a list, one of them pushed, all quoted and moved: the least of the numbers of 64 bits, a
text of nothing but escapes and a carriage return, and a keyword. -/
theorem built_reads_back_list :
    ∃ f, f = (((rounds [int (-9223372036854775808), string "\"\\\t\n\r",
        (character '\r').backquoted]).push (squares [literal (.keyword .lambda) "lambda"])).movedTo
          ⟨3, 4⟩).quoted ∧
      Built f ∧ f.compact = "'(~9223372036854775808 \"\\\"\\\\\\t\\n\r\" ,\\newline [lambda])" ∧
      (∃ g, readForm f.compact = .ok g ∧ g.alike f = true) ∧
      ∃ g, readForm f.pretty = .ok g ∧ g.alike f = true := by
  have hatoms : ∀ c ∈ [int (-9223372036854775808), string "\"\\\t\n\r",
      (character '\r').backquoted], Built c := by
    intro c hc
    simp only [List.mem_cons, List.not_mem_nil, or_false] at hc
    rcases hc with rfl | rfl | rfl
    · exact Built.int _
    · exact Built.string _
    · exact (Built.character _).backquoted
  have hword : Built (literal (.keyword .lambda) "lambda") :=
    Built.symbol (show symbol? "lambda" = some _ by rfl)
  have hinner : Built (squares [literal (.keyword .lambda) "lambda"]) :=
    Built.squares (List.forall_mem_singleton.mpr hword)
  have hf := (((Built.rounds hatoms).push hinner).movedTo ⟨3, 4⟩).quoted
  exact ⟨_, rfl, hf, by rfl, built_reads_back.1 _ hf⟩

end Sexpr.Form
