/-
# Tokens

Brackets, quotation markers and keywords are small vocabularies of their own, and a token's kind
is one of them, a literal, a plain name, or the colon.  Nothing else in the library compares
kinds by name: the reader of forms asks a kind only whether it opens a list, closes one, marks a
quotation, or is the kind of an atom, and the tables that spell out brackets, markers and
keywords stand here once.

**What stands in a table is said beside it, entry by entry** (`Keyword.ofSpelling?_eq_some_iff`,
`Kind.ofChar?_eq_some_iff`), and whoever looks something up has to know no more.

A token keeps the exact text it was read from and the place of its last character.  Nothing ties
the text to the kind: tokens may also be made by hand, and the reader of forms looks at kinds
alone.
-/
import Sexpr.Position

namespace Sexpr

/-! ## 1. Brackets and markers -/

/-- The bracket pair around a list. -/
inductive Bracket where
  | round
  | square
  deriving DecidableEq

namespace Bracket

instance : Inhabited Bracket := ⟨round⟩

def opener : Bracket → Char
  | round => '('
  | square => '['

def closer : Bracket → Char
  | round => ')'
  | square => ']'

end Bracket

/-- A quotation marker, written directly before the form it quotes. -/
inductive Marker where
  | quote
  | backquote
  deriving DecidableEq

namespace Marker

def char : Marker → Char
  | quote => '\''
  | backquote => ','

/-- The text of an optional marker: empty where there is none. -/
def spell : Option Marker → List Char
  | none => []
  | some m => [m.char]

end Marker

/-! ## 2. Keywords -/

/-- The reserved words. -/
inductive Keyword where
  | boolean (value : Bool)
  | lambda
  | conditional
  | binding
  | definition
  deriving DecidableEq

namespace Keyword

def spelling : Keyword → String
  | boolean true => "true"
  | boolean false => "false"
  | lambda => "lambda"
  | conditional => "if"
  | binding => "let"
  | definition => "define"

def all : List Keyword :=
  [boolean true, boolean false, lambda, conditional, binding, definition]

/-- The keyword with this exact spelling, capitals included. -/
def ofSpelling? (text : String) : Option Keyword :=
  all.find? fun k => k.spelling = text

theorem mem_all (k : Keyword) : k ∈ all := by
  rcases k with (_ | _) | _ | _ | _ | _ <;> decide

theorem ofSpelling?_spelling (k : Keyword) : ofSpelling? k.spelling = some k := by
  rcases k with (_ | _) | _ | _ | _ | _ <;> decide

theorem spelling_of_ofSpelling? {text : String} {k : Keyword} (h : ofSpelling? text = some k) :
    k.spelling = text := by
  simpa using List.find?_some h

/-- **The keywords and how they are spelled.** -/
theorem ofSpelling?_eq_some_iff {text : String} {word : Keyword} :
    ofSpelling? text = some word ↔
      (text, word) ∈ [("true", boolean true), ("false", boolean false), ("lambda", lambda),
        ("if", conditional), ("let", binding), ("define", definition)] := by
  constructor
  · intro h
    obtain rfl := spelling_of_ofSpelling? h
    rcases word with (_ | _) | _ | _ | _ | _ <;> decide
  · intro h
    simp only [List.mem_cons, Prod.mk.injEq, List.not_mem_nil, or_false] at h
    rcases h with ⟨rfl, rfl⟩ | ⟨rfl, rfl⟩ | ⟨rfl, rfl⟩ | ⟨rfl, rfl⟩ | ⟨rfl, rfl⟩ | ⟨rfl, rfl⟩ <;> rfl

/-- Every other text is no keyword. -/
theorem ofSpelling?_eq_none_iff {text : String} :
    ofSpelling? text = none ↔ text ∉ ["true", "false", "lambda", "if", "let", "define"] := by
  constructor
  · intro h hmem
    simp only [List.mem_cons, List.not_mem_nil, or_false] at hmem
    rcases hmem with rfl | rfl | rfl | rfl | rfl | rfl <;> exact absurd h (by decide)
  · intro h
    rw [Option.eq_none_iff_forall_ne_some]
    intro word hword
    exact h (List.mem_map_of_mem (f := Prod.fst) (ofSpelling?_eq_some_iff.mp hword))

end Keyword

/-! ## 3. Kinds -/

namespace Token

/-- What a token is. -/
inductive Kind where
  | opening (bracket : Bracket)
  | closing (bracket : Bracket)
  | colon
  | marker (marker : Marker)
  | int
  | float
  | identifier
  | string
  | character
  | keyword (word : Keyword)
  deriving DecidableEq

namespace Kind

/-- The tokens that are one character long whatever stands beside them. -/
def ofChar? : Char → Option Kind
  | '(' => some (opening .round)
  | ')' => some (closing .round)
  | '[' => some (opening .square)
  | ']' => some (closing .square)
  | ':' => some colon
  | '\'' => some (marker .quote)
  | ',' => some (marker .backquote)
  | _ => none

/-- The kind of a text that is shaped like an identifier. -/
def ofWord (text : String) : Kind :=
  match Keyword.ofSpelling? text with
  | some word => keyword word
  | none => identifier

def isKeyword : Kind → Bool
  | keyword _ => true
  | _ => false

/-- The list a token of this kind opens. -/
def opens? : Kind → Option Bracket
  | opening b => some b
  | _ => none

/-- The list a token of this kind closes. -/
def closes? : Kind → Option Bracket
  | closing b => some b
  | _ => none

/-- The quotation a token of this kind puts on the next form. -/
def marks? : Kind → Option Marker
  | marker m => some m
  | _ => none

/-- A token of this kind is a form by itself: it is neither a bracket nor a marker. -/
def isAtomic : Kind → Bool
  | opening _ | closing _ | marker _ => false
  | _ => true

theorem isAtomic_iff {k : Kind} :
    k.isAtomic = true ↔ k.opens? = none ∧ k.closes? = none ∧ k.marks? = none := by
  cases k <;> simp [isAtomic, opens?, closes?, marks?]

/-- **The brackets, the colon and the markers.** -/
theorem ofChar?_eq_some_iff {c : Char} {kind : Kind} :
    ofChar? c = some kind ↔
      (c, kind) ∈ [('(', opening .round), (')', closing .round), ('[', opening .square),
        (']', closing .square), (':', colon), ('\'', marker .quote), (',', marker .backquote)] := by
  unfold ofChar?
  constructor
  · intro h
    split at h <;> cases h <;> simp
  · intro h
    simp only [List.mem_cons, Prod.mk.injEq, List.not_mem_nil, or_false] at h
    rcases h with ⟨rfl, rfl⟩ | ⟨rfl, rfl⟩ | ⟨rfl, rfl⟩ | ⟨rfl, rfl⟩ | ⟨rfl, rfl⟩ | ⟨rfl, rfl⟩ |
      ⟨rfl, rfl⟩ <;> rfl

/-- A token of one character is a bracket, the colon or a marker, and spelled as that. -/
theorem ofChar?_cases {c : Char} {kind : Kind} (h : ofChar? c = some kind) :
    (∃ b : Bracket, c = b.opener ∧ kind = opening b) ∨
      (∃ b : Bracket, c = b.closer ∧ kind = closing b) ∨ (c = ':' ∧ kind = colon) ∨
      ∃ m : Marker, c = m.char ∧ kind = marker m := by
  simp only [ofChar?_eq_some_iff, List.mem_cons, Prod.mk.injEq, List.not_mem_nil, or_false] at h
  rcases h with ⟨rfl, rfl⟩ | ⟨rfl, rfl⟩ | ⟨rfl, rfl⟩ | ⟨rfl, rfl⟩ | ⟨rfl, rfl⟩ | ⟨rfl, rfl⟩ |
    ⟨rfl, rfl⟩
  · exact Or.inl ⟨.round, rfl, rfl⟩
  · exact Or.inr (Or.inl ⟨.round, rfl, rfl⟩)
  · exact Or.inl ⟨.square, rfl, rfl⟩
  · exact Or.inr (Or.inl ⟨.square, rfl, rfl⟩)
  · exact Or.inr (Or.inr (Or.inl ⟨rfl, rfl⟩))
  · exact Or.inr (Or.inr (Or.inr ⟨.quote, rfl, rfl⟩))
  · exact Or.inr (Or.inr (Or.inr ⟨.backquote, rfl, rfl⟩))

/-- No two characters are one kind of token. -/
theorem ofChar?_inj {c d : Char} {kind : Kind} (hc : ofChar? c = some kind)
    (hd : ofChar? d = some kind) : c = d := by
  have hother := ofChar?_cases hd
  rcases ofChar?_cases hc with ⟨b, rfl, rfl⟩ | ⟨b, rfl, rfl⟩ | ⟨rfl, rfl⟩ | ⟨m, rfl, rfl⟩ <;> grind

@[simp] theorem ofChar?_opener (b : Bracket) : ofChar? b.opener = some (opening b) := by
  cases b <;> rfl

@[simp] theorem ofChar?_closer (b : Bracket) : ofChar? b.closer = some (closing b) := by
  cases b <;> rfl

@[simp] theorem ofChar?_char (m : Marker) : ofChar? m.char = some (marker m) := by
  cases m <;> rfl

@[simp] theorem ofWord_spelling (word : Keyword) : ofWord word.spelling = keyword word := by
  simp [ofWord, Keyword.ofSpelling?_spelling]

theorem ofWord_eq_keyword_iff {text : String} {word : Keyword} :
    ofWord text = keyword word ↔ Keyword.ofSpelling? text = some word := by
  unfold ofWord
  cases Keyword.ofSpelling? text <;> simp

theorem ofWord_eq_identifier_iff {text : String} :
    ofWord text = identifier ↔ Keyword.ofSpelling? text = none := by
  unfold ofWord
  cases Keyword.ofSpelling? text <;> simp

theorem ofWord_eq_or (text : String) :
    ofWord text = identifier ∨ (ofWord text).isKeyword = true := by
  unfold ofWord
  split
  · exact Or.inr rfl
  · exact Or.inl rfl

@[simp] theorem isAtomic_ofWord (text : String) : (ofWord text).isAtomic = true := by
  unfold ofWord
  split <;> rfl

end Kind

end Token

/-! ## 4. Tokens -/

structure Token where
  kind : Token.Kind
  text : String
  position : Position
  deriving DecidableEq

namespace Token

/-- Two tokens of one kind and one text, wherever they stand. -/
def alike (t u : Token) : Bool := t.kind = u.kind && t.text = u.text

@[simp] theorem alike_iff {t u : Token} : t.alike u = true ↔ t.kind = u.kind ∧ t.text = u.text := by
  simp [alike]

/-- What a token says, wherever it stands. -/
def content (t : Token) : Kind × String := (t.kind, t.text)

end Token

end Sexpr
