/-
# Names that are symbols

A name is made a form by asking the scanner, which must find ONE token in it, an identifier or a
keyword, and nothing else.  So whether a name is accepted could hang on all that the scanner does:
on the blanks and comments that it skips, on the byte order mark that it drops, and on everything
that it refuses.

**It hangs on the characters one by one** (`symbol?_eq_some_iff`).  Of the lexemes, only words are
identifiers or keywords.  A token that is all of the name is a lexeme at its end, so the name is a
word; and a word is a lexeme by itself, so the scanner finds it.  Then a name is a symbol if it is
not empty, has nothing but characters of identifiers, and does not begin with a digit.
-/
import Sexpr.Form.Build
import Sexpr.Proofs.Token.Faithful

namespace Sexpr

namespace Token

/-! ## 1. Words -/

/-- A word has characters of identifiers only, and no digit begins it. -/
theorem isWord_iff {cs : List Char} :
    IsWord cs ↔
      cs ≠ [] ∧ (∀ c ∈ cs, isWordChar c = true) ∧ ∀ c, cs.head? = some c → ¬ c.isDigit = true := by
  constructor
  · rintro ⟨c, rest, rfl, hc, hrest⟩
    refine ⟨by simp, ?_, ?_⟩
    · exact List.forall_mem_cons.mpr ⟨Scan.isWordChar_of_isWordStart hc, hrest⟩
    · intro d hd
      obtain rfl : c = d := by simpa using hd
      exact Scan.not_isDigit_of_isWordStart hc
  · rintro ⟨hne, hall, hfirst⟩
    obtain ⟨c, rest, rfl⟩ := List.exists_cons_of_ne_nil hne
    obtain ⟨hc, hrest⟩ := List.forall_mem_cons.mp hall
    exact ⟨c, rest, rfl, Scan.isWordStart_of_isWordChar hc (hfirst c rfl), hrest⟩

/-- A word by itself is a lexeme. -/
theorem IsWord.lexeme {name : String} (h : IsWord name.toList) :
    Lexeme (Kind.ofWord name) name.toList none := by
  have hlex := Lexeme.word h free_none
  rwa [String.ofList_toList] at hlex

/-- **No other lexeme is an identifier or a keyword.** -/
theorem Lexeme.isWord {kind : Kind} {cs : List Char} {next : Option Char} (h : Lexeme kind cs next)
    (hkind : kind = .identifier ∨ kind.isKeyword = true) :
    IsWord cs ∧ kind = Kind.ofWord (String.ofList cs) := by
  cases h with
  | word h _ => exact ⟨h, rfl⟩
  | single h =>
    rcases Kind.ofChar?_cases h with ⟨b, -, rfl⟩ | ⟨b, -, rfl⟩ | ⟨-, rfl⟩ | ⟨m, -, rfl⟩ <;>
      simp [Kind.isKeyword] at hkind
  | int _ _ | float _ _ | string _ | character _ _ => simp [Kind.isKeyword] at hkind

end Token

namespace Form

open Token (IsWord)

/-! ## 2. Symbols -/

/-- The scanner finds one token, an identifier or a keyword, and it is the whole name. -/
theorem symbol?_eq_some_iff_tokenize {name : String} {f : Form} :
    symbol? name = some f ↔
      ∃ t, tokenize name = .ok [t] ∧ (t.kind = .identifier ∨ t.kind.isKeyword = true) ∧
        t.text = name ∧ f = literal t.kind name := by
  unfold symbol?
  split
  · next t htokens =>
    simp only [htokens, Option.ite_none_right_eq_some, Bool.and_eq_true, Bool.or_eq_true,
      decide_eq_true_eq, Except.ok.injEq, List.cons.injEq, and_true, exists_eq_left',
      Option.some.injEq]
    rw [and_assoc, @eq_comm _ f]
  · next hnone =>
    refine iff_of_false (by simp) ?_
    rintro ⟨t, htokens, -⟩
    exact hnone t htokens

/-- **Symbols are words**, each of the kind that its spelling has. -/
theorem symbol?_eq_some_iff {name : String} {f : Form} :
    symbol? name = some f ↔
      IsWord name.toList ∧ f = literal (Token.Kind.ofWord name) name := by
  rw [symbol?_eq_some_iff_tokenize]
  constructor
  · rintro ⟨t, htokens, hkind, htext, rfl⟩
    have hlex := Token.lexeme_of_mem htokens t List.mem_cons_self
    obtain ⟨hword, hof⟩ := hlex.isWord hkind
    rw [String.ofList_toList, htext] at hof
    rw [htext] at hword
    exact ⟨hword, by rw [hof]⟩
  · rintro ⟨hword, rfl⟩
    exact ⟨_, hword.lexeme.tokenize, Token.Kind.ofWord_eq_or name, rfl, rfl⟩

/-- **Which names are symbols**, and what they are.  A name is one exactly if it is not empty, has no
other characters than letters, digits and the ten signs, and does not begin with a digit.  The form is
an atom at the start that is not quoted; its text is the name, and it is one of the six keywords if that
is how the keyword is spelled, or else an identifier. -/
theorem symbol?_accepts_words (name : String) :
    ((∃ f, symbol? name = some f) ↔
        name ≠ "" ∧
          (∀ c ∈ name.toList, c.isAlpha = true ∨ c.isDigit = true ∨ c ∈ "+-*/_?!<>=".toList) ∧
          ∀ c, name.toList.head? = some c → ¬ c.isDigit = true) ∧
      ∀ f, symbol? name = some f →
        ∃ kind, f = .atom none .start ⟨kind, name, .start⟩ ∧
          (∀ word, kind = .keyword word ↔
            (name, word) ∈ [("true", Keyword.boolean true), ("false", Keyword.boolean false),
              ("lambda", Keyword.lambda), ("if", Keyword.conditional), ("let", Keyword.binding),
              ("define", Keyword.definition)]) ∧
          (kind = .identifier ↔ name ∉ ["true", "false", "lambda", "if", "let", "define"]) := by
  constructor
  · simp only [symbol?_eq_some_iff, exists_and_left, exists_eq, and_true, Token.isWord_iff,
      Token.isWordChar_iff, ne_eq, String.toList_eq_nil_iff]
  · intro f hf
    obtain ⟨-, rfl⟩ := symbol?_eq_some_iff.mp hf
    refine ⟨_, rfl, ?_, ?_⟩
    · intro word
      rw [Token.Kind.ofWord_eq_keyword_iff, Keyword.ofSpelling?_eq_some_iff]
    · rw [Token.Kind.ofWord_eq_identifier_iff, Keyword.ofSpelling?_eq_none_iff]

/-- A keyword, and a name that differs from it in a capital. -/
theorem symbol?_accepts_words_capital :
    symbol? "lambda" = some (.atom none .start ⟨.keyword .lambda, "lambda", .start⟩) ∧
      symbol? "Lambda" = some (.atom none .start ⟨.identifier, "Lambda", .start⟩) := by
  have hword : (∃ f, symbol? "lambda" = some f) ∧ ∃ f, symbol? "Lambda" = some f :=
    ⟨⟨_, by rfl⟩, ⟨_, by rfl⟩⟩
  obtain ⟨⟨f, hf⟩, ⟨g, hg⟩⟩ := hword
  obtain ⟨kind, rfl, hkeyword, -⟩ := (symbol?_accepts_words "lambda").2 f hf
  obtain ⟨kind', rfl, -, hidentifier⟩ := (symbol?_accepts_words "Lambda").2 g hg
  rw [hf, hg, (hkeyword .lambda).mpr (by decide), hidentifier.mpr (by decide)]
  exact ⟨rfl, rfl⟩

-- A minus is no sign of numbers.
example : symbol? "-1" = some (.atom none .start ⟨.identifier, "-1", .start⟩) := by rfl

end Form

end Sexpr
