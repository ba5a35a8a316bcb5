/-
# Listings of tokens

One line a token: its kind in words, its text quoted, and its place.  The text is escaped, so no
token can break a line of the listing, whatever characters count as unprintable.

**Words tell kinds apart** (`Kind.describe_inj`), and there is neither a line feed nor a quote in
them.  So the first quote of a line is the one before the token's text.
-/
import Sexpr.Text.Quoted
import Sexpr.Text.Unprintable
import Sexpr.Token.Basic

namespace Sexpr.Token

/-! ## 1. Kinds in words -/

namespace Kind

/-- A kind in words. -/
def describe : Kind → String
  | opening .round => "open ( bracket"
  | closing .round => "close ) bracket"
  | opening .square => "square open [ bracket"
  | closing .square => "square close ] bracket"
  | colon => "colon :"
  | marker .quote => "quote '"
  | marker .backquote => "backquote ,"
  | int => "integer literal"
  | float => "float literal"
  | identifier => "identifier"
  | string => "string literal"
  | character => "character literal"
  | keyword (.boolean true) => "true"
  | keyword (.boolean false) => "false"
  | keyword .lambda => "lambda keyword"
  | keyword .conditional => "if keyword"
  | keyword .binding => "let keyword"
  | keyword .definition => "define keyword"

def all : List Kind :=
  [opening .round, closing .round, opening .square, closing .square, colon, marker .quote,
    marker .backquote, int, float, identifier, string, character] ++ Keyword.all.map keyword

theorem mem_all : ∀ k : Kind, k ∈ all
  | opening .round | opening .square | closing .round | closing .square | colon | marker .quote
  | marker .backquote | int | float | identifier | string | character => by decide
  | keyword word => List.mem_append_right _ (List.mem_map_of_mem (Keyword.mem_all word))

/-- No two kinds have the same words. -/
theorem describe_inj {k l : Kind} (h : k.describe = l.describe) : k = l := by
  have hall : ∀ k ∈ all, ∀ l ∈ all, k.describe = l.describe → k = l := by decide +kernel
  exact hall k (mem_all k) l (mem_all l) h

theorem not_mem_describe {c : Char} (hc : c = '\n' ∨ c = '"') (k : Kind) :
    c ∉ k.describe.toList := by
  have hall : ∀ l ∈ all, '\n' ∉ l.describe.toList ∧ '"' ∉ l.describe.toList := by decide +kernel
  obtain ⟨hn, hq⟩ := hall k (mem_all k)
  rcases hc with rfl | rfl
  · exact hn
  · exact hq

end Kind

/-! ## 2. Tokens in words -/

/-- A token in words, the given characters written by their numbers. -/
def describeWith (unprintable : Char → Bool) (t : Token) : String :=
  t.kind.describe ++ " token " ++ Text.showText unprintable t.text ++ " at " ++
    t.position.describe

/-- A token in words. -/
def describe (t : Token) : String := t.describeWith Text.isUnprintable

theorem toList_describeWith (unprintable : Char → Bool) (t : Token) :
    (t.describeWith unprintable).toList =
      (t.kind.describe.toList ++ " token ".toList) ++
        (Text.quoted unprintable '"' t.text.toList ++
          (" at ".toList ++ t.position.describe.toList)) := by
  simp [describeWith, Text.showText]

/-! ## 3. Listings -/

/-- One line a token, each with its line feed. -/
def listingWith (unprintable : Char → Bool) (tokens : List Token) : String :=
  String.join (tokens.map fun t => t.describeWith unprintable ++ "\n")

/-- One line a token, each with its line feed. -/
def listing (tokens : List Token) : String := listingWith Text.isUnprintable tokens

end Sexpr.Token
