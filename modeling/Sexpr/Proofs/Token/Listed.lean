/-
# A listing says its tokens

A listing has one line a token, and no token can break its line or end it early, since its text is
quoted (`lines_listingWith`).

**A line says its token** (`describeWith_inj`).  No kind has a quote in its words, so the first quote
of a line ends the kind and begins the text; the text is told from what follows it; and behind the
text stands the place.  All this holds whatever characters count as unprintable, and nobody has to
know which ones did.
-/
import Sexpr.Proofs.Text.Lines
import Sexpr.Proofs.Text.Shown
import Sexpr.Token.Listing

namespace Sexpr.Token

/-! ## 1. Tokens in words -/

theorem newline_not_mem_describeWith (unprintable : Char → Bool) (t : Token) :
    '\n' ∉ (t.describeWith unprintable).toList := by
  simp only [toList_describeWith, List.mem_append, not_or]
  exact ⟨⟨t.kind.not_mem_describe (Or.inl rfl), Text.not_mem_ofList (by decide)⟩,
    Text.newline_not_mem_quoted unprintable (by decide) _, Text.not_mem_ofList (by decide),
    t.position.newline_not_mem_describe⟩

/-- **A token in words says the token**, whatever was taken to be unprintable. -/
theorem describeWith_inj {unprintable unprintable' : Char → Bool} {t u : Token}
    (h : t.describeWith unprintable = u.describeWith unprintable') : t = u := by
  have hquote : ∀ k : Kind, '"' ∉ k.describe.toList ++ " token ".toList := by
    intro k
    rw [List.mem_append, not_or]
    exact ⟨k.not_mem_describe (Or.inr rfl), Text.not_mem_ofList (by decide)⟩
  have hlist := congrArg String.toList h
  rw [toList_describeWith, toList_describeWith, Text.quoted_append, Text.quoted_append] at hlist
  obtain ⟨hkind, hrest⟩ := Text.append_cons_inj (hquote _) (hquote _) hlist
  obtain ⟨htext, hplace⟩ := Text.quoted_inj (Or.inl rfl) _ _ hrest
  rw [List.append_cancel_right_eq] at hkind
  rw [List.append_cancel_left_eq] at hplace
  obtain ⟨kind, text, position⟩ := t
  obtain ⟨kind', text', position'⟩ := u
  obtain rfl : kind = kind' := Kind.describe_inj (String.toList_inj.mp hkind)
  obtain rfl : text = text' := String.toList_inj.mp htext
  obtain rfl : position = position' := Position.describe_inj (String.toList_inj.mp hplace)
  rfl

/-! ## 2. Listings -/

/-- **One line a token**: each line is a token in words, and a line feed ends the last one too. -/
theorem lines_listingWith (unprintable : Char → Bool) : ∀ ts : List Token,
    Text.lines (listingWith unprintable ts) =
      ts.map (fun t => (t.describeWith unprintable).toList) ++ [[]]
  | [] => rfl
  | t :: ts => by
    have hcons : listingWith unprintable (t :: ts) =
        t.describeWith unprintable ++ "\n" ++ listingWith unprintable ts := by
      rw [listingWith, List.map_cons, String.join_cons]
      rfl
    rw [hcons, Text.lines_append_newline, lines_listingWith unprintable ts, Text.lines,
      List.splitOn_eq_singleton (newline_not_mem_describeWith unprintable t)]
    rfl

theorem count_newline_listingWith (unprintable : Char → Bool) (ts : List Token) :
    (listingWith unprintable ts).toList.count '\n' = ts.length := by
  have hlength := congrArg List.length (lines_listingWith unprintable ts)
  rw [Text.lines, Text.length_splitOn, List.length_append, List.length_map] at hlength
  exact Nat.succ.inj hlength

/-- Lines that say their tokens, one by one. -/
theorem map_describeWith_inj {unprintable unprintable' : Char → Bool} : ∀ {ts us : List Token},
    ts.map (fun t => (t.describeWith unprintable).toList) =
      us.map (fun u => (u.describeWith unprintable').toList) → ts = us
  | [], [], _ => rfl
  | [], _ :: _, h | _ :: _, [], h => absurd h (by simp)
  | t :: ts, u :: us, h => by
    obtain ⟨hhead, htail⟩ := List.cons.inj h
    rw [describeWith_inj (String.toList_inj.mp hhead), map_describeWith_inj htail]

/-- **Listings are lossless.**  Whatever characters count as unprintable, a listing has as many line
feeds as there are tokens, and each ends the line of one token; and from equal listings follow equal
tokens, even if different characters were taken to be unprintable. -/
theorem listing_lossless :
    (∀ (unprintable : Char → Bool) (ts : List Token),
      (listingWith unprintable ts).toList.count '\n' = ts.length ∧
        Text.lines (listingWith unprintable ts) =
          ts.map (fun t => (t.describeWith unprintable).toList) ++ [[]]) ∧
      ∀ (unprintable unprintable' : Char → Bool) (ts us : List Token),
        listingWith unprintable ts = listingWith unprintable' us → ts = us := by
  constructor
  · intro unprintable ts
    exact ⟨count_newline_listingWith unprintable ts, lines_listingWith unprintable ts⟩
  · intro unprintable unprintable' ts us h
    have hlines := congrArg Text.lines h
    rw [lines_listingWith, lines_listingWith, List.append_cancel_right_eq] at hlines
    exact map_describeWith_inj hlines

end Sexpr.Token
