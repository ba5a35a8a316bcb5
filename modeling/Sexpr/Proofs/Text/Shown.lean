/-
# What is shown can be told

A number is shown by its digits, a place by two numbers, and a text between quotes with everything
escaped that could be mistaken.  Each of them says what it shows, and where it ends, so that it can
be read out of a line in which more stands behind it.

**Which way a character was written can be seen** (`Spells`).  Between two quotes it is a name behind
a backslash, its number, or itself.  A name is not `u`, and what stands for itself is not a backslash;
and a name says its character, as do the digits of a number, which end at the brace behind them.  So
nobody has to know which characters counted as unprintable (`Spells.append_inj`).

**The closing quote ends the text**, because nothing between the quotes begins with a quote.  So a
quoted text can be told from every other, whatever stands behind the two (`quoted_inj`).
-/
import Sexpr.Position
import Sexpr.Text.Quoted

namespace Sexpr

namespace Text

/-! ## 1. Separators and numbers -/

/-- A separator that neither of two texts contains shows where they end. -/
theorem append_cons_inj {α : Type} {d : α} : ∀ {as bs x y : List α}, d ∉ as → d ∉ bs →
    as ++ d :: x = bs ++ d :: y → as = bs ∧ x = y
  | [], [], _, _, _, _, h => ⟨rfl, (List.cons.inj h).2⟩
  | [], b :: bs, _, _, _, hb, h => absurd (List.cons.inj h).1 (List.ne_of_not_mem_cons hb)
  | a :: as, [], _, _, ha, _, h => absurd (List.cons.inj h).1.symm (List.ne_of_not_mem_cons ha)
  | a :: as, b :: bs, x, y, ha, hb, h => by
    obtain ⟨rfl, htail⟩ := List.cons.inj h
    obtain ⟨rfl, hxy⟩ := append_cons_inj (List.not_mem_of_not_mem_cons ha)
      (List.not_mem_of_not_mem_cons hb) htail
    exact ⟨rfl, hxy⟩

theorem digitChar_inj {m n : Nat} (hm : m < 16) (hn : n < 16) (h : m.digitChar = n.digitChar) :
    m = n := by
  have hall : ∀ m < 16, ∀ n < 16, Nat.digitChar m = Nat.digitChar n → m = n := by decide
  exact hall m hm n hn h

/-- **Digits say the number**, by induction on the number without its last digit. -/
theorem toDigits_inj {b : Nat} (hb : 1 < b) (h16 : b ≤ 16) (m : Nat) :
    ∀ n, b.toDigits m = b.toDigits n → m = n := by
  induction m using Nat.strongRecOn with
  | _ m ih =>
    intro n h
    rw [Nat.toDigits_eq_if hb, @Nat.toDigits_eq_if b n hb] at h
    split at h <;> split at h
    · exact digitChar_inj (by omega) (by omega) (List.singleton_inj.mp h)
    · exact absurd (List.singleton_eq_append_iff.mp h) (by simp [Nat.toDigits_ne_nil])
    · exact absurd (List.append_eq_singleton_iff.mp h) (by simp [Nat.toDigits_ne_nil])
    · obtain ⟨hfront, hlast⟩ := List.append_inj' h rfl
      have hdiv : m / b = n / b := ih (m / b) (Nat.div_lt_self (by omega) hb) _ hfront
      have hm : m % b < b := Nat.mod_lt m (by omega)
      have hn : n % b < b := Nat.mod_lt n (by omega)
      have hmod : m % b = n % b :=
        digitChar_inj (by omega) (by omega) (List.singleton_inj.mp hlast)
      rw [← Nat.div_add_mod m b, hdiv, hmod, Nat.div_add_mod]

theorem repr_inj {m n : Nat} (h : m.repr.toList = n.repr.toList) : m = n := by
  rw [Nat.toList_repr, Nat.toList_repr] at h
  exact toDigits_inj (by omega) (by omega) m n h

theorem not_mem_repr {c : Char} (hc : ∀ n : Nat, c ≠ n.digitChar) (n : Nat) :
    c ∉ n.repr.toList := by
  rw [Nat.toList_repr]
  exact not_mem_toDigits hc (by omega) n

/-- A text that is written out shows its characters. -/
theorem not_mem_ofList {c : Char} {cs : List Char} (h : c ∉ cs) :
    c ∉ (String.ofList cs).toList := by
  rwa [String.toList_ofList]

end Text

namespace Position

/-! ## 2. Places -/

theorem newline_not_mem_describe (p : Position) : '\n' ∉ p.describe.toList := by
  have hnumber := Text.not_mem_repr Text.newline_ne_digitChar
  simp only [describe, String.toList_append, List.mem_append, not_or]
  exact ⟨⟨⟨Text.not_mem_ofList (by decide), hnumber p.line⟩, Text.not_mem_ofList (by decide)⟩,
    hnumber p.column⟩

/-- **A place in words says the place.**  The comma ends the number of the line. -/
theorem describe_inj {p q : Position} (h : p.describe = q.describe) : p = q := by
  have hcomma : ∀ n : Nat, ',' ∉ n.repr.toList := Text.not_mem_repr (by grind [Nat.digitChar])
  have htext : ∀ r : Position, r.describe.toList =
      "line ".toList ++ (r.line.repr.toList ++ ',' :: (" column ".toList ++ r.column.repr.toList)) := by
    intro r
    simp [describe]
  have hlist := congrArg String.toList h
  rw [htext, htext, List.append_cancel_left_eq] at hlist
  obtain ⟨hline, hrest⟩ := Text.append_cons_inj (hcomma _) (hcomma _) hlist
  rw [List.append_cancel_left_eq] at hrest
  obtain ⟨line, column⟩ := p
  obtain ⟨line', column'⟩ := q
  obtain rfl : line = line' := Text.repr_inj hline
  obtain rfl : column = column' := Text.repr_inj hrest
  rfl

end Position

namespace Text

/-! ## 3. Characters between quotes -/

/-- The character that a name stands for behind a backslash.  The quotes and the backslash are
their own names. -/
def longName : Char → Char
  | '0' => '\x00'
  | 't' => '\t'
  | 'r' => '\r'
  | 'n' => '\n'
  | name => name

/-- All the ways to write a character between two quotes. -/
inductive Spells (quote : Char) : Char → List Char → Prop
  | named {name : Char} (hu : name ≠ 'u') : Spells quote (longName name) ['\\', name]
  | code (c : Char) :
      Spells quote c ('\\' :: 'u' :: '{' :: (Nat.toDigits 16 c.toNat ++ ['}']))
  | plain {c : Char} (hback : c ≠ '\\') (hq : c ≠ quote) : Spells quote c [c]

/-- A character that is put around texts. -/
def IsQuote (c : Char) : Prop := c = '"' ∨ c = '\''

variable {quote c d : Char} {w v x y : List Char}

theorem Spells.of_shortName? {name : Char} (h : shortName? c = some name) :
    Spells quote c ['\\', name] := by
  have hname : name ≠ 'u' ∧ longName name = c := by
    unfold shortName? at h
    split at h <;> cases h <;> decide
  exact hname.2 ▸ Spells.named hname.1

theorem Spells.of_isQuote (h : IsQuote quote) : Spells quote quote ['\\', quote] := by
  have hname : quote ≠ 'u' ∧ longName quote = quote := by rcases h with rfl | rfl <;> decide
  have hspells := @Spells.named quote quote hname.1
  rwa [hname.2] at hspells

/-- **There is no other way**, whatever counts as unprintable. -/
theorem spells_escapeChar (h : IsQuote quote) (unprintable : Char → Bool) (c : Char) :
    Spells quote c (escapeChar unprintable quote c) := by
  unfold escapeChar
  cases hname : shortName? c with
  | some name => exact Spells.of_shortName? hname
  | none =>
    have hback : c ≠ '\\' := by
      rintro rfl
      exact absurd hname (by decide)
    dsimp only
    split
    · next hq =>
      rw [hq]
      exact Spells.of_isQuote h
    · next hq =>
      split
      · exact Spells.code c
      · exact Spells.plain hback hq

theorem brace_not_mem_toDigits (n : Nat) : '}' ∉ Nat.toDigits 16 n := by
  refine not_mem_toDigits ?_ (by omega) n
  grind [Nat.digitChar]

/-- **What is written shows the character**, and where it ends. -/
theorem Spells.append_inj (hc : Spells quote c w) (hd : Spells quote d v) (h : w ++ x = v ++ y) :
    c = d ∧ x = y := by
  cases hc with
  | named hu =>
    cases hd with
    | named _ =>
      obtain ⟨-, h⟩ := List.cons.inj h
      obtain ⟨rfl, hxy⟩ := List.cons.inj h
      exact ⟨rfl, hxy⟩
    | code _ => exact absurd h (by simp [hu])
    | plain hback _ => exact absurd h (by simp [Ne.symm hback])
  | code _ =>
    cases hd with
    | named hu => exact absurd h (by simp [Ne.symm hu])
    | code _ =>
      simp only [List.cons_append, List.cons.injEq, true_and, List.append_assoc,
        List.nil_append] at h
      obtain ⟨hdigits, hxy⟩ :=
        append_cons_inj (brace_not_mem_toDigits _) (brace_not_mem_toDigits _) h
      exact ⟨Char.toNat_inj.mp (toDigits_inj (by omega) (by omega) _ _ hdigits), hxy⟩
    | plain hback _ => exact absurd h (by simp [Ne.symm hback])
  | plain hback _ =>
    cases hd with
    | named _ | code _ => exact absurd h (by simp [hback])
    | plain _ _ => exact List.cons.inj h

/-- Nothing between two quotes begins with a quote. -/
theorem Spells.ne_quote_cons (hc : Spells quote c w) (h : IsQuote quote) :
    w ++ x ≠ quote :: y := by
  have hback : quote ≠ '\\' := by rcases h with rfl | rfl <;> decide
  cases hc with
  | named _ | code _ => simp [Ne.symm hback]
  | plain _ hq => simp [hq]

/-! ## 4. Texts between quotes -/

/-- The opening quote, what is between the quotes, and the closing one in front of the rest. -/
theorem quoted_append (unprintable : Char → Bool) (quote : Char) (cs rest : List Char) :
    quoted unprintable quote cs ++ rest =
      quote :: (cs.flatMap (escapeChar unprintable quote) ++ quote :: rest) := by
  simp [quoted]

/-- **What is between quotes says the text**, and where it ends, by induction on both texts; the two
need not agree on what is unprintable. -/
theorem quoted_inj (h : IsQuote quote) (unprintable unprintable' : Char → Bool) :
    ∀ {cs ds : List Char},
      cs.flatMap (escapeChar unprintable quote) ++ quote :: x =
        ds.flatMap (escapeChar unprintable' quote) ++ quote :: y → cs = ds ∧ x = y
  | [], [], heq => ⟨rfl, (List.cons.inj heq).2⟩
  | [], d :: ds, heq => by
    rw [List.flatMap_cons, List.append_assoc] at heq
    exact absurd heq.symm ((spells_escapeChar h unprintable' d).ne_quote_cons h)
  | c :: cs, [], heq => by
    rw [List.flatMap_cons, List.append_assoc] at heq
    exact absurd heq ((spells_escapeChar h unprintable c).ne_quote_cons h)
  | c :: cs, d :: ds, heq => by
    rw [List.flatMap_cons, List.flatMap_cons, List.append_assoc, List.append_assoc] at heq
    obtain ⟨rfl, htail⟩ :=
      (spells_escapeChar h unprintable c).append_inj (spells_escapeChar h unprintable' d) heq
    obtain ⟨rfl, hxy⟩ := quoted_inj h unprintable unprintable' htail
    exact ⟨rfl, hxy⟩

end Text

end Sexpr
