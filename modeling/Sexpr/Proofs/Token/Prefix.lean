/-
# Prefixes of sources

How the tokens of a source and those of a prefix of it are related.  A prefix that ends outside every
token, or exactly at the end of one, has the tokens that end within it (`Cut.cutAt`).  A prefix
that ends inside a token has the tokens before that one, and then whatever the part that is left of
it comes to by itself (`Lexeme.part`): one token more, or a fault at the end.

Which token is broken and where is told by places alone: no two prefixes of a source end at the same
place (`Position.after_inj_of_prefix`), so the place of a token says where it stands.

A source at fault is a prefix of others too.  If the fault stands before its end, they are all at
fault there, for the same cause.
-/
import Sexpr.Proofs.Token.Faithful
import Sexpr.Proofs.Token.Fault
import Sexpr.Proofs.Token.Part

namespace Sexpr

namespace Position

/-! ## 1. Places of prefixes -/

instance (p q : Position) : Decidable (p.Before q) :=
  inferInstanceAs (Decidable (p.line < q.line ∨ p.line = q.line ∧ p.column < q.column))

/-- Reading does not lead back. -/
theorem not_after_before (p : Position) (cs : List Char) : ¬ (p.after cs).Before p := by
  intro h
  by_cases hcs : cs = []
  · rw [hcs, after_nil] at h
    unfold Before at h
    omega
  · have hforth := before_after cs p hcs
    unfold Before at h hforth
    omega

/-- **Prefixes of a text end at different places.** -/
theorem after_inj_of_prefix {p : Position} {a b cs : List Char} (ha : a <+: cs) (hb : b <+: cs)
    (h : p.after a = p.after b) : a = b := by
  have shorter : ∀ {a b : List Char}, a <+: b → p.after a = p.after b → a = b := by
    rintro a _ ⟨x, rfl⟩ hplace
    by_cases hx : x = []
    · rw [hx, List.append_nil]
    · have hforth := before_after x (p.after a) hx
      rw [← after_append, ← hplace] at hforth
      exact absurd hforth (not_after_before _ [])
  rcases List.prefix_or_prefix_of_prefix ha hb with hab | hba
  · exact shorter hab h
  · exact (shorter hba h.symm).symm

end Position

namespace Token

/-! ## 2. Where a prefix ends -/

/-- Read from the place `p`, the prefix `q` of `cs` ends inside the token `t`, behind the part `w` of
its text. -/
def Breaks (p : Position) (cs q : List Char) (t : Token) (w : List Char) : Prop :=
  ∃ before rest, q = before ++ w ∧ t.text.toList = w ++ rest ∧ w ≠ [] ∧ rest ≠ [] ∧
    before ++ t.text.toList <+: cs ∧ t.position = p.after (before ++ t.text.toList)

/-- The tokens that end within the source `q`. -/
def endingWithin (q : String) (ts : List Token) : List Token :=
  ts.filter fun t => ¬ (Position.start.after q.toList).Before t.position

theorem endingWithin_append {q : String} {us vs : List Token}
    (hu : ∀ t ∈ us, ¬ (Position.start.after q.toList).Before t.position)
    (hv : ∀ t ∈ vs, (Position.start.after q.toList).Before t.position) :
    endingWithin q (us ++ vs) = us := by
  have hus : us.filter (fun t => ¬ (Position.start.after q.toList).Before t.position) = us := by
    rw [List.filter_eq_self]
    exact fun t ht => decide_eq_true (hu t ht)
  have hvs : vs.filter (fun t => ¬ (Position.start.after q.toList).Before t.position) = [] := by
    rw [List.filter_eq_nil_iff]
    intro t ht h
    exact of_decide_eq_true h (hv t ht)
  rw [endingWithin, List.filter_append, hus, hvs, List.append_nil]

theorem Breaks.mono {p : Position} {cs cs' q : List Char} {t : Token} {w : List Char}
    (h : Breaks p cs q t w) (hcs : cs <+: cs') : Breaks p cs' q t w := by
  obtain ⟨before, rest, hq, ht, hw, hr, hprefix, hplace⟩ := h
  exact ⟨before, rest, hq, ht, hw, hr, hprefix.trans hcs, hplace⟩

/-- What stands in front of the text stands in front of the prefix. -/
theorem Breaks.behind {p : Position} {cs q : List Char} {t : Token} {w : List Char}
    (front : List Char) (h : Breaks (p.after front) cs q t w) :
    Breaks p (front ++ cs) (front ++ q) t w := by
  obtain ⟨before, rest, rfl, ht, hw, hr, hprefix, hplace⟩ := h
  refine ⟨front ++ before, rest, by rw [List.append_assoc], ht, hw, hr, ?_, ?_⟩
  · rw [List.append_assoc]
    exact (List.prefix_append_right_inj front).mpr hprefix
  · rw [hplace, ← Position.after_append, List.append_assoc]

/-- The pieces around one of the tokens. -/
theorem Pieces.split {p : Position} {cs : List Char} {ahead : Option Char} {ts : List Token}
    (h : Pieces p cs ahead ts) {t : Token} (ht : t ∈ ts) :
    ∃ us vs body g rest, ts = us ++ t :: vs ∧ cs = body ++ (g ++ (t.text.toList ++ rest)) ∧
      Pieces p body (g ++ t.text.toList).head? us ∧ Gap g ∧
      Lexeme t.kind t.text.toList (rest.head?.or ahead) ∧
      t.position = p.after (body ++ (g ++ t.text.toList)) := by
  induction h with
  | nil => exact absurd ht List.not_mem_nil
  | @cons p g w rest ahead kind ts hg hw _ ih =>
    rcases List.mem_cons.mp ht with rfl | ht
    · exact ⟨[], ts, [], g, rest, rfl, by simp, Pieces.nil, hg, by simpa using hw, by simp⟩
    · obtain ⟨us, vs, body, g', rest', rfl, rfl, hb, hg', hw', hplace⟩ := ih ht
      refine ⟨⟨kind, String.ofList w, p.after (g ++ w)⟩ :: us, vs, g ++ (w ++ body), g', rest', rfl,
        by simp, Pieces.cons hg ?_ hb, hg', hw', ?_⟩
      · have hne := hw'.ne_nil
        obtain ⟨c, text, htext⟩ := List.exists_cons_of_ne_nil hne
        rw [htext] at hw ⊢
        cases body <;> cases g' <;> exact hw
      · rw [hplace, ← Position.after_append]
        simp

/-- The places of the tokens lie within the text. -/
theorem Pieces.not_before_of_mem {p : Position} {cs : List Char} {ahead : Option Char}
    {ts : List Token} (h : Pieces p cs ahead ts) (rest : List Char) :
    ∀ t ∈ ts, ¬ (p.after (cs ++ rest)).Before t.position := by
  intro t ht
  obtain ⟨us, vs, body, g, behind, -, rfl, -, -, -, hplace⟩ := h.split ht
  have hread : body ++ (g ++ (t.text.toList ++ behind)) ++ rest =
      body ++ (g ++ t.text.toList) ++ (behind ++ rest) := by simp
  rw [hread, Position.after_append, ← hplace]
  exact Position.not_after_before _ _

theorem Cut.not_before_of_mem {p : Position} {cs : List Char} {ts : List Token}
    (h : Cut p cs ts) : ∀ t ∈ ts, ¬ (p.after cs).Before t.position := by
  obtain ⟨body, last, rfl, hb, -⟩ := h
  exact hb.not_before_of_mem last

/-! ## 3. Prefixes that end outside the tokens -/

/-- All tokens lie behind a prefix of the first gap. -/
theorem Pieces.before_of_prefix_gap {p : Position} {q g w rest : List Char} {ahead : Option Char}
    {kind : Kind} {ts : List Token} (hq : q <+: g) (hw : Lexeme kind w (rest.head?.or ahead))
    (hr : Pieces (p.after (g ++ w)) rest ahead ts) :
    ∀ t ∈ (⟨kind, String.ofList w, p.after (g ++ w)⟩ :: ts : List Token),
      (p.after q).Before t.position := by
  obtain ⟨g', rfl⟩ := hq
  have hfirst : (p.after q).Before (p.after (q ++ g' ++ w)) := by
    rw [List.append_assoc, Position.after_append]
    exact Position.before_after _ _ (by simp [hw.ne_nil])
  intro t ht
  rcases List.mem_cons.mp ht with rfl | ht
  · exact hfirst
  · exact hfirst.trans (hr.pairwise_before.1 t ht)

/-- The prefix `q` of `cs` ends inside one of the tokens, or is cut into those that end within it. -/
def CutAt (p : Position) (cs : List Char) (ts : List Token) (q : List Char) : Prop :=
  (∃ t ∈ ts, ∃ w, Breaks p cs q t w) ∨
    ∃ us vs, ts = us ++ vs ∧ Cut p q us ∧ ∀ t ∈ vs, (p.after q).Before t.position

/-- A gap and a lexeme in front are one more token that ends within the prefix. -/
theorem CutAt.behind {p : Position} {g w rest q : List Char} {ahead : Option Char} {kind : Kind}
    {ts : List Token} (hg : Gap g) (hw : Lexeme kind w (rest.head?.or ahead)) (hq : q <+: rest)
    (h : CutAt (p.after (g ++ w)) rest ts q) :
    CutAt p (g ++ (w ++ rest)) (⟨kind, String.ofList w, p.after (g ++ w)⟩ :: ts)
      (g ++ (w ++ q)) := by
  rcases h with ⟨t, ht, w', hbreaks⟩ | ⟨us, vs, rfl, hcut, hvs⟩
  · have hfront := hbreaks.behind (g ++ w)
    rw [List.append_assoc, List.append_assoc] at hfront
    exact Or.inl ⟨t, List.mem_cons_of_mem _ ht, w', hfront⟩
  · have hlex : Lexeme kind w q.head? := by
      cases q with
      | nil => exact hw.before free_none
      | cons c q =>
        obtain ⟨x, rfl⟩ := hq
        exact hw
    refine Or.inr ⟨⟨kind, String.ofList w, p.after (g ++ w)⟩ :: us, vs, rfl, ?_, ?_⟩
    · rw [Position.after_append] at hcut ⊢
      exact Cut.gap hg (Cut.lexeme hlex hcut)
    · rwa [← List.append_assoc, Position.after_append]

/-- **A prefix of pieces** ends inside a token, or is cut into the tokens that end within it.  By
induction on the pieces: the prefix ends in the first gap, in the first token, or behind it. -/
theorem Pieces.cutAt {p : Position} {cs : List Char} {ahead : Option Char} {ts : List Token}
    (h : Pieces p cs ahead ts) : ∀ q, q <+: cs → CutAt p cs ts q := by
  induction h with
  | nil =>
    intro q hq
    rw [List.prefix_nil.mp hq]
    exact Or.inr ⟨[], [], rfl, Cut.last (Or.inl Gap.nil), nofun⟩
  | @cons p g w rest ahead kind ts hg hw hr ih =>
    intro q hq
    rcases prefix_append_cases hq with hgap | ⟨q₁, hne, rfl, hq₁⟩
    · exact Or.inr ⟨[], _, rfl, Cut.last (hg.lastGap_of_prefix q hgap),
        Pieces.before_of_prefix_gap hgap hw hr⟩
    rcases prefix_append_cases hq₁ with ⟨w', rfl⟩ | ⟨q₂, -, rfl, hq₂⟩
    · by_cases hnil : w' = []
      · subst hnil
        have hwhole := CutAt.behind hg hw List.nil_prefix (ih [] List.nil_prefix)
        simpa using hwhole
      · refine Or.inl ⟨_, List.mem_cons_self, q₁, g, w', rfl, String.toList_ofList, hne, hnil, ?_, ?_⟩
        · rw [String.toList_ofList]
          exact (List.prefix_append_right_inj g).mpr (List.prefix_append (q₁ ++ w') rest)
        · rw [String.toList_ofList]
    · exact CutAt.behind hg hw hq₂ (ih q₂ hq₂)

/-- **A prefix of a source** ends inside a token, or is cut into the tokens that end within it. -/
theorem Cut.cutAt {p : Position} {cs q : List Char} {ts : List Token} (h : Cut p cs ts)
    (hq : q <+: cs) : CutAt p cs ts q := by
  obtain ⟨body, last, rfl, hb, hl⟩ := h
  rcases prefix_append_cases hq with hbody | ⟨l, -, rfl, hlast⟩
  · rcases hb.cutAt q hbody with ⟨t, ht, w, hbreaks⟩ | hcut
    · exact Or.inl ⟨t, ht, w, hbreaks.mono (List.prefix_append body last)⟩
    · exact Or.inr hcut
  · have hpieces : Pieces p body l.head? ts := by
      cases l with
      | nil => exact hb.before free_none
      | cons c l =>
        obtain ⟨x, rfl⟩ := hlast
        exact hb
    exact Or.inr ⟨ts, [], (List.append_nil ts).symm, ⟨body, l, rfl, hpieces, hl.of_prefix hlast⟩,
      nofun⟩

/-! ## 4. Prefixes that end inside a token -/

/-- The pieces before the token that is broken: they end where the part of it begins. -/
theorem Cut.split_of_breaks {cs q : List Char} {ts : List Token} {t : Token} {w : List Char}
    {p : Position} (h : Cut p cs ts) (ht : t ∈ ts) (hbreaks : Breaks p cs q t w) :
    ∃ us vs body g, ts = us ++ vs ∧ q = body ++ (g ++ w) ∧ Pieces p body (g ++ w).head? us ∧
      Gap g ∧ (∀ u ∈ us, ¬ (p.after q).Before u.position) ∧
      (∀ v ∈ vs, (p.after q).Before v.position) ∧ EndsAs t.kind w := by
  obtain ⟨source, last, rfl, hb, -⟩ := h
  obtain ⟨us, vs, body, g, behind, rfl, rfl, hus, hg, hw, hplace⟩ := hb.split ht
  obtain ⟨before, rest, rfl, htext, hne, hrest, hprefix, hbroken⟩ := hbreaks
  have hwhole : body ++ (g ++ t.text.toList) <+:
      body ++ (g ++ (t.text.toList ++ behind)) ++ last := ⟨behind ++ last, by simp⟩
  have hsame : before ++ t.text.toList = body ++ g ++ t.text.toList := by
    rw [List.append_assoc]
    exact Position.after_inj_of_prefix hprefix hwhole (hbroken.symm.trans hplace)
  obtain rfl := List.append_cancel_right hsame
  have hfirst : (p.after (body ++ g ++ w)).Before t.position := by
    rw [hbroken, htext, ← List.append_assoc, Position.after_append _ (body ++ g ++ w)]
    exact Position.before_after rest _ hrest
  refine ⟨us, t :: vs, body, g, rfl, List.append_assoc _ _ _, ?_, hg, ?_, ?_, ?_⟩
  · rw [htext] at hus
    obtain ⟨c, w, rfl⟩ := List.exists_cons_of_ne_nil hne
    cases g <;> exact hus
  · rw [List.append_assoc]
    exact hus.not_before_of_mem (g ++ w)
  · intro v hv
    rcases List.mem_cons.mp hv with rfl | hv
    · exact hfirst
    · have hpairs := (List.pairwise_append.mp hb.pairwise_before.2).2.1
      exact hfirst.trans ((List.pairwise_cons.mp hpairs).1 v hv)
  · rw [htext] at hw
    exact hw.part hne hrest

/-- The run fails where what is read last between two tokens does. -/
theorem Scan.run_of_fails {body g w : List Char} {us : List Token} {cause : Cause}
    (hus : Pieces .start body (g ++ w).head? us) (hg : Gap g) (h : Fails w cause) :
    run (body ++ (g ++ w)) = .error ⟨cause, Position.start.after (body ++ (g ++ w))⟩ := by
  rw [run_of_pieces hus, read_append_of_ok (read_gap hg _), h, Position.after_append,
    Position.after_append]
  rfl

/-! ## 5. Prefixes of sources -/

/-- A prefix of a source begins with no mark if the source does not. -/
theorem head?_ne_of_append {source q x : String} {c : Char} (hm : source.toList.head? ≠ some c)
    (h : source = q ++ x) : q.toList.head? ≠ some c := by
  rw [h, String.toList_append] at hm
  cases hq : q.toList with
  | nil => simp
  | cons d rest =>
    rw [hq] at hm
    exact hm

/-- What a source that ends inside a token comes to is told by the part of the token. -/
theorem tokenize_of_breaks {q : String} {cs w : List Char} {ts : List Token} {t : Token}
    (hq : q.toList.head? ≠ some '\uFEFF') (h : Cut .start cs ts) (ht : t ∈ ts)
    (hbreaks : Breaks .start cs q.toList t w) :
    (∀ cause, partCause t.kind (String.ofList w) = some cause →
      tokenize q = .error (Fault.diagnose q ⟨cause, Position.start.after q.toList⟩)) ∧
    (partCause t.kind (String.ofList w) = none →
      ∃ kind, tokenize q =
        .ok (endingWithin q ts ++ [⟨kind, String.ofList w, Position.start.after q.toList⟩])) := by
  obtain ⟨us, vs, body, g, rfl, heq, hus, hg, hwithin, hbehind, hends⟩ := h.split_of_breaks ht hbreaks
  rw [endingWithin_append hwithin hbehind]
  rcases hends with ⟨cause, hcause, hfails⟩ | ⟨hnone, kind, hw⟩
  · rw [hcause]
    refine ⟨?_, nofun⟩
    intro _ hsome
    obtain rfl := Option.some.inj hsome
    rw [tokenize_eq_run hq, heq, Scan.run_of_fails hus hg hfails]
    rfl
  · rw [hnone]
    refine ⟨nofun, fun _ => ⟨kind, tokenize_of_cut ?_⟩⟩
    rw [← Option.or_none (o := (g ++ w).head?)] at hus
    have hlast := hus.snoc hg hw
    rw [← heq] at hlast
    exact ⟨q.toList, [], (List.append_nil _).symm, hlast, Or.inl Gap.nil⟩

/-- A source that is at fault before its end may go on in any way. -/
theorem tokenize_append_of_error {source : String} {e : Error}
    (hm : source.toList.head? ≠ some '\uFEFF') (he : tokenize source = .error e)
    (hplace : e.position ≠ Position.start.after source.toList) (x : String) :
    ∃ e', tokenize (source ++ x) = .error e' ∧ e'.cause = e.cause ∧ e'.position = e.position := by
  rw [tokenize_eq_run hm] at he
  obtain ⟨f, hrun, rfl⟩ := mapError_eq_error_iff.mp he
  have hmark : (source ++ x).toList.head? ≠ some '\uFEFF' := by
    rw [String.toList_append]
    cases hcs : source.toList with
    | nil => rw [hcs] at hrun; exact absurd hrun nofun
    | cons c rest => rw [hcs] at hm; exact hm
  refine ⟨f.diagnose (source ++ x), ?_, rfl, rfl⟩
  rw [tokenize_eq_run hmark, String.toList_append, Scan.run_append_of_error hrun hplace]
  rfl

end Token

/-- **Tokenizing prefixes.**  A prefix of a source that is tokenized has the tokens that end within
it, unless it ends inside a token.  Then the part of that token that is left is one more token or a
fault at the end, and which of these is told by its kind and the part.  And where a source is at
fault before its end, everything that begins with it is at fault there for the same cause. -/
theorem tokenize_prefixes {source : String} (hm : source.toList.head? ≠ some '\uFEFF') :
    (∀ ts, tokenize source = .ok ts → ∀ q x : String, source = q ++ x →
        ((∀ t ∈ ts, ∀ w, ¬ Token.Breaks .start source.toList q.toList t w) →
          tokenize q = .ok (Token.endingWithin q ts)) ∧
        ∀ t ∈ ts, ∀ w, Token.Breaks .start source.toList q.toList t w →
          (∀ cause, Token.partCause t.kind (String.ofList w) = some cause →
            tokenize q = .error
              (Token.Fault.diagnose q ⟨cause, Position.start.after q.toList⟩)) ∧
          (Token.partCause t.kind (String.ofList w) = none →
            ∃ kind, tokenize q = .ok (Token.endingWithin q ts ++
              [⟨kind, String.ofList w, Position.start.after q.toList⟩]))) ∧
      ∀ e, tokenize source = .error e → e.position ≠ Position.start.after source.toList →
        ∀ x : String, ∃ e', tokenize (source ++ x) = .error e' ∧ e'.cause = e.cause ∧
          e'.position = e.position := by
  refine ⟨?_, fun e he hplace x => Token.tokenize_append_of_error hm he hplace x⟩
  intro ts hts q x hq
  have hcut := cut_of_tokenize hm hts
  have hprefix : q.toList <+: source.toList := ⟨x.toList, by rw [hq, String.toList_append]⟩
  constructor
  · intro hout
    rcases hcut.cutAt hprefix with ⟨t, ht, w, hbreaks⟩ | ⟨us, vs, rfl, hus, hvs⟩
    · exact absurd hbreaks (hout t ht w)
    · rw [Token.endingWithin_append hus.not_before_of_mem hvs]
      exact Token.tokenize_of_cut hus
  · intro t ht w hbreaks
    exact Token.tokenize_of_breaks (Token.head?_ne_of_append hm hq) hcut ht hbreaks

/-- A named character cut behind its backslash, behind one letter and behind two of them, the
prefix before all of it, and a source at fault before its end. -/
theorem tokenize_prefixes_named :
    "x\\space".toList.head? ≠ some '\uFEFF' ∧ "1a".toList.head? ≠ some '\uFEFF' ∧
      tokenize "x\\space" = .ok [⟨.identifier, "x", ⟨1, 1⟩⟩, ⟨.character, "\\space", ⟨1, 7⟩⟩] ∧
      tokenize "x" = .ok [⟨.identifier, "x", ⟨1, 1⟩⟩] ∧
      tokenize "x\\" = .error ⟨.invalidCharacter "\\", ⟨1, 2⟩, "x\\"⟩ ∧
      (∃ kind, tokenize "x\\s" = .ok [⟨.identifier, "x", ⟨1, 1⟩⟩, ⟨kind, "\\s", ⟨1, 3⟩⟩]) ∧
      tokenize "x\\sp" = .error ⟨.invalidCharacter "\\sp", ⟨1, 4⟩, "x\\sp"⟩ ∧
      tokenize "1a" = .error ⟨.identifierAfterInt, ⟨1, 1⟩, "1a"⟩ ∧
      ∃ e, tokenize ("1a" ++ "\n\"") = .error e ∧ e.cause = .identifierAfterInt ∧
        e.position = ⟨1, 1⟩ := by
  have hm : "x\\space".toList.head? ≠ some '\uFEFF' := by decide
  have hn : "1a".toList.head? ≠ some '\uFEFF' := by decide
  have hts : tokenize "x\\space" =
      .ok [⟨.identifier, "x", ⟨1, 1⟩⟩, ⟨.character, "\\space", ⟨1, 7⟩⟩] := by rfl
  have he : tokenize "1a" = .error ⟨.identifierAfterInt, ⟨1, 1⟩, "1a"⟩ := by rfl
  have cut := (tokenize_prefixes hm).1 _ hts
  have hlast : (⟨.character, "\\space", ⟨1, 7⟩⟩ : Token) ∈
      [⟨.identifier, "x", ⟨1, 1⟩⟩, ⟨.character, "\\space", ⟨1, 7⟩⟩] := by simp
  have houtside : ∀ t ∈ ([⟨.identifier, "x", ⟨1, 1⟩⟩, ⟨.character, "\\space", ⟨1, 7⟩⟩] : List Token),
      ∀ w, ¬ Token.Breaks .start "x\\space".toList "x".toList t w := by
    rintro t ht w ⟨before, rest, hq, htext, hw, hrest, -, -⟩
    have hx : "x".toList = ['x'] := rfl
    rw [hx, List.singleton_eq_append_iff] at hq
    obtain ⟨-, rfl⟩ | ⟨-, rfl⟩ := hq
    · rcases List.mem_pair.mp ht with rfl | rfl
      · exact hrest (List.cons.inj htext).2.symm
      · exact absurd (congrArg List.head? htext) (by simp)
    · exact hw rfl
  refine ⟨hm, hn, hts, (cut "x" "\\space" rfl).1 houtside, ?_, ?_, ?_, he,
    (tokenize_prefixes hn).2 _ he (by decide) "\n\""⟩
  · exact ((cut "x\\" "space" rfl).2 _ hlast ['\\']
      ⟨['x'], "space".toList, rfl, rfl, nofun, nofun, by decide, by decide⟩).1 _ rfl
  · exact ((cut "x\\s" "pace" rfl).2 _ hlast ['\\', 's']
      ⟨['x'], "pace".toList, rfl, rfl, nofun, nofun, by decide, by decide⟩).2 rfl
  · exact ((cut "x\\sp" "ace" rfl).2 _ hlast ['\\', 's', 'p']
      ⟨['x'], "ace".toList, rfl, rfl, nofun, nofun, by decide, by decide⟩).1 _ rfl

end Sexpr
