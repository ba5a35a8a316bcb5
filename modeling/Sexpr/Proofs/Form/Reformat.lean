/-
# Programs written anew

Reading a program and writing it again changes nothing but gaps.  The new text is the forms in the
order in which they were read, each printed, with gaps between them and one behind the last, so it
is cut into the tokens of forms alike to the ones that were read (`PrintsAll.readForms`).

**Alike forms have the same tokens, up to places.**  A slot of a form knows the kind and the text of
its token: an atom keeps its token, and brackets and markers have one spelling each
(`Slot.content_of_fits`).  Moving a form to the start changes no slot in this respect.

The new program is made of alike forms, and alike forms make the same program.  So writing it a
second time changes nothing at all.
-/
import Sexpr.Proofs.Form.Identity

namespace Sexpr

namespace Token

/-! ## 1. Spellings -/

/-- Brackets and markers have one spelling. -/
theorem Lexeme.eq_singleton {kind : Kind} {cs : List Char} {next : Option Char} {c : Char}
    (h : Lexeme kind cs next) (ha : kind.isAtomic = false) (hc : Kind.ofChar? c = some kind) :
    cs = [c] := by
  cases h with
  | single h => rw [Kind.ofChar?_inj h hc]
  | word _ _ => simp at ha
  | int _ _ | float _ _ | string _ | character _ _ => simp [Kind.isAtomic] at ha

end Token

namespace Form

open Token (Gap Free Cut Lexeme)

/-! ## 2. What slots say -/

/-- The kind and the text of the token that a slot asks for. -/
def Slot.content : Slot → Token.Kind × String
  | marker m => (.marker m, String.ofList [m.char])
  | atom _ t => t.content
  | opening b _ => (.opening b, String.ofList [b.opener])
  | closing b => (.closing b, String.ofList [b.closer])

/-- **A slot says what its token does.** -/
theorem Slot.content_of_fits {s : Slot} {t : Token} (h : s.Fits t)
    (hw : Lexeme t.kind t.text.toList none) : t.content = s.content := by
  have single : ∀ c : Char, t.kind.isAtomic = false → Token.Kind.ofChar? c = some t.kind →
      t.content = (t.kind, String.ofList [c]) := by
    intro c ha hc
    rw [Token.content, ← hw.eq_singleton ha hc, String.ofList_toList]
  cases s with
  | marker m =>
    have hk := Slot.fits_marker.mp h
    rw [single m.char (by rw [hk]; rfl) (by rw [hk, Token.Kind.ofChar?_char]), hk]
    rfl
  | atom p u =>
    obtain ⟨-, rfl, -⟩ := Slot.fits_atom.mp h
    rfl
  | opening b p =>
    have hk := (Slot.fits_opening.mp h).1
    rw [single b.opener (by rw [hk]; rfl) (by rw [hk, Token.Kind.ofChar?_opener]), hk]
    rfl
  | closing b =>
    have hk := Slot.fits_closing.mp h
    rw [single b.closer (by rw [hk]; rfl) (by rw [hk, Token.Kind.ofChar?_closer]), hk]
    rfl

theorem map_content_of_fits {row : List Slot} {ts : List Token}
    (h : List.Forall₂ Slot.Fits row ts) (hw : ∀ t ∈ ts, Lexeme t.kind t.text.toList none) :
    ts.map Token.content = row.map Slot.content := by
  induction h with
  | nil => rfl
  | @cons s t row ts hf _ ih =>
    rw [List.map_cons, List.map_cons, Slot.content_of_fits hf (hw t List.mem_cons_self),
      ih fun u hu => hw u (List.mem_cons_of_mem _ hu)]

mutual

theorem content_linear_unplaced : ∀ f : Form,
    f.unplaced.linear.map Slot.content = f.linear.map Slot.content
  | atom q p t => by simp [unplaced, linear, Slot.content, Token.content]
  | list q p b cs => by simp [unplaced, linear, Slot.content, content_linearAll_unplacedAll cs]

theorem content_linearAll_unplacedAll : ∀ fs : List Form,
    (linearAll (unplacedAll fs)).map Slot.content = (linearAll fs).map Slot.content
  | [] => rfl
  | c :: cs => by
    simp [unplacedAll, linearAll, content_linear_unplaced c, content_linearAll_unplacedAll cs]

end

/-- **Alike forms were read from the same tokens**, up to places. -/
theorem content_eq_of_alikeAll {gs fs : List Form} {source source' : String} {ts us : List Token}
    (h : alikeAll gs fs = true) (hts : tokenize source = .ok ts) (hus : tokenize source' = .ok us)
    (hg : List.Forall₂ Slot.Fits (linearAll gs) ts)
    (hf : List.Forall₂ Slot.Fits (linearAll fs) us) :
    ts.map Token.content = us.map Token.content := by
  rw [map_content_of_fits hg (Token.lexeme_of_mem hts),
    map_content_of_fits hf (Token.lexeme_of_mem hus), ← content_linearAll_unplacedAll gs,
    alikeAll_iff_unplacedAll_eq.mp h, content_linearAll_unplacedAll]

/-! ## 3. Programs are printed -/

/-- Alike pairwise, and as many of one as of the other. -/
theorem alikeAll_iff_forall₂ {as bs : List Form} :
    alikeAll as bs = true ↔ List.Forall₂ (fun a b => a.alike b = true) as bs := by
  induction as generalizing bs with
  | nil => cases bs <;> simp [alikeAll]
  | cons a as ih => cases bs <;> simp [alikeAll, ih]

/-- A program is its forms, printed one after the other, and a gap behind the last. -/
theorem exists_printsAll_layoutProgram : ∀ fs : List Form,
    ∃ text gap, PrintsAll fs text ∧ Gap gap ∧ layoutProgram fs = text ++ gap
  | [] => ⟨[], [], PrintsAll.nil, Gap.nil, rfl⟩
  | [f] => by
    have hone := PrintsAll.cons (prints_layout 0 f) PrintsRest.nil
    rw [List.append_nil] at hone
    exact ⟨_, ['\n'], hone, Gap.blank rfl Gap.nil, layoutProgram_singleton f⟩
  | f :: g :: fs => by
    obtain ⟨text, gap, hp, hgap, heq⟩ := exists_printsAll_layoutProgram (g :: fs)
    cases hp with
    | @cons _ _ first rest hg hr =>
      have hblank : Gap ['\n', '\n'] := Gap.blank rfl (Gap.blank rfl Gap.nil)
      refine ⟨f.layout 0 ++ (['\n', '\n'] ++ (first ++ rest)), gap,
        PrintsAll.cons (prints_layout 0 f) (PrintsRest.cons hblank (by simp) hg hr), hgap, ?_⟩
      rw [layoutProgram_cons_cons, heq]
      simp

/-- Printed forms are read, whatever gap stands behind them. -/
theorem PrintsAll.readForms {fs : List Form} {text gap : List Char} (h : PrintsAll fs text)
    (hgap : Gap gap) (hf : FaithfulAll fs) :
    ∃ gs ts, tokenize (String.ofList (text ++ gap)) = .ok ts ∧
      readForms (String.ofList (text ++ gap)) = .ok gs ∧ alikeAll gs fs = true ∧
      List.Forall₂ Slot.Fits (linearAll gs) ts := by
  obtain ⟨gs, ts, halike, hfits, hreads⟩ := PrintsAll.reads fs h hf .start
  have hfree : Free gap.head? := by
    by_cases hne : gap = []
    · rw [hne]
      exact Token.free_none
    · have hbegin := hgap.free hne []
      rwa [List.append_nil] at hbegin
  have hcut : Cut .start (text ++ gap) ts := by
    have hend := hreads gap [] hfree (Cut.last (Or.inl hgap))
    rwa [List.append_nil] at hend
  refine ⟨gs, ts, hcut.tokenize, withTokens_eq_ok_iff.mpr ⟨ts, ?_, ?_⟩, halike, hfits⟩
  · rw [hcut.withoutMark]
    exact hcut.tokenize
  · exact parseAll_eq_ok_iff.mpr (isLinear_iff.mpr hfits)

end Form

/-! ## 4. Programs written anew -/

open Form (program)

/-- **A program written anew has the same tokens**, kind by kind and text by text, as the source it
was read from.  So it is read as many forms, pairwise alike to those, and they make the same program
again. -/
theorem tokenize_program {source : String} {forms : List Form}
    (hm : source.toList.head? ≠ some '\uFEFF') (h : readForms source = .ok forms) :
    (∃ tokens tokens', tokenize source = .ok tokens ∧
        tokenize (program forms) = .ok tokens' ∧
        tokens'.map Token.content = tokens.map Token.content) ∧
      ∃ forms', readForms (program forms) = .ok forms' ∧
        List.Forall₂ (fun g f => g.alike f = true) forms' forms ∧
        program forms' = program forms := by
  obtain ⟨tokens, htok, hparse⟩ := withTokens_eq_ok_iff.mp h
  rw [Text.withoutMark_of_head hm] at htok
  have hfits := Form.isLinear_iff.mp (Form.parseAll_eq_ok_iff.mp hparse)
  have hfaithful := Form.faithfulAll_of_fits htok hfits
  obtain ⟨text, gap, hprints, hgap, htext⟩ := Form.exists_printsAll_layoutProgram forms
  obtain ⟨forms', tokens', htok', hread, halike, hfits'⟩ := hprints.readForms hgap hfaithful
  rw [← htext] at htok' hread
  exact ⟨⟨tokens, tokens', htok, htok', Form.content_eq_of_alikeAll halike htok' htok hfits' hfits⟩,
    forms', hread, Form.alikeAll_iff_forall₂.mp halike, Form.program_eq_of_alikeAll halike⟩

/-- Tokens that touch, a comment, and a string that runs on over a line. -/
theorem tokenize_program_touching :
    ∃ forms, "'(a\"x\ny\"b);c\n[~1.]".toList.head? ≠ some '\uFEFF' ∧
      readForms "'(a\"x\ny\"b);c\n[~1.]" = .ok forms ∧
      program forms = "'(a \"x\ny\" b)\n\n[~1.]\n" ∧
      (∃ tokens tokens', tokenize "'(a\"x\ny\"b);c\n[~1.]" = .ok tokens ∧
        tokenize (program forms) = .ok tokens' ∧
        tokens'.map Token.content = tokens.map Token.content) ∧
      ∃ forms', readForms (program forms) = .ok forms' ∧
        List.Forall₂ (fun g f => g.alike f = true) forms' forms ∧
        program forms' = program forms := by
  have hm : "'(a\"x\ny\"b);c\n[~1.]".toList.head? ≠ some '\uFEFF' := by decide
  have h : readForms "'(a\"x\ny\"b);c\n[~1.]" = .ok
      [.list (some .quote) ⟨1, 2⟩ .round [.atom none ⟨1, 3⟩ ⟨.identifier, "a", ⟨1, 3⟩⟩,
          .atom none ⟨2, 2⟩ ⟨.string, "\"x\ny\"", ⟨2, 2⟩⟩,
          .atom none ⟨2, 3⟩ ⟨.identifier, "b", ⟨2, 3⟩⟩],
        .list none ⟨3, 1⟩ .square [.atom none ⟨3, 4⟩ ⟨.float, "~1.", ⟨3, 4⟩⟩]] := by rfl
  exact ⟨_, hm, h, by rfl, tokenize_program hm h⟩

end Sexpr
