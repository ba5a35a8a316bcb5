/-
# What is printed is read again

Printing a form and reading the text gives a form alike to it, on one line or on several, EXACTLY if
the atoms of the form are faithful: each of them read by itself is that atom again.  Nothing is
asked of the shape of the form, of its quotations and brackets or of any place in it.

That faithful atoms are enough is the matter of `Printed`.  They are needed because whatever is read
has faithful atoms, whether it was printed or not (`faithful_of_readForm`), and alike forms have the
same atoms up to places.
-/
import Sexpr.Proofs.Form.Printed
import Sexpr.Source

namespace Sexpr.Form

/-! ## 1. Atoms are kept -/

mutual

/-- The atoms of a form are among its tokens. -/
theorem mem_of_fits : ∀ (f : Form) {ts : List Token}, List.Forall₂ Slot.Fits f.linear ts →
    ∀ t ∈ f.atoms, t ∈ ts ∧ t.kind.isAtomic = true
  | atom q p u, ts, h, t, ht => by
    obtain rfl := List.mem_singleton.mp ht
    obtain ⟨ms, rfl, -, hk, -⟩ := exists_tokens_of_atom h
    exact ⟨List.mem_append_right _ List.mem_cons_self, hk⟩
  | list q p b cs, ts, h, t, ht => by
    obtain ⟨ms, o, inner, c, rfl, -, -, -, hinner, -⟩ := exists_tokens_of_list h
    obtain ⟨hmem, hk⟩ := memAll_of_fits cs hinner t ht
    refine ⟨List.mem_append_right _ (List.mem_cons_of_mem _ ?_), hk⟩
    exact List.mem_append_left _ hmem

theorem memAll_of_fits : ∀ (fs : List Form) {ts : List Token},
    List.Forall₂ Slot.Fits (linearAll fs) ts → ∀ t ∈ atomsAll fs, t ∈ ts ∧ t.kind.isAtomic = true
  | [], _, _, _, ht => absurd ht List.not_mem_nil
  | c :: cs, ts, h, t, ht => by
    obtain ⟨us, us', rfl, hc, hcs⟩ := forall₂_append_left.mp h
    rcases List.mem_append.mp ht with ht | ht
    · obtain ⟨hmem, hk⟩ := mem_of_fits c hc t ht
      exact ⟨List.mem_append_left _ hmem, hk⟩
    · obtain ⟨hmem, hk⟩ := memAll_of_fits cs hcs t ht
      exact ⟨List.mem_append_right _ hmem, hk⟩

end

mutual

/-- Alike forms have faithful atoms together. -/
theorem Faithful.of_alike : ∀ {g f : Form}, g.alike f = true → g.Faithful → f.Faithful
  | atom q _ u, atom q' _ t, h, hg => by
    intro v hv
    obtain rfl := List.mem_singleton.mp hv
    have halike : u.alike v = true := by
      simp only [alike, Bool.and_eq_true] at h
      exact h.2
    exact (hg u List.mem_cons_self).of_alike halike
  | list q _ b ds, list q' _ b' cs, h, hg => by
    have halike : alikeAll ds cs = true := by
      simp only [alike, Bool.and_eq_true] at h
      exact h.2
    exact FaithfulAll.of_alike halike hg
  | atom .., list .., h, _ | list .., atom .., h, _ => by simp [alike] at h

theorem FaithfulAll.of_alike : ∀ {gs fs : List Form}, alikeAll gs fs = true →
    FaithfulAll gs → FaithfulAll fs
  | [], [], _, hg => hg
  | g :: gs, f :: fs, h, hg => by
    obtain ⟨hhead, htail⟩ : g.alike f = true ∧ alikeAll gs fs = true := by
      simpa only [alikeAll, Bool.and_eq_true] using h
    obtain ⟨hfirst, hrest⟩ := faithfulAll_cons.mp hg
    exact faithfulAll_cons.mpr ⟨Faithful.of_alike hhead hfirst, FaithfulAll.of_alike htail hrest⟩
  | [], _ :: _, h, _ | _ :: _, [], h, _ => by simp [alikeAll] at h

end

/-- The atoms of forms are faithful if the scanner returned the tokens. -/
theorem faithfulAll_of_fits {source : String} {ts : List Token} {fs : List Form}
    (h : tokenize source = .ok ts) (hfits : List.Forall₂ Slot.Fits (linearAll fs) ts) :
    FaithfulAll fs := by
  intro t ht
  obtain ⟨hmem, hk⟩ := memAll_of_fits fs hfits t ht
  exact Token.faithful_of_mem h hmem hk

/-- **Whatever is read has faithful atoms.** -/
theorem faithful_of_readForm {source : String} {g : Form} (h : readForm source = .ok g) :
    g.Faithful := by
  obtain ⟨tokens, htok, hparse⟩ := withTokens_eq_ok_iff.mp h
  obtain ⟨forms, hrun, rfl⟩ := parse_eq_ok_iff.mp hparse
  have hall := faithfulAll_of_fits htok (Reader.fits_of_run hrun)
  cases hlast : forms.getLast? with
  | none => exact fun t ht => absurd ht List.not_mem_nil
  | some g => exact faithfulAll_iff.mp hall g (List.mem_of_getLast? hlast)

/-! ## 2. Printing and reading -/

/-- What is printed is read again, if the atoms are faithful. -/
theorem Prints.readForm {f : Form} {text : List Char} (h : Prints f text) (hf : f.Faithful) :
    ∃ g, readForm (String.ofList text) = .ok g ∧ g.alike f = true := by
  obtain ⟨g, ts, halike, hfits, hreads⟩ := Prints.reads f h hf .start
  have hcut : Token.Cut .start text ts := by
    have hend := hreads [] [] Token.free_none (Token.Cut.last (Or.inl Token.Gap.nil))
    rwa [List.append_nil, List.append_nil] at hend
  refine ⟨g, withTokens_eq_ok_iff.mpr ⟨ts, ?_, ?_⟩, halike⟩
  · rw [hcut.withoutMark]
    exact hcut.tokenize
  · exact parse_eq_ok_iff.mpr ⟨[g], Reader.run_one_of_fits hfits, rfl⟩

theorem Prints.reads_back_iff {f : Form} {text : List Char} (h : Prints f text) :
    (∃ g, Sexpr.readForm (String.ofList text) = .ok g ∧ g.alike f = true) ↔ f.Faithful := by
  constructor
  · rintro ⟨g, hg, halike⟩
    exact (faithful_of_readForm hg).of_alike halike
  · exact h.readForm

/-- **Printing and reading.**  The compact text of a form reads back as a form alike to it exactly
if every atom in it is faithful, and so does its text on several lines. -/
theorem reads_back_iff_faithful (f : Form) :
    ((∃ g, readForm f.compact = .ok g ∧ g.alike f = true) ↔ ∀ t ∈ f.atoms, t.Faithful) ∧
      ((∃ g, readForm f.pretty = .ok g ∧ g.alike f = true) ↔ ∀ t ∈ f.atoms, t.Faithful) := by
  constructor
  · exact (prints_spell f).reads_back_iff
  · exact (prints_layout 0 f).reads_back_iff

end Sexpr.Form
