import SodiumDecl.Proofs.Profiles

/-!
# The spelling of names

What a catalog takes for the same name does not depend on the case of ASCII letters
(`lowercase_congr`). Lower-casing looks around: whether a capital sigma becomes `ς` depends on the
letters next to it. But two characters that differ in the case of an ASCII letter have the same
lower-case form, are both letters with case and are never passed over (`SameChar.eq_or`), so the
texts are lower-cased side by side, what stands before a place and what comes after it being alike
(`lowerFrom_congr`).

So the list of names that only the extended build has may be spelled in other ways, and so may the
names of constants and functions: the same declarations are left out of the standard module
(`standard_respelled`).
-/

namespace SodiumDecl

namespace Text

/-! ## Characters -/

section Characters

variable {c d : Char}

theorem isAlpha_iff :
    c.isAlpha = true ↔ 0x41 ≤ c.toNat ∧ c.toNat ≤ 0x5A ∨ 0x61 ≤ c.toNat ∧ c.toNat ≤ 0x7A := by
  delta Char.isAlpha Char.isUpper Char.isLower
  simp [UInt32.le_iff_toNat_le]

theorem toNat_toLower (c : Char) : c.toLower.toNat =
    if 0x41 ≤ c.toNat ∧ c.toNat ≤ 0x5A then c.toNat + 0x20 else c.toNat := by
  have hupper : c.val ≥ 'A'.val ∧ c.val ≤ 'Z'.val ↔ 0x41 ≤ c.toNat ∧ c.toNat ≤ 0x5A := by
    simp [UInt32.le_iff_toNat_le]
  unfold Char.toLower
  split
  case isTrue h =>
    have h := hupper.mp h
    rw [if_pos h]
    show (c.val + ('a'.val - 'A'.val)).toNat = _
    rw [UInt32.toNat_add, Nat.mod_eq_of_lt]
    · rfl
    · show c.toNat + 0x20 < _
      omega
  case isFalse h => rw [if_neg fun h' => h (hupper.mpr h')]

theorem isAlpha_toLower (c : Char) : c.toLower.isAlpha = c.isAlpha := by
  rw [Bool.eq_iff_iff, isAlpha_iff, isAlpha_iff, toNat_toLower]
  split <;> omega

theorem toLower_of_not_isAlpha (h : c.isAlpha = false) : c.toLower = c := by
  have hother : ¬ (0x41 ≤ c.toNat ∧ c.toNat ≤ 0x5A) := fun hupper => by
    simp [isAlpha_iff.mpr (Or.inl hupper)] at h
  apply Char.toNat_inj.mp
  rw [toNat_toLower, if_neg hother]

/-- Characters are the same but for the case of an ASCII letter. -/
def SameChar (c d : Char) : Prop := c.toLower = d.toLower

instance (c d : Char) : Decidable (SameChar c d) := inferInstanceAs (Decidable (_ = _))

/-- Only letters have another spelling. -/
theorem SameChar.eq_or (h : SameChar c d) : c = d ∨ c.isAlpha = true ∧ d.isAlpha = true := by
  have hlower : c.toLower = d.toLower := h
  have halpha : c.isAlpha = d.isAlpha := by
    rw [← isAlpha_toLower c, ← isAlpha_toLower d, hlower]
  cases hc : c.isAlpha with
  | true => exact Or.inr ⟨rfl, halpha.symm.trans hc⟩
  | false =>
    refine Or.inl ?_
    calc c = c.toLower := (toLower_of_not_isAlpha hc).symm
      _ = d.toLower := hlower
      _ = d := toLower_of_not_isAlpha (halpha.symm.trans hc)

/-! What the sigma rule asks of a character, asked of an ASCII letter. -/

theorem not_caseIgnorable (h : c.isAlpha = true) : inTable caseIgnorable c = false := by
  have hgap : ∀ r ∈ caseIgnorable, r.2 < 0x41 ∨ 0x5A < r.1 ∧ r.2 < 0x61 ∨ 0x7A < r.1 := by
    decide +kernel
  rw [isAlpha_iff] at h
  refine List.any_eq_false.mpr fun r hr => ?_
  have hr := hgap r hr
  rw [Bool.and_eq_true, decide_eq_true_eq, decide_eq_true_eq]
  omega

theorem inTable_cased (h : c.isAlpha = true) : inTable cased c = true := by
  rw [isAlpha_iff] at h
  rcases h with h | h
  · exact List.any_eq_true.mpr ⟨(0x41, 0x5A), List.mem_cons_self, by simpa using h⟩
  · refine List.any_eq_true.mpr ⟨(0x61, 0x7A), ?_, by simpa using h⟩
    exact List.mem_cons_of_mem _ List.mem_cons_self

theorem lowerChar_of_isAlpha (h : c.isAlpha = true) : lowerChar c = [c.toLower] := by
  rw [isAlpha_iff] at h
  rw [lowerChar, if_pos (by omega)]

theorem ne_sigma (h : c.isAlpha = true) : c ≠ 'Σ' := by
  rintro rfl
  exact absurd h (by decide)

end Characters

namespace SameChar

variable {c d : Char}

theorem caseIgnorable (h : SameChar c d) :
    inTable Text.caseIgnorable c = inTable Text.caseIgnorable d := by
  rcases h.eq_or with rfl | ⟨hc, hd⟩
  · rfl
  · rw [not_caseIgnorable hc, not_caseIgnorable hd]

theorem cased (h : SameChar c d) : inTable Text.cased c = inTable Text.cased d := by
  rcases h.eq_or with rfl | ⟨hc, hd⟩
  · rfl
  · rw [inTable_cased hc, inTable_cased hd]

theorem lowerChar (h : SameChar c d) : Text.lowerChar c = Text.lowerChar d := by
  rcases h.eq_or with rfl | ⟨hc, hd⟩
  · rfl
  · rw [lowerChar_of_isAlpha hc, lowerChar_of_isAlpha hd, h]

theorem sigma (h : SameChar c d) : c = 'Σ' ↔ d = 'Σ' := by
  rcases h.eq_or with rfl | ⟨hc, hd⟩
  · rfl
  · exact iff_of_false (ne_sigma hc) (ne_sigma hd)

end SameChar

/-! ## Texts -/

section Texts

variable {before before' cs ds : List Char}

theorem startsCased_congr (h : List.Forall₂ SameChar cs ds) : startsCased cs = startsCased ds := by
  induction h with
  | nil => rfl
  | @cons c d cs ds hcd _ ih =>
    cases hd : inTable caseIgnorable d with
    | true =>
      have hc := hcd.caseIgnorable.trans hd
      rw [startsCased, List.dropWhile_cons_of_pos hc, startsCased, List.dropWhile_cons_of_pos hd]
      exact ih
    | false =>
      have hc := hcd.caseIgnorable.trans hd
      rw [startsCased, List.dropWhile_cons_of_neg (by simp [hc]), startsCased,
        List.dropWhile_cons_of_neg (by simp [hd])]
      exact hcd.cased

/-- Behind texts that are alike, texts that are alike are lower-cased alike. -/
theorem lowerFrom_congr (hb : List.Forall₂ SameChar before before')
    (h : List.Forall₂ SameChar cs ds) : lowerFrom before cs = lowerFrom before' ds := by
  induction h generalizing before before' with
  | nil => rfl
  | cons hcd h ih =>
    rw [lowerFrom, lowerFrom, ih (.cons hcd hb), startsCased_congr hb, startsCased_congr h,
      hcd.lowerChar]
    simp only [hcd.sigma]

/-- Texts are the same but for the case of ASCII letters. -/
def SameLetters (s t : String) : Prop := List.Forall₂ SameChar s.toList t.toList

instance (s t : String) : Decidable (SameLetters s t) :=
  inferInstanceAs (Decidable (List.Forall₂ _ _ _))

theorem lowercase_congr {s t : String} (h : SameLetters s t) : lowercase s = lowercase t :=
  congrArg String.ofList (lowerFrom_congr .nil h)

end Texts

end Text

open Text

/-! ## Names -/

/-- Two lists spell the same names: in any order, any number of times, and with ASCII letters in
any case. -/
structure Respelled (names names' : List String) : Prop where
  kept : ∀ n ∈ names, ∃ n' ∈ names', SameLetters n n'
  only : ∀ n' ∈ names', ∃ n ∈ names, SameLetters n n'

/-- What the standard module may leave out. -/
inductive Export
  | constant
  | function

/-- The names of the constants or functions of a corpus. -/
def Corpus.names (corpus : Corpus) : Export → List String
  | .constant => corpus.constants.map (·.name)
  | .function => corpus.functions.map (·.name)

/-- The names of the constants or functions that a document declares. -/
def Document.names (d : Document) : Export → List String
  | .constant => d.constants.map (·.name)
  | .function => d.functions.map (·.name)

namespace Catalog

variable {names names' : List String} {n n' : String}

theorem isExtendedOnly_withExtendedOnly (c : Catalog) :
    (c.withExtendedOnly names).isExtendedOnly n = true ↔
      ∃ e ∈ names, lowercase e = lowercase n := by
  simp [isExtendedOnly, withExtendedOnly]

theorem isExtendedOnly_respelled (c : Catalog) (h : Respelled names names')
    (hn : SameLetters n n') :
    (c.withExtendedOnly names).isExtendedOnly n =
      (c.withExtendedOnly names').isExtendedOnly n' := by
  rw [Bool.eq_iff_iff, isExtendedOnly_withExtendedOnly, isExtendedOnly_withExtendedOnly,
    lowercase_congr hn]
  constructor
  · rintro ⟨e, he, hlower⟩
    obtain ⟨e', he', hsame⟩ := h.kept e he
    exact ⟨e', he', (lowercase_congr hsame).symm.trans hlower⟩
  · rintro ⟨e', he', hlower⟩
    obtain ⟨e, he, hsame⟩ := h.only e' he'
    exact ⟨e, he, (lowercase_congr hsame).trans hlower⟩

/-- Of the constants and of the functions of a corpus, the standard module leaves out those whose
names only the extended build has. -/
theorem names_assemble (c : Catalog) (corpus : Corpus) (version : String) (kind : Export) :
    (c.assemble corpus .standard version).names kind =
      (corpus.names kind).filter fun n => !c.isExtendedOnly n := by
  cases kind <;>
    simp [assemble, Document.names, Corpus.names, includes_standard, List.filter_map,
      Function.comp_def, constantDecl, functionDecl]

/-- A name is on the list when some name of the list is lower-cased to the same text, and however
the list and the name are spelled, it is on it or not. So the spelling of a constant or a function
does not decide whether the standard module has it, and neither does it matter which of the two it
is. -/
theorem standard_respelled (c : Catalog) (h : Respelled names names') (hn : SameLetters n n') :
    ((c.withExtendedOnly names).isExtendedOnly n = true ↔
        ∃ e ∈ names, lowercase e = lowercase n) ∧
      (c.withExtendedOnly names).isExtendedOnly n =
        (c.withExtendedOnly names').isExtendedOnly n' ∧
      ∀ (corpus corpus' : Corpus) (version version' : String) (kind kind' : Export),
        n ∈ corpus.names kind → n' ∈ corpus'.names kind' →
          (n ∈ ((c.withExtendedOnly names).assemble corpus .standard version).names kind ↔ n' ∈
            ((c.withExtendedOnly names').assemble corpus' .standard version').names kind') := by
  have hlisted := isExtendedOnly_respelled c h hn
  refine ⟨isExtendedOnly_withExtendedOnly c, hlisted, ?_⟩
  intro corpus corpus' version version' kind kind' hmem hmem'
  rw [names_assemble, names_assemble, List.mem_filter, List.mem_filter, hlisted]
  exact and_congr_left' (iff_of_true hmem hmem')

/-- The sigma ends a word in either spelling, and is lower-cased to `ς`. -/
theorem standard_respelled_sample :
    Respelled ["aΣ", "b"] ["B", "AΣ", "b"] ∧ SameLetters "AΣ" "aΣ" ∧
      (twoNamesCatalog.withExtendedOnly ["aΣ", "b"]).isExtendedOnly "AΣ" = true ∧
      (twoNamesCatalog.withExtendedOnly ["B", "AΣ", "b"]).isExtendedOnly "aΣ" = true := by
  have h : Respelled ["aΣ", "b"] ["B", "AΣ", "b"] := ⟨by decide, by decide⟩
  have hn : SameLetters "AΣ" "aΣ" := by decide
  obtain ⟨hlisted, hsame, -⟩ := standard_respelled twoNamesCatalog h hn
  have htrue : (twoNamesCatalog.withExtendedOnly ["aΣ", "b"]).isExtendedOnly "AΣ" = true :=
    hlisted.mpr ⟨"aΣ", List.mem_cons_self, by decide +kernel⟩
  exact ⟨h, hn, htrue, hsame.symm.trans htrue⟩

end Catalog

end SodiumDecl
