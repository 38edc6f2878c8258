import Mathlib.Data.List.Nodup
import Mathlib.Tactic.SplitIfs
import SodiumDecl.Corpus

/-!
# The order of names

Names are compared character by character. The encoding of characters keeps their order
(`append_encode_lt`), so this is the order of the bytes of the names (`utf8Bytes_lt_iff`).

`ByName name xs ys` says that `ys` is `xs` in the byte order of names, with equal names in
the order of `xs`. `sortByName` gives such a list (`byName_sortByName`), and dropping elements
by a test keeps it one (`ByName.filter`). Where no name stands twice in a row the order is
strict (`pairwise_lt_of_duplicate?`), and the list does not depend on the order in which its
elements came (`sortByName_eq_of_perm`). Where one does, the first of them is the first of all
names that are repeated (`duplicate?_sortByName_eq_some`).
-/

namespace SodiumDecl

/-! ## Bytes -/

/-- The bytes of a text in UTF-8. -/
def utf8Bytes (s : String) : List UInt8 := s.toUTF8.data.toList

theorem utf8Bytes_eq_flatMap (s : String) :
    utf8Bytes s = s.toList.flatMap String.utf8EncodeChar := by
  rw [utf8Bytes, String.toUTF8, ← String.utf8Encode_toList, List.utf8Encode]
  simp

/-- The places of a smaller number, in base 64, are smaller at the first difference. -/
theorem places_lt {v w : Nat} (h : v < w) :
    v / 262144 < w / 262144 ∨ v / 262144 = w / 262144 ∧
      (v / 4096 % 64 < w / 4096 % 64 ∨ v / 4096 % 64 = w / 4096 % 64 ∧
        (v / 64 % 64 < w / 64 % 64 ∨ v / 64 % 64 = w / 64 % 64 ∧ v % 64 < w % 64)) := by
  have place {m n : Nat} (h : m < n) : m / 64 < n / 64 ∨ m / 64 = n / 64 ∧ m % 64 < n % 64 := by
    omega
  have h2 (n : Nat) : n / 4096 = n / 64 / 64 := by omega
  have h3 (n : Nat) : n / 262144 = n / 64 / 64 / 64 := by omega
  rw [h2, h2, h3, h3]
  rcases place h with h | ⟨h, hl⟩
  · rcases place h with h | ⟨h, hl⟩
    · rcases place h with h | ⟨h, hl⟩
      · exact Or.inl h
      · exact Or.inr ⟨h, Or.inl hl⟩
    · rw [h]
      exact Or.inr ⟨rfl, Or.inr ⟨rfl, Or.inl hl⟩⟩
  · rw [h]
    exact Or.inr ⟨rfl, Or.inr ⟨rfl, Or.inr ⟨rfl, hl⟩⟩⟩

/-- The bytes of a smaller character come first, whatever follows. -/
theorem append_encode_lt {c d : Char} (h : c < d) (xs ys : List UInt8) :
    String.utf8EncodeChar c ++ xs < String.utf8EncodeChar d ++ ys := by
  have hv : c.val.toNat < d.val.toNat := by
    simpa [Char.lt_def, UInt32.lt_iff_toNat_lt] using h
  have hd : d.val.toNat < 0x110000 := by
    have := d.valid
    simp only [UInt32.isValidChar, Nat.isValidChar] at this
    omega
  have hp := places_lt hv
  unfold String.utf8EncodeChar
  generalize c.val.toNat = v at *
  generalize d.val.toNat = w at *
  -- Encodings of different lengths differ in their first byte, those of one length in a place.
  dsimp only
  split_ifs <;>
    simp (disch := omega) only [List.cons_append, List.nil_append, List.cons_lt_cons_iff,
      UInt8.lt_iff_toNat_lt, ← UInt8.toNat_inj, UInt8.toNat_ofNat', Nat.mod_eq_of_lt] <;>
    omega

theorem flatMap_encode_lt {cs ds : List Char} (h : cs < ds) :
    cs.flatMap String.utf8EncodeChar < ds.flatMap String.utf8EncodeChar := by
  induction cs generalizing ds with
  | nil =>
    cases ds with
    | nil => exact absurd h (List.lt_irrefl _)
    | cons d ds =>
      rw [List.flatMap_nil, List.flatMap_cons]
      cases hd : String.utf8EncodeChar d with
      | nil => exact absurd hd String.utf8EncodeChar_ne_nil
      | cons b bs => exact List.nil_lt_cons _ _
  | cons c cs ih =>
    cases ds with
    | nil => exact absurd h (List.not_lt_nil _)
    | cons d ds =>
      rw [List.flatMap_cons, List.flatMap_cons]
      rcases List.cons_lt_cons_iff.mp h with hc | ⟨rfl, hcs⟩
      · exact append_encode_lt hc _ _
      · exact List.append_left_lt (ih hcs)

/-- Names are in the order of their bytes. -/
theorem utf8Bytes_lt_iff {a b : String} : utf8Bytes a < utf8Bytes b ↔ a < b := by
  have mono {a b : String} (h : a < b) : utf8Bytes a < utf8Bytes b := by
    rw [utf8Bytes_eq_flatMap, utf8Bytes_eq_flatMap]
    exact flatMap_encode_lt (String.lt_iff.mp h)
  refine ⟨fun h => Decidable.byContradiction fun hn => ?_, mono⟩
  by_cases hba : b < a
  · exact List.lt_asymm h (mono hba)
  · obtain rfl := String.le_antisymm (String.not_lt.mp hba) (String.not_lt.mp hn)
    exact List.lt_irrefl _ h

theorem utf8Bytes_le_iff {a b : String} : utf8Bytes a ≤ utf8Bytes b ↔ a ≤ b := by
  rw [← List.not_lt, utf8Bytes_lt_iff, String.not_lt]

/-! ## Sorting -/

section Sorting

variable {α : Type} {name : α → String}

/-- `ys` is `xs` in the byte order of names, equal names in the order of `xs`. -/
structure ByName (name : α → String) (xs ys : List α) : Prop where
  perm : ys.Perm xs
  ordered : ys.Pairwise fun a b => utf8Bytes (name a) ≤ utf8Bytes (name b)
  stable : ∀ n, ys.filter (name · = n) = xs.filter (name · = n)

theorem ByName.filter {xs ys : List α} (h : ByName name xs ys) (p : α → Bool) :
    ByName name (xs.filter p) (ys.filter p) where
  perm := h.perm.filter p
  ordered := h.ordered.filter p
  stable n := by
    rw [List.filter_filter, List.filter_filter]
    simp only [Bool.and_comm _ (p _)]
    rw [← List.filter_filter, ← List.filter_filter, h.stable]

theorem perm_insertByName (x : α) (ys : List α) : (insertByName name x ys).Perm (x :: ys) := by
  induction ys with
  | nil => exact .refl _
  | cons y ys ih =>
    rw [insertByName]
    split
    · exact .refl _
    · exact (ih.cons y).trans (.swap x y ys)

theorem pairwise_insertByName (x : α) {ys : List α} (h : ys.Pairwise fun a b => name a ≤ name b) :
    (insertByName name x ys).Pairwise fun a b => name a ≤ name b := by
  induction ys with
  | nil => simp [insertByName]
  | cons y ys ih =>
    obtain ⟨hy, hys⟩ := List.pairwise_cons.mp h
    rw [insertByName]
    split
    case isTrue hxy =>
      refine List.pairwise_cons.mpr ⟨fun z hz => ?_, h⟩
      rcases List.mem_cons.mp hz with rfl | hz
      · exact hxy
      · exact String.le_trans hxy (hy z hz)
    case isFalse hxy =>
      refine List.pairwise_cons.mpr ⟨fun z hz => ?_, ih hys⟩
      rcases List.mem_cons.mp ((perm_insertByName x ys).mem_iff.mp hz) with rfl | hz
      · exact (String.le_total (name y) (name z)).resolve_right hxy
      · exact hy z hz

/-- An element goes in front of those that share its name. -/
theorem filter_insertByName (n : String) (x : α) (ys : List α) :
    (insertByName name x ys).filter (name · = n) = (x :: ys).filter (name · = n) := by
  induction ys with
  | nil => rfl
  | cons y ys ih =>
    rw [insertByName]
    split
    · rfl
    case isFalse hxy =>
      have hne : name y ≠ name x := fun he => hxy (he ▸ String.le_refl _)
      simp only [List.filter_cons, ih]
      by_cases hx : name x = n
      · simp [hx, hx ▸ hne]
      · simp [hx]

/-- Sorting gives the elements in the byte order of their names, equal names as they were. -/
theorem byName_sortByName (name : α → String) (xs : List α) :
    ByName name xs (sortByName name xs) := by
  induction xs with
  | nil => exact ⟨.refl _, .nil, fun _ => rfl⟩
  | cons x xs ih =>
    refine ⟨(perm_insertByName x _).trans (ih.perm.cons x), ?_, fun n => ?_⟩
    · have h := ih.ordered
      simp only [utf8Bytes_le_iff] at h ⊢
      exact pairwise_insertByName x h
    · have hs : sortByName name (x :: xs) = insertByName name x (sortByName name xs) := rfl
      rw [hs, filter_insertByName, List.filter_cons, List.filter_cons, ih.stable]

end Sorting

/-- Names in order, none twice in a row, are in strict order. -/
theorem pairwise_lt_of_duplicate? {ns : List String} (hs : ns.Pairwise (· ≤ ·))
    (h : duplicate? ns = none) : ns.Pairwise (· < ·) := by
  induction ns with
  | nil => exact .nil
  | cons a ns ih =>
    obtain ⟨ha, hns⟩ := List.pairwise_cons.mp hs
    cases ns with
    | nil => simp
    | cons b rest =>
      rw [duplicate?] at h
      split at h
      · simp at h
      case isFalse hab =>
        have hrest := ih hns h
        have hlt : a < b := by
          rw [← String.not_le]
          exact fun hba => hab (String.le_antisymm (ha b (by simp)) hba)
        refine List.pairwise_cons.mpr ⟨fun c hc => ?_, hrest⟩
        rcases List.mem_cons.mp hc with rfl | hc
        · exact hlt
        · exact String.lt_trans hlt ((List.pairwise_cons.mp hrest).1 c hc)

theorem nodup_of_duplicate? {ns : List String} (hs : ns.Pairwise (· ≤ ·))
    (h : duplicate? ns = none) : ns.Nodup := by
  refine (pairwise_lt_of_duplicate? hs h).imp fun {a b} hlt => ?_
  rintro rfl
  exact String.lt_irrefl a hlt

/-- A name that stands in a list more than once, the first such name in the order of bytes. -/
def FirstRepeated (n : String) (ns : List String) : Prop :=
  1 < ns.count n ∧ ∀ m, 1 < ns.count m → utf8Bytes n ≤ utf8Bytes m

theorem FirstRepeated.unique {m n : String} {ns : List String} (hm : FirstRepeated m ns)
    (hn : FirstRepeated n ns) : m = n :=
  String.le_antisymm (utf8Bytes_le_iff.mp (hm.2 n hn.1)) (utf8Bytes_le_iff.mp (hn.2 m hm.1))

theorem FirstRepeated.perm {n : String} {ns ms : List String} (h : FirstRepeated n ns)
    (hp : ns.Perm ms) : FirstRepeated n ms := by
  simpa only [FirstRepeated, hp.count_eq] using h

theorem FirstRepeated.not_nodup {n : String} {ns : List String} (h : FirstRepeated n ns) :
    ¬ ns.Nodup := fun hn => Nat.not_le_of_lt h.1 (List.nodup_iff_count_le_one.mp hn n)

/-- In order, the first name that stands twice in a row is the first one that is repeated. -/
theorem firstRepeated_of_duplicate? {n : String} {ns : List String} (hs : ns.Pairwise (· ≤ ·))
    (h : duplicate? ns = some n) : FirstRepeated n ns := by
  induction ns with
  | nil => simp [duplicate?] at h
  | cons a ns ih =>
    obtain ⟨ha, hns⟩ := List.pairwise_cons.mp hs
    cases ns with
    | nil => simp [duplicate?] at h
    | cons b rest =>
      rw [duplicate?] at h
      split at h
      case isTrue hab =>
        subst hab
        obtain rfl := Option.some.inj h
        refine ⟨by simp, fun m hm => utf8Bytes_le_iff.mpr ?_⟩
        rcases List.mem_cons.mp (List.count_pos_iff.mp (Nat.zero_lt_of_lt hm)) with rfl | hm
        · exact String.le_refl _
        · exact ha m hm
      case isFalse hab =>
        obtain ⟨hn, hmin⟩ := ih hns h
        -- The first name is below all others, so it is not repeated.
        have hfirst : a ∉ b :: rest := by
          intro hmem
          have hba : b ≤ a := by
            rcases List.mem_cons.mp hmem with rfl | hmem
            · exact String.le_refl _
            · exact (List.pairwise_cons.mp hns).1 a hmem
          exact hab (String.le_antisymm (ha b List.mem_cons_self) hba)
        have hcount (m : String) (hm : 1 < (a :: b :: rest).count m) :
            1 < (b :: rest).count m := by
          by_cases hma : a = m
          · rw [hma, List.count_cons_self, List.count_eq_zero.mpr (hma ▸ hfirst)] at hm
            omega
          · rwa [List.count_cons_of_ne hma] at hm
        refine ⟨Nat.lt_of_lt_of_le hn (List.count_le_count_cons), fun m hm => ?_⟩
        exact hmin m (hcount m hm)

section Permutations

variable {α : Type} {name : α → String} {xs ys : List α}

theorem pairwise_sortByName (name : α → String) (xs : List α) :
    (sortByName name xs).Pairwise fun a b => name a ≤ name b := by
  simpa only [utf8Bytes_le_iff] using (byName_sortByName name xs).ordered

theorem perm_sortByName_of_perm (h : xs.Perm ys) :
    (sortByName name xs).Perm (sortByName name ys) :=
  ((byName_sortByName name xs).perm.trans h).trans (byName_sortByName name ys).perm.symm

/-- The sorted names do not depend on the order in which they came. -/
theorem map_sortByName_of_perm (h : xs.Perm ys) :
    (sortByName name xs).map name = (sortByName name ys).map name :=
  List.Perm.eq_of_pairwise (fun _ _ _ _ => String.le_antisymm)
    (List.pairwise_map.mpr (pairwise_sortByName name xs))
    (List.pairwise_map.mpr (pairwise_sortByName name ys)) ((perm_sortByName_of_perm h).map name)

/-- When no name stands twice, neither does the sorted list. -/
theorem sortByName_eq_of_perm (h : xs.Perm ys)
    (hd : duplicate? ((sortByName name xs).map name) = none) :
    sortByName name xs = sortByName name ys := by
  have hperm : (sortByName name xs).Perm (sortByName name ys) := perm_sortByName_of_perm h
  have hnodup := nodup_of_duplicate? (List.pairwise_map.mpr (pairwise_sortByName name xs)) hd
  refine List.Perm.eq_of_pairwise (fun a b ha hb hab hba => ?_) (pairwise_sortByName name xs)
    (pairwise_sortByName name ys) hperm
  exact List.inj_on_of_nodup_map hnodup ha (hperm.mem_iff.mpr hb) (String.le_antisymm hab hba)

/-- No name stands twice in a row among the sorted ones when no name is repeated. -/
theorem duplicate?_sortByName_eq_none :
    duplicate? ((sortByName name xs).map name) = none ↔ (xs.map name).Nodup := by
  have hs := List.pairwise_map.mpr (pairwise_sortByName name xs)
  have hp : ((sortByName name xs).map name).Perm (xs.map name) :=
    (byName_sortByName name xs).perm.map name
  rw [← hp.nodup_iff]
  refine ⟨nodup_of_duplicate? hs, fun h => ?_⟩
  cases hd : duplicate? ((sortByName name xs).map name) with
  | none => rfl
  | some n => exact absurd h (firstRepeated_of_duplicate? hs hd).not_nodup

/-- The first name that stands twice in a row among the sorted ones is the first one that is
repeated. -/
theorem duplicate?_sortByName_eq_some {n : String} :
    duplicate? ((sortByName name xs).map name) = some n ↔ FirstRepeated n (xs.map name) := by
  have hs := List.pairwise_map.mpr (pairwise_sortByName name xs)
  have hp : ((sortByName name xs).map name).Perm (xs.map name) :=
    (byName_sortByName name xs).perm.map name
  have hfirst (m : String) (hm : duplicate? ((sortByName name xs).map name) = some m) :
      FirstRepeated m (xs.map name) := (firstRepeated_of_duplicate? hs hm).perm hp
  refine ⟨hfirst n, fun h => ?_⟩
  cases hd : duplicate? ((sortByName name xs).map name) with
  | none => exact absurd (duplicate?_sortByName_eq_none.mp hd) h.not_nodup
  | some m => rw [(hfirst m hd).unique h]

end Permutations

end SodiumDecl
