import Mathlib.Data.List.DropRight
import SodiumDecl.Version

/-!
# The order of versions

The order of versions compares components as text and pads the shorter version with zeros, to a
length that depends on the other one. Padding both sides further changes nothing
(`compare_rightpad`), so any three versions can be compared at one width, and the order of component
lists is a total preorder (the instance of `Std.TransCmp`). What it does not tell apart is zeros at
the end (`comparePadded_eq_iff`).

`compare?_preorder` is the result for texts: there is an order between two of them when both are
well-formed, and there it is a total preorder, in which versions are equal up to zero components at
the end.
-/

namespace SodiumDecl.Version

/-! ## Padding -/

/-- What two lists of one length have in common at their ends does not count. -/
theorem compare_append_right {α : Type} [Ord α] [Std.ReflOrd α] :
    ∀ {as bs : List α} (cs : List α), as.length = bs.length →
      compare (as ++ cs) (bs ++ cs) = compare as bs
  | [], [], cs, _ => by
    rw [List.nil_append, Std.ReflOrd.compare_self, Std.ReflOrd.compare_self]
  | a :: as, b :: bs, cs, h => by
    rw [List.cons_append, List.cons_append, List.compare_cons_cons, List.compare_cons_cons,
      compare_append_right cs (Nat.succ.inj h)]

theorem rightpad_rightpad {α : Type} {n m : Nat} (a : α) {as : List α} (hl : as.length ≤ n)
    (h : n ≤ m) : as.rightpad m a = as.rightpad n a ++ List.replicate (m - n) a := by
  rw [List.rightpad, List.rightpad, List.append_assoc, List.replicate_append_replicate]
  congr 2
  omega

/-- Padding further changes no order. -/
theorem compare_rightpad {as bs : List (List Char)} {n : Nat} (ha : as.length ≤ n)
    (hb : bs.length ≤ n) :
    compare (as.rightpad n ['0']) (bs.rightpad n ['0']) = comparePadded as bs := by
  have hw : max as.length bs.length ≤ n := Nat.max_le.mpr ⟨ha, hb⟩
  rw [rightpad_rightpad _ (Nat.le_max_left _ _) hw, rightpad_rightpad _ (Nat.le_max_right _ _) hw,
    compare_append_right _ (by simp only [List.length_rightpad]; omega)]
  rfl

/-- The order of component lists is a total preorder: of three lists, all can be padded to one
length. -/
instance : Std.TransCmp comparePadded where
  eq_swap {as bs} := by
    have ha : as.length ≤ max as.length bs.length := Nat.le_max_left _ _
    have hb : bs.length ≤ max as.length bs.length := Nat.le_max_right _ _
    rw [← compare_rightpad ha hb, ← compare_rightpad hb ha]
    exact Std.OrientedCmp.eq_swap
  isLE_trans {as bs cs} h h' := by
    let n := max as.length (max bs.length cs.length)
    have ha : as.length ≤ n := by omega
    have hb : bs.length ≤ n := by omega
    have hc : cs.length ≤ n := by omega
    rw [← compare_rightpad ha hb] at h
    rw [← compare_rightpad hb hc] at h'
    rw [← compare_rightpad ha hc]
    exact Std.TransCmp.isLE_trans h h'

/-! ## Zeros at the end -/

/-- A list of components without the zeros at its end. -/
def significant (as : List (List Char)) : List (List Char) := as.rdropWhile (· == ['0'])

theorem significant_append_zeros (as : List (List Char)) (n : Nat) :
    significant (as ++ List.replicate n ['0']) = significant as := by
  induction n with
  | zero => rw [List.replicate_zero, List.append_nil]
  | succ n ih =>
    rw [List.replicate_succ', ← List.append_assoc, significant,
      List.rdropWhile_concat_pos _ _ _ (by simp), ← significant, ih]

/-- What is not significant are zeros. -/
theorem rightpad_significant_length (as : List (List Char)) :
    (significant as).rightpad as.length ['0'] = as := by
  have hcut : significant as ++ as.rtakeWhile (· == ['0']) = as := List.rdropWhile_append_rtakeWhile
  have hzeros : as.rtakeWhile (· == ['0']) =
      List.replicate (as.rtakeWhile (· == ['0'])).length ['0'] :=
    List.eq_replicate_iff.mpr ⟨rfl, fun a ha => by simpa using List.mem_rtakeWhile_imp ha⟩
  have hlength : as.length - (significant as).length = (as.rtakeWhile (· == ['0'])).length := by
    rw [← congrArg List.length hcut, List.length_append, Nat.add_sub_cancel_left]
  rw [List.rightpad, hlength, ← hzeros, hcut]

theorem rightpad_significant {as : List (List Char)} {n : Nat} (h : as.length ≤ n) :
    (significant as).rightpad n ['0'] = as.rightpad n ['0'] := by
  have hprefix : (significant as).length ≤ as.length := (List.rdropWhile_prefix _ as).length_le
  rw [rightpad_rightpad _ hprefix h, rightpad_significant_length, List.rightpad]

/-- Lists that are padded to the same list differ in zeros at the end. -/
theorem rightpad_inj {as bs : List (List Char)} {n : Nat} (ha : as.length ≤ n)
    (hb : bs.length ≤ n) :
    as.rightpad n ['0'] = bs.rightpad n ['0'] ↔ significant as = significant bs := by
  constructor
  · intro h
    have hs := congrArg significant h
    rwa [List.rightpad, List.rightpad, significant_append_zeros, significant_append_zeros] at hs
  · intro h
    rw [← rightpad_significant ha, ← rightpad_significant hb, h]

/-- The order does not tell zeros at the end apart, and nothing else. -/
theorem comparePadded_eq_iff {as bs : List (List Char)} :
    comparePadded as bs = .eq ↔ significant as = significant bs := by
  rw [← rightpad_inj (Nat.le_max_left as.length bs.length) (Nat.le_max_right _ _)]
  exact Std.compare_eq_iff_eq

/-! ## Versions -/

section Versions

variable {a b c : String}

theorem compare?_eq_none_iff :
    compare? a b = none ↔ isWellFormed a = false ∨ isWellFormed b = false := by
  rw [compare?, ite_eq_right_iff, Bool.and_eq_true]
  simp only [reduceCtorEq, imp_false, not_and_or, Bool.not_eq_true]

theorem compare?_eq (ha : isWellFormed a = true) (hb : isWellFormed b = true) :
    compare? a b = some (comparePadded (components a) (components b)) := by
  simp [compare?, ha, hb]

theorem wellFormed_of_compare? {o : Ordering} (h : compare? a b = some o) :
    isWellFormed a = true ∧ isWellFormed b = true := by
  rw [compare?, Option.ite_none_right_eq_some, Bool.and_eq_true] at h
  exact h.1

theorem compare?_self (ha : isWellFormed a = true) : compare? a a = some .eq := by
  rw [compare?_eq ha ha]
  exact congrArg some Std.ReflCmp.compare_self

theorem compare?_swap (a b : String) : compare? b a = (compare? a b).map Ordering.swap := by
  rw [compare?, compare?, Bool.and_comm]
  split
  · exact congrArg some Std.OrientedCmp.eq_swap
  · rfl

theorem compare?_trans (ha : isWellFormed a = true) (hb : isWellFormed b = true)
    (hc : isWellFormed c = true) (h : compare? a b ≠ some .gt) (h' : compare? b c ≠ some .gt) :
    compare? a c ≠ some .gt ∧
      (compare? a b = some .lt ∨ compare? b c = some .lt → compare? a c = some .lt) := by
  rw [compare?_eq ha hb, ne_eq, Option.some_inj] at h
  rw [compare?_eq hb hc, ne_eq, Option.some_inj] at h'
  rw [compare?_eq ha hb, compare?_eq hb hc, compare?_eq ha hc]
  simp only [ne_eq, Option.some_inj]
  have hle : (comparePadded (components a) (components b)).isLE := Ordering.isLE_iff_ne_gt.mpr h
  have hle' : (comparePadded (components b) (components c)).isLE := Ordering.isLE_iff_ne_gt.mpr h'
  refine ⟨Ordering.isLE_iff_ne_gt.mp (Std.TransCmp.isLE_trans hle hle'), ?_⟩
  rintro (hlt | hlt)
  · exact Std.TransCmp.lt_of_lt_of_isLE hlt hle'
  · exact Std.TransCmp.lt_of_isLE_of_lt hle hlt

theorem compare?_eq_some_eq_iff (ha : isWellFormed a = true) (hb : isWellFormed b = true) :
    compare? a b = some .eq ↔ significant (components a) = significant (components b) := by
  rw [compare?_eq ha hb, Option.some_inj, comparePadded_eq_iff]

end Versions

/-- Between two texts there is an order when both are well-formed. On well-formed texts it is a
total preorder, and two of them are equal in it when their components are, but for zeros at the
end. -/
theorem compare?_preorder (a b c : String) :
    (compare? a b = none ↔ isWellFormed a = false ∨ isWellFormed b = false) ∧
      (isWellFormed a = true → compare? a a = some .eq) ∧
      compare? b a = (compare? a b).map Ordering.swap ∧
      (isWellFormed a = true → isWellFormed b = true → isWellFormed c = true →
        compare? a b ≠ some .gt → compare? b c ≠ some .gt →
          compare? a c ≠ some .gt ∧
            (compare? a b = some .lt ∨ compare? b c = some .lt → compare? a c = some .lt)) ∧
      (isWellFormed a = true → isWellFormed b = true →
        (compare? a b = some .eq ↔ significant (components a) = significant (components b))) :=
  ⟨compare?_eq_none_iff, compare?_self, compare?_swap a b, compare?_trans,
    compare?_eq_some_eq_iff⟩

end SodiumDecl.Version
