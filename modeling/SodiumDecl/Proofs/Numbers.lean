import Mathlib.Algebra.Group.Nat.Defs
import SodiumDecl.Proofs.Precedence

/-!
# Components as numbers

Components are compared as text. Among runs of as many digits this is the order of the numbers that
they denote (`compare_number`), so versions are ordered like their numbers where the components in
which they first differ have as many digits (`compare_map_number`). Between `1.9` and `1.10` they
are not.

To be equal takes less. Without a leading zero a component is the decimal text of its number
(`toDigits_number`), so such versions are equal when their numbers are. `compare?_numbers` has both
halves.
-/

namespace SodiumDecl.Version

/-- The number that a run of digits denotes. -/
def number (p : List Char) : Nat := Nat.ofDigitChars 10 p 0

/-! ## Runs of as many digits -/

theorem number_cons (c : Char) (p : List Char) :
    number (c :: p) = 10 ^ p.length * (c.toNat - '0'.toNat) + number p := by
  rw [number, Nat.ofDigitChars_cons, Nat.ofDigitChars_eq_ofDigitChars_zero, Nat.mul_zero,
    Nat.zero_add]
  rfl

theorem digit_lt {c : Char} (h : c.isDigit = true) : c.toNat - '0'.toNat < 10 := by
  have hc := (Char.isDigit_iff_toNat.mp h).2
  simp only [Char.reduceToNat] at hc ⊢
  omega

theorem number_lt {p : List Char} (h : ∀ c ∈ p, c.isDigit = true) : number p < 10 ^ p.length := by
  induction p with
  | nil => decide
  | cons c p ih =>
    rw [List.forall_mem_cons] at h
    have hp := ih h.2
    calc number (c :: p) = 10 ^ p.length * (c.toNat - '0'.toNat) + number p := number_cons c p
      _ < 10 ^ p.length * (c.toNat - '0'.toNat + 1) := by rw [Nat.mul_succ]; omega
      _ ≤ 10 ^ p.length * 10 := Nat.mul_le_mul_left _ (digit_lt h.1)
      _ = 10 ^ (c :: p).length := by rw [List.length_cons, Nat.pow_succ]

theorem compare_add_left (k x y : Nat) : compare (k + x) (k + y) = compare x y := by
  change compareOfLessAndEq (k + x) (k + y) = compareOfLessAndEq x y
  simp only [compareOfLessAndEq, Nat.add_lt_add_iff_left, Nat.add_left_cancel_iff]

/-- What is below the weight of a digit counts only where the digits are the same. -/
theorem compare_mul_add {w m n x y : Nat} (hx : x < w) (hy : y < w) :
    compare (w * m + x) (w * n + y) = (compare m n).then (compare x y) := by
  rcases Nat.lt_trichotomy m n with h | rfl | h
  · have hw : w * (m + 1) ≤ w * n := Nat.mul_le_mul_left w h
    rw [Nat.mul_succ] at hw
    rw [Nat.compare_eq_lt.mpr h, Nat.compare_eq_lt.mpr (by omega)]
    rfl
  · rw [compare_add_left, Nat.compare_eq_eq.mpr rfl, Ordering.eq_then]
  · have hw : w * (n + 1) ≤ w * m := Nat.mul_le_mul_left w h
    rw [Nat.mul_succ] at hw
    rw [Nat.compare_eq_gt.mpr h, Nat.compare_eq_gt.mpr (by omega)]
    rfl

theorem compare_digit {c d : Char} (hc : c.isDigit = true) (hd : d.isDigit = true) :
    compare c d = compare (c.toNat - '0'.toNat) (d.toNat - '0'.toNat) := by
  have hcode : compare c d = compare c.toNat d.toNat := by
    change compareOfLessAndEq c d = compareOfLessAndEq c.toNat d.toNat
    simp only [compareOfLessAndEq, Char.toNat_inj]
    rfl
  rw [hcode, ← compare_add_left '0'.toNat (c.toNat - '0'.toNat),
    Nat.add_sub_cancel' (Char.isDigit_iff_toNat.mp hc).1,
    Nat.add_sub_cancel' (Char.isDigit_iff_toNat.mp hd).1]

/-- Among runs of as many digits, the order of texts is that of numbers. -/
theorem compare_number : ∀ {p q : List Char}, (∀ c ∈ p, c.isDigit = true) →
    (∀ c ∈ q, c.isDigit = true) → p.length = q.length →
      compare p q = compare (number p) (number q)
  | [], [], _, _, _ => rfl
  | c :: p, d :: q, hp, hq, h => by
    rw [List.forall_mem_cons] at hp hq
    have hlength : p.length = q.length := Nat.succ.inj h
    rw [number_cons, number_cons, hlength,
      compare_mul_add (hlength ▸ number_lt hp.2) (number_lt hq.2), List.compare_cons_cons,
      compare_digit hp.1 hq.1, compare_number hp.2 hq.2 hlength]

/-! ## The first difference -/

/-- Two lists are the same, or the items in which they first differ have as many digits. -/
inductive DiffersEvenly : List (List Char) → List (List Char) → Prop
  | same (ps) : DiffersEvenly ps ps
  | here {p q} (ps qs) : p ≠ q → p.length = q.length → DiffersEvenly (p :: ps) (q :: qs)
  | later (p) {ps qs} : DiffersEvenly ps qs → DiffersEvenly (p :: ps) (p :: qs)

/-- A list of runs of digits. -/
def AreDigits (ps : List (List Char)) : Prop := ∀ p ∈ ps, ∀ c ∈ p, c.isDigit = true

theorem compare_map_number {ps qs : List (List Char)} (h : DiffersEvenly ps qs)
    (hp : AreDigits ps) (hq : AreDigits qs) :
    compare ps qs = compare (ps.map number) (qs.map number) := by
  induction h with
  | same ps => rw [Std.ReflOrd.compare_self, Std.ReflOrd.compare_self]
  | @here p q ps qs hne hlength =>
    rw [List.map_cons, List.map_cons, List.compare_cons_cons, List.compare_cons_cons,
      ← compare_number (hp p List.mem_cons_self) (hq q List.mem_cons_self) hlength]
    cases ho : compare p q with
    | lt => rfl
    | eq => exact absurd (Std.compare_eq_iff_eq.mp ho) hne
    | gt => rfl
  | later p _ ih =>
    rw [List.map_cons, List.map_cons, List.compare_cons_cons, List.compare_cons_cons,
      Std.ReflOrd.compare_self, Std.ReflOrd.compare_self,
      ih (fun x hx => hp x (List.mem_cons_of_mem _ hx)) fun x hx =>
        hq x (List.mem_cons_of_mem _ hx)]

/-! ## Leading zeros -/

/-- Only zero itself starts with a zero. -/
def Plain (p : List Char) : Prop := p.head? = some '0' → p = ['0']

instance : DecidablePred Plain := fun p =>
  inferInstanceAs (Decidable (p.head? = some '0' → p = ['0']))

theorem toDigits_digit {c : Char} (h : c.isDigit = true) :
    Nat.toDigits 10 (c.toNat - '0'.toNat) = [c] := by
  have hc := (Char.isDigit_iff_toNat.mp h).1
  rw [Nat.toDigits_of_lt_base (digit_lt h)]
  congr 1
  rw [← Char.toNat_inj, Nat.toNat_digitChar_of_lt_ten (digit_lt h)]
  simp only [Char.reduceToNat] at hc ⊢
  omega

/-- The text of a number is continued by the digits that continue the number. -/
theorem toDigits_ofDigitChars {p : List Char} (hp : ∀ c ∈ p, c.isDigit = true) {n : Nat}
    (hn : 0 < n) : Nat.toDigits 10 (Nat.ofDigitChars 10 p n) = Nat.toDigits 10 n ++ p := by
  induction p generalizing n with
  | nil => rw [Nat.ofDigitChars_nil, List.append_nil]
  | cons c p ih =>
    rw [List.forall_mem_cons] at hp
    rw [Nat.ofDigitChars_cons, ih hp.2 (by omega),
      ← Nat.toDigits_append_toDigits (by decide) hn (digit_lt hp.1), toDigits_digit hp.1,
      List.append_assoc, List.singleton_append]

/-- Without a leading zero, a component is the decimal text of its number. -/
theorem toDigits_number {p : List Char} (h : isComponent p = true) (hp : Plain p) :
    Nat.toDigits 10 (number p) = p := by
  rw [isComponent, Bool.and_eq_true, List.all_eq_true] at h
  cases p with
  | nil => exact absurd h.1 (by decide)
  | cons c p =>
    obtain ⟨hc, hdigits⟩ := List.forall_mem_cons.mp h.2
    by_cases hz : c = '0'
    · rw [hp (by rw [hz]; rfl)]
      decide
    · have hpos : 0 < c.toNat - '0'.toNat := by
        have hne : c.toNat ≠ '0'.toNat := fun h => hz (Char.toNat_inj.mp h)
        have hge := (Char.isDigit_iff_toNat.mp hc).1
        omega
      rw [number, Nat.ofDigitChars_cons, Nat.mul_zero, Nat.zero_add,
        toDigits_ofDigitChars hdigits hpos, toDigits_digit hc, List.singleton_append]

theorem map_toDigits_number {ps : List (List Char)} (h : ∀ p ∈ ps, isComponent p = true)
    (hp : ∀ p ∈ ps, Plain p) : (ps.map number).map (Nat.toDigits 10) = ps := by
  rw [List.map_map]
  calc ps.map (Nat.toDigits 10 ∘ number) = ps.map id :=
        List.map_congr_left fun p hm => toDigits_number (h p hm) (hp p hm)
    _ = ps := List.map_id ps

/-! ## Versions -/

/-- The width at which two versions are compared. -/
def width (a b : String) : Nat := max (components a).length (components b).length

/-- The components of a version, followed by zeros. -/
def padded (width : Nat) (v : String) : List (List Char) := (components v).rightpad width ['0']

/-- The components of a version as numbers, followed by zeros. -/
def numbers (width : Nat) (v : String) : List Nat :=
  ((components v).map number).rightpad width 0

theorem numbers_eq (width : Nat) (v : String) : numbers width v = (padded width v).map number := by
  rw [numbers, padded, List.rightpad, List.rightpad, List.map_append, List.map_replicate,
    List.length_map]
  rfl

theorem forall_mem_padded {P : List Char → Prop} {v : String} (h : ∀ p ∈ components v, P p)
    (hz : P ['0']) (width : Nat) : ∀ p ∈ padded width v, P p := by
  intro p hp
  rcases List.mem_append.mp hp with hp | hp
  · exact h p hp
  · rwa [List.eq_of_mem_replicate hp]

theorem isComponent_of_mem_padded {v : String} (h : isWellFormed v = true) (width : Nat) :
    ∀ p ∈ padded width v, isComponent p = true :=
  forall_mem_padded (List.all_eq_true.mp h) rfl width

theorem areDigits_padded {v : String} (h : isWellFormed v = true) (width : Nat) :
    AreDigits (padded width v) := by
  intro p hp
  have hcomponent := isComponent_of_mem_padded h width p hp
  rw [isComponent, Bool.and_eq_true, List.all_eq_true] at hcomponent
  exact hcomponent.2

/-- The order of two versions is that of their numbers, if their padded components are the same or
first differ in two with as many digits. Versions without leading zeros are equal exactly when their
numbers are. -/
theorem compare?_numbers {a b : String} (ha : isWellFormed a = true)
    (hb : isWellFormed b = true) :
    (DiffersEvenly (padded (width a b) a) (padded (width a b) b) →
        compare? a b = some (compare (numbers (width a b) a) (numbers (width a b) b))) ∧
      ((∀ p ∈ components a, Plain p) → (∀ p ∈ components b, Plain p) →
        (compare? a b = some .eq ↔ numbers (width a b) a = numbers (width a b) b)) := by
  have horder : compare? a b = some (compare (padded (width a b) a) (padded (width a b) b)) :=
    compare?_eq ha hb
  rw [horder, numbers_eq, numbers_eq]
  constructor
  · intro h
    rw [compare_map_number h (areDigits_padded ha _) (areDigits_padded hb _)]
  · intro hpa hpb
    have hzero : Plain ['0'] := fun _ => rfl
    rw [Option.some_inj, Std.compare_eq_iff_eq]
    refine ⟨congrArg (List.map number), fun h => ?_⟩
    rw [← map_toDigits_number (isComponent_of_mem_padded ha _) (forall_mem_padded hpa hzero _), h,
      map_toDigits_number (isComponent_of_mem_padded hb _) (forall_mem_padded hpb hzero _)]

/-- The first difference is between `10` and `25`, and what comes after it does not count. -/
theorem compare?_numbers_sample :
    isWellFormed "0.7.10" = true ∧ isWellFormed "0.7.25.1" = true ∧
      DiffersEvenly (padded 4 "0.7.10") (padded 4 "0.7.25.1") ∧
      (∀ p ∈ components "0.7.10", Plain p) ∧ (∀ p ∈ components "0.7.25.1", Plain p) ∧
      compare? "0.7.10" "0.7.25.1" = some (compare [0, 7, 10, 0] [0, 7, 25, 1]) ∧
      (compare? "0.7.10" "0.7.25.1" = some .eq ↔ [0, 7, 10, 0] = [0, 7, 25, 1]) := by
  have ha : isWellFormed "0.7.10" = true := by decide +kernel
  have hb : isWellFormed "0.7.25.1" = true := by decide +kernel
  have hpa : ∀ p ∈ components "0.7.10", Plain p := by decide +kernel
  have hpb : ∀ p ∈ components "0.7.25.1", Plain p := by decide +kernel
  have hd : DiffersEvenly (padded 4 "0.7.10") (padded 4 "0.7.25.1") := by
    have hl : padded 4 "0.7.10" = [['0'], ['7'], ['1', '0'], ['0']] := by decide +kernel
    have hr : padded 4 "0.7.25.1" = [['0'], ['7'], ['2', '5'], ['1']] := by decide +kernel
    rw [hl, hr]
    exact .later _ (.later _ (.here _ _ (by decide) rfl))
  have hw : width "0.7.10" "0.7.25.1" = 4 := by decide +kernel
  have hna : numbers 4 "0.7.10" = [0, 7, 10, 0] := by decide +kernel
  have hnb : numbers 4 "0.7.25.1" = [0, 7, 25, 1] := by decide +kernel
  obtain ⟨horder, hequal⟩ := compare?_numbers ha hb
  rw [hw, hna, hnb] at horder hequal
  exact ⟨ha, hb, hd, hpa, hpb, horder hd, hequal hpa hpb⟩

/-- Between components with different numbers of digits the two orders may differ. -/
example : compare? "1.9" "1.10" = some .gt ∧
    compare (numbers 2 "1.9") (numbers 2 "1.10") = .lt := by
  decide +kernel

end SodiumDecl.Version
