import SodiumDecl.Proofs.Gate

/-!
# The language of versions

`Dotted ps v` says how a version is written: it has components, at least one, each of them a run of
the digits `0` to `9`, and a dot between one and the next. No component has a dot in it, so
splitting at the dots gives back what was put together, and a text is written in one way at most
(`Dotted.components_eq`). The texts whose pieces pass the test are those that are written so
(`mem_language_iff`).

`Verdict v minimum r` says what the gate answers, by cause. What it answers always has a cause
(`verdict_check`), and where there is a cause, it answers so (`Verdict.check_eq`).
`accepts_language` is the result.
-/

namespace SodiumDecl.Version

variable {v minimum : String} {ps : List (List Char)}

/-! ## Components with dots between them -/

/-- The digits of components. -/
def digits : List Char := ['0', '1', '2', '3', '4', '5', '6', '7', '8', '9']

/-- A run of digits, which is not empty. -/
structure IsNumeral (p : List Char) : Prop where
  ne_nil : p ≠ []
  mem_digits : ∀ c ∈ p, c ∈ digits

/-- A version is written as numerals, at least one, with dots between them. -/
structure Dotted (ps : List (List Char)) (v : String) : Prop where
  ne_nil : ps ≠ []
  numerals : ∀ p ∈ ps, IsNumeral p
  joined : v.toList = ['.'].intercalate ps

/-- The texts that are versions. -/
def language : Set String := {v | ∃ ps, Dotted ps v}

theorem isDigit_iff {c : Char} : c.isDigit = true ↔ c ∈ digits := by
  constructor
  · intro h
    obtain ⟨hge, hle⟩ := Char.isDigit_iff_toNat.mp h
    have hcode : ∀ n ≤ '9'.toNat, '0'.toNat ≤ n → Char.ofNat n ∈ digits := by decide
    rw [← Char.ofNat_toNat c]
    exact hcode c.toNat hle hge
  · have hdigits : ∀ d ∈ digits, d.isDigit = true := by simp [digits]
    exact hdigits c

theorem isComponent_iff {p : List Char} : isComponent p = true ↔ IsNumeral p := by
  rw [isComponent, Bool.and_eq_true, List.all_eq_true, Bool.not_eq_true', List.isEmpty_eq_false_iff]
  constructor
  · rintro ⟨hne, h⟩
    exact ⟨hne, fun c hc => isDigit_iff.mp (h c hc)⟩
  · rintro ⟨hne, h⟩
    exact ⟨hne, fun c hc => isDigit_iff.mpr (h c hc)⟩

theorem dotted_components (h : isWellFormed v = true) : Dotted (components v) v where
  ne_nil := List.splitOn_ne_nil _ _
  numerals p hp := isComponent_iff.mp (List.all_eq_true.mp h p hp)
  joined := (List.intercalate_splitOn '.').symm

/-- Splitting gives back what was put together, for no numeral has a dot. -/
theorem Dotted.components_eq (h : Dotted ps v) : components v = ps := by
  have hfree : ∀ p ∈ ps, '.' ∉ p := fun p hp hdot =>
    absurd ((h.numerals p hp).mem_digits '.' hdot) (by decide)
  rw [components, h.joined, List.splitOn_intercalate '.' hfree h.ne_nil]

/-- A well-formed text is written in one way, with its components, and any other text in none. -/
theorem dotted_iff : Dotted ps v ↔ isWellFormed v = true ∧ components v = ps := by
  constructor
  · intro h
    refine ⟨?_, h.components_eq⟩
    rw [isWellFormed, h.components_eq, List.all_eq_true]
    exact fun p hp => isComponent_iff.mpr (h.numerals p hp)
  · rintro ⟨h, rfl⟩
    exact dotted_components h

theorem mem_language_iff : v ∈ language ↔ isWellFormed v = true := by
  constructor
  · rintro ⟨ps, h⟩
    exact (dotted_iff.mp h).1
  · intro h
    exact ⟨components v, dotted_components h⟩

theorem not_mem_language_iff : v ∉ language ↔ isWellFormed v = false := by
  rw [mem_language_iff, Bool.not_eq_true]

instance : DecidablePred (· ∈ language) := fun _ => decidable_of_iff _ mem_language_iff.symm

/-- The order of two versions is that of the components with which they are written. -/
theorem compare?_eq_some_iff {o : Ordering} : compare? v minimum = some o ↔
    ∃ ps qs, Dotted ps v ∧ Dotted qs minimum ∧ comparePadded ps qs = o := by
  constructor
  · intro h
    obtain ⟨hv, hm⟩ := wellFormed_of_compare? h
    rw [compare?_eq hv hm, Option.some_inj] at h
    exact ⟨components v, components minimum, dotted_components hv, dotted_components hm, h⟩
  · rintro ⟨ps, qs, hv, hm, rfl⟩
    rw [compare?_eq (dotted_iff.mp hv).1 (dotted_iff.mp hm).1, hv.components_eq, hm.components_eq]

/-! ## Characters that are in no version -/

/-- White space, line breaks among it. -/
def whiteSpace : List Char :=
  (List.range' 0x09 5 ++ [0x20, 0x85, 0xA0, 0x1680] ++ List.range' 0x2000 11 ++
    [0x2028, 0x2029, 0x202F, 0x205F, 0x3000]).map Char.ofNat

/-- The characters that mean something in a path, in the template of an address or between the lines
and words of a title. -/
def reserved : List Char := ['/', '\\', '\x7b', '\x7d'] ++ whiteSpace

theorem not_mem_reserved (h : v ∈ language) {c : Char} (hc : c ∈ v.toList) : c ∉ reserved := by
  have hdigits : ∀ d ∈ digits, d ∉ reserved := by
    simp [digits, reserved, whiteSpace, List.range']
  rcases isDigit_or_dot (mem_language_iff.mp h) hc with hdigit | rfl
  · exact hdigits c (isDigit_iff.mp hdigit)
  · decide

/-! ## Verdicts -/

/-- What the gate answers. The version is looked at first, then the minimum, and the order last. -/
inductive Verdict (v minimum : String) : Except VersionError Unit → Prop
  | malformed (hv : v ∉ language) : Verdict v minimum (.error (.malformed v))
  | malformedMinimum (hv : v ∈ language) (hm : minimum ∉ language) :
    Verdict v minimum (.error (.malformed minimum))
  | belowMinimum (hv : v ∈ language) (hm : minimum ∈ language)
    (h : compare? v minimum = some .lt) : Verdict v minimum (.error (.belowMinimum v minimum))
  | accepted (hv : v ∈ language) (hm : minimum ∈ language)
    (h : compare? v minimum ≠ some .lt) : Verdict v minimum (.ok ())

theorem verdict_check (v minimum : String) : Verdict v minimum (check v minimum) := by
  unfold check
  cases ho : compare? v minimum with
  | none =>
    cases hv : isWellFormed v with
    | false => exact .malformed (not_mem_language_iff.mpr hv)
    | true =>
      have hm : isWellFormed minimum = false :=
        (compare?_eq_none_iff.mp ho).resolve_left (by simp [hv])
      exact .malformedMinimum (mem_language_iff.mpr hv) (not_mem_language_iff.mpr hm)
  | some o =>
    obtain ⟨hv, hm⟩ := wellFormed_of_compare? ho
    rw [← mem_language_iff] at hv hm
    cases o with
    | lt => exact .belowMinimum hv hm ho
    | eq => exact .accepted hv hm (by simp [ho])
    | gt => exact .accepted hv hm (by simp [ho])

theorem Verdict.check_eq {r : Except VersionError Unit} (h : Verdict v minimum r) :
    check v minimum = r := by
  cases h with
  | malformed hv =>
    have hw : isWellFormed v = false := not_mem_language_iff.mp hv
    rw [check, compare?_eq_none_iff.mpr (Or.inl hw), hw]
    rfl
  | malformedMinimum hv hm =>
    have hw : isWellFormed v = true := mem_language_iff.mp hv
    rw [check, compare?_eq_none_iff.mpr (Or.inr (not_mem_language_iff.mp hm)), hw]
    rfl
  | belowMinimum _ _ h => rw [check, h]
  | accepted hv hm h =>
    exact check_eq_ok.mpr ⟨mem_language_iff.mp hv, mem_language_iff.mp hm, h⟩

theorem check_eq_iff {r : Except VersionError Unit} :
    check v minimum = r ↔ Verdict v minimum r := by
  constructor
  · rintro rfl
    exact verdict_check v minimum
  · exact Verdict.check_eq

/-- A text is well-formed exactly if it is a version, that is if it is written as numerals with dots
between them. There is one way to write it so, and the components that are compared are these
numerals.

The gate refuses what is no version and quotes it, looking at the minimum only if the version is
one. Otherwise it refuses a version that is below the minimum and quotes both, and accepts it if it
is not. In a version that it accepts there is no separator of paths, no brace, no white space and no
line break. -/
theorem accepts_language (v minimum : String) :
    (isWellFormed v = true ↔ v ∈ language) ∧
      (∀ ps, Dotted ps v ↔ isWellFormed v = true ∧ components v = ps) ∧
      (∀ o, compare? v minimum = some o ↔
        ∃ ps qs, Dotted ps v ∧ Dotted qs minimum ∧ comparePadded ps qs = o) ∧
      (∀ r, check v minimum = r ↔ Verdict v minimum r) ∧
      (check v minimum = .ok () → ∀ c ∈ v.toList, c ∉ reserved) := by
  refine ⟨mem_language_iff.symm, fun ps => dotted_iff, fun o => compare?_eq_some_iff,
    fun r => check_eq_iff, fun h c hc => ?_⟩
  exact not_mem_reserved (mem_language_iff.mpr (check_eq_ok.mp h).wellFormed) hc

example : "0.7.10" ∈ language ∧
    ∀ v ∈ ["", ".", "1.", ".1", "1..0", "-1.0", "1.0-beta", "1.0\n", "\u0661.0"], v ∉ language := by
  decide +kernel

/-- The version is looked at first. -/
example : check "1..0" "latest" = .error (.malformed "1..0") ∧
    check "0.8" "latest" = .error (.malformed "latest") ∧
    check "0.7.10" "0.7.3" = .error (.belowMinimum "0.7.10" "0.7.3") ∧
    check "0.8" "0.7.3" = .ok () := by
  decide +kernel

end SodiumDecl.Version
