import Mathlib.Data.List.TakeWhile
import Mathlib.Tactic.SplitIfs
import SodiumDecl.Json.Value

/-!
# Scanning what was written

`Scans cs ts` says that the characters `cs`, met between two tokens, are the tokens `ts`. A
number is a token only once something that is not part of a number follows it, so the
scanner is compared after `Scanner.settled`, which ends a number in progress. Pieces of a
text can be put together where the later one does not go on with a number (`Scans.append`).

The text of a string scans as the string, whatever characters it has (`scans_stringText`):
each character is read back from its escape (`foldl_escape`). The text of an integer scans as
a number (`scans_integerText`) whose value is the integer if it fits 64 bits
(`integer?_integerLiteral`), as every integer does that is read (`fitsWord_of_number?`).
-/

namespace SodiumDecl.Json

namespace Scanner

/-- The scanner once a number in progress has ended. -/
def settled (s : Scanner) : Scanner :=
  match s.mode with
  | .number read => s.endNumber read
  | _ => s

@[simp] theorem settled_between (ts : List Token) :
    settled ⟨.between, ts⟩ = ⟨.between, ts⟩ := rfl

theorem mode_endNumber (s : Scanner) (read : List Char) :
    (s.endNumber read).mode = .between ∨ (s.endNumber read).mode = .stopped := by
  unfold endNumber
  split
  · exact Or.inl rfl
  · exact Or.inr rfl

/-- A character that is no part of a number may be read after the number has ended. -/
theorem step_settled (s : Scanner) {c : Char} (hc : isNumberChar c = false) :
    s.settled.step c = s.step c := by
  obtain ⟨mode, ts⟩ := s
  cases mode with
  | number read =>
    simp only [settled, step, hc, Bool.false_eq_true, if_false]
    rcases mode_endNumber ⟨.number read, ts⟩ read with h | h <;> simp [h]
  | _ => rfl

theorem finish_settled (s : Scanner) : s.settled.finish = s.finish := by
  obtain ⟨mode, ts⟩ := s
  cases mode with
  | number read =>
    simp only [settled, finish]
    rcases mode_endNumber ⟨.number read, ts⟩ read with h | h <;> simp [h]
  | _ => rfl

end Scanner

open Scanner

/-- The characters `cs` are the tokens `ts`, whatever tokens stand before them. -/
def Scans (cs : List Char) (ts : List Token) : Prop :=
  ∀ before, (cs.foldl step ⟨.between, before⟩).settled = ⟨.between, ts.reverse ++ before⟩

theorem scans_nil : Scans [] [] := fun _ => rfl

namespace Scans

theorem tokens_eq {cs : List Char} {ts : List Token} (h : Scans cs ts) : tokens cs = ts := by
  have hs := h []
  rw [tokens, ← finish_settled, hs]
  simp [finish]

/-- A single character that is a token, and what follows it. -/
theorem cons {c : Char} {t : Token} {cs : List Char} {ts : List Token}
    (hc : ∀ before, step ⟨.between, before⟩ c = ⟨.between, t :: before⟩) (h : Scans cs ts) :
    Scans (c :: cs) (t :: ts) := by
  intro before
  rw [List.foldl_cons, hc, h]
  simp

/-- The later of two pieces does not go on with a number. -/
theorem append {cs ds : List Char} {ts us : List Token} (h : Scans cs ts) (hd : Scans ds us)
    (hn : ∀ c ∈ ds.head?, isNumberChar c = false) : Scans (cs ++ ds) (ts ++ us) := by
  intro before
  rw [List.foldl_append]
  cases ds with
  | nil =>
    have hu : us = [] := by simpa using (hd []).symm
    rw [hu]
    simpa using h before
  | cons d ds =>
    have hd' := hd (ts.reverse ++ before)
    rw [List.foldl_cons] at hd' ⊢
    rw [← step_settled _ (hn d rfl), h, hd']
    simp

end Scans

/-! ## Words -/

theorem scans_null : Scans ['n', 'u', 'l', 'l'] [.null] := fun _ => rfl

theorem scans_true : Scans ['t', 'r', 'u', 'e'] [.bool true] := fun _ => rfl

theorem scans_false : Scans ['f', 'a', 'l', 's', 'e'] [.bool false] := fun _ => rfl

/-! ## Strings -/

theorem isValidChar_toNat (c : Char) : c.toNat.isValidChar := c.valid

/-- The code points of characters are those characters. -/
theorem scalars?_map_toNat : ∀ cs : List Char, scalars? (cs.map Char.toNat) = some cs
  | [] => rfl
  | [c] => dif_pos (isValidChar_toNat c)
  | c :: d :: cs => by
    have ih : scalars? (d.toNat :: cs.map Char.toNat) = some (d :: cs) :=
      scalars?_map_toNat (d :: cs)
    calc
      scalars? ((c :: d :: cs).map Char.toNat)
        = (scalars? (d.toNat :: cs.map Char.toNat)).map
            (Char.ofNatAux c.toNat (isValidChar_toNat c) :: ·) := dif_pos (isValidChar_toNat c)
      _ = some (c :: d :: cs) := by rw [ih, Option.map_some]; rfl

theorem hexValue?_digitChar : ∀ d < 16, hexValue? (Nat.digitChar d) = some d := by decide

/-- The escape of a character is read as its code point. -/
theorem foldl_escape (c : Char) (read : List Nat) (ts : List Token) :
    (escape c).foldl step ⟨.string read, ts⟩ = ⟨.string (c.toNat :: read), ts⟩ := by
  unfold escape
  split_ifs with h1 h2 h3 h4 h5 h6 h7 h8
  · rw [h1]; rfl
  · rw [h2]; rfl
  · rw [h3]; rfl
  · rw [h4]; rfl
  · rw [h5]; rfl
  · rw [h6]; rfl
  · rw [h7]; rfl
  · have hhigh := hexValue?_digitChar (c.toNat / 16) (by omega)
    have hlow := hexValue?_digitChar (c.toNat % 16) (by omega)
    have hzero : hexValue? '0' = some 0 := rfl
    have hsum : 16 * (c.toNat / 16) + c.toNat % 16 = c.toNat := Nat.div_add_mod _ _
    simp [step, turn, hhigh, hlow, hzero, hsum]
  · simp [step, turn, h1, h2, h8]

theorem foldl_flatMap_escape (cs : List Char) (read : List Nat) (ts : List Token) :
    (cs.flatMap escape).foldl step ⟨.string read, ts⟩
      = ⟨.string ((cs.map Char.toNat).reverse ++ read), ts⟩ := by
  induction cs generalizing read with
  | nil => rfl
  | cons c cs ih =>
    rw [List.flatMap_cons, List.foldl_append, foldl_escape, ih]
    simp

/-- The text of a string is the string, whatever characters it has. -/
theorem scans_stringText (s : String) : Scans (stringText s) [.string (some s)] := by
  intro before
  have hopen : step ⟨.between, before⟩ '"' = ⟨.string [], before⟩ := rfl
  rw [stringText, List.cons_append, List.foldl_cons, hopen, List.foldl_append, foldl_flatMap_escape]
  simp [step, emit, scalars?_map_toNat]

/-! ## Integers -/

/-- The decimal digits of a positive number do not start with a zero. -/
theorem head?_toDigits_ne_zero (n : Nat) (hn : 0 < n) : (Nat.toDigits 10 n).head? ≠ some '0' := by
  induction n using Nat.strongRecOn with
  | ind n ih =>
    rcases Nat.lt_or_ge n 10 with h | h
    · have hdigit : ∀ d < 10, 0 < d → Nat.digitChar d ≠ '0' := by decide
      simpa [Nat.toDigits_of_lt_base h] using hdigit n h hn
    · have hfront := ih (n / 10) (by omega) (by omega)
      rw [Nat.toDigits_of_base_le (by decide) h]
      cases hds : Nat.toDigits 10 (n / 10) with
      | nil => exact absurd hds Nat.toDigits_ne_nil
      | cons d ds => simpa [hds] using hfront

theorem all_isDigit_toDigits (n : Nat) : ∀ c ∈ Nat.toDigits 10 n, c.isDigit = true :=
  fun _ => Nat.isDigit_of_mem_toDigits (by decide) (by decide)

/-- The decimal digits of a number are a whole run of digits. -/
theorem whole?_toDigits (n : Nat) : whole? (Nat.toDigits 10 n) = some (Nat.toDigits 10 n, []) := by
  have hall := all_isDigit_toDigits n
  have hdigits : digits? (Nat.toDigits 10 n) = some (Nat.toDigits 10 n, []) := by
    rw [digits?, List.takeWhile_eq_self_iff.mpr hall, List.dropWhile_eq_nil_iff.mpr hall]
    simp [Nat.toDigits_ne_nil]
  rw [whole?, hdigits]
  split
  · next c cs _ heq =>
    -- A zero at the front is the number zero, which has no second digit.
    have heq : Nat.toDigits 10 n = '0' :: c :: cs := by
      simpa using congrArg (Option.map Prod.fst) heq
    rcases Nat.eq_zero_or_pos n with rfl | hn
    · simp at heq
    · exact absurd (by rw [heq]; rfl) (head?_toDigits_ne_zero n hn)
  · rfl

/-- An integer as it is written. -/
def integerLiteral (i : Int) : Literal := ⟨decide (i < 0), Nat.toDigits 10 i.natAbs, [], none⟩

/-- The text of an integer is a sign or a digit, and then digits. -/
theorem integerText_eq_cons (i : Int) : ∃ c cs, integerText i = c :: cs ∧
    (c = '-' ∨ c.isDigit = true) ∧ ∀ d ∈ cs, d.isDigit = true := by
  have hall := all_isDigit_toDigits i.natAbs
  by_cases h : i < 0
  · exact ⟨'-', Nat.toDigits 10 i.natAbs, by simp [integerText, h], Or.inl rfl, hall⟩
  · cases hds : Nat.toDigits 10 i.natAbs with
    | nil => exact absurd hds Nat.toDigits_ne_nil
    | cons d ds =>
      rw [hds] at hall
      exact ⟨d, ds, by simp [integerText, h, hds], Or.inr (hall d List.mem_cons_self),
        fun e he => hall e (List.mem_cons_of_mem _ he)⟩

theorem literal?_integerText (i : Int) :
    literal? (integerText i) = some (integerLiteral i, []) := by
  unfold literal? integerText integerLiteral
  by_cases h : i < 0
  · simp [h, whole?_toDigits, fraction?, exponent?]
  · have hw := whole?_toDigits i.natAbs
    cases hds : Nat.toDigits 10 i.natAbs with
    | nil => exact absurd hds Nat.toDigits_ne_nil
    | cons d ds =>
      have hd := all_isDigit_toDigits i.natAbs d (by simp [hds])
      have hne : d ≠ '-' := by
        rintro rfl
        exact absurd hd (by decide)
      rw [hds] at hw
      simp [h, hne, hw, fraction?, exponent?]

theorem isNumberChar_of_isDigit {c : Char} (h : c.isDigit = true) : isNumberChar c = true := by
  simp [isNumberChar, h]

/-- A number goes on as long as characters of numbers follow. -/
theorem foldl_number {cs : List Char} (h : ∀ c ∈ cs, isNumberChar c = true) (read : List Char)
    (ts : List Token) :
    cs.foldl step ⟨.number read, ts⟩ = ⟨.number (cs.reverse ++ read), ts⟩ := by
  induction cs generalizing read with
  | nil => rfl
  | cons c cs ih =>
    have hc : step ⟨.number read, ts⟩ c = ⟨.number (c :: read), ts⟩ := by
      simp [step, turn, h c List.mem_cons_self]
    rw [List.foldl_cons, hc, ih fun d hd => h d (List.mem_cons_of_mem _ hd)]
    simp

/-- A number begins with its sign or a digit. -/
theorem step_number {c : Char} (h : c = '-' ∨ c.isDigit = true) (ts : List Token) :
    step ⟨.between, ts⟩ c = ⟨.number [c], ts⟩ := by
  simp only [step, start]
  split
  case h_15 =>
    have hb : (decide (c = '-') || c.isDigit) = true := by simpa using h
    rw [if_pos hb]
    rfl
  all_goals exact absurd h (by decide)

theorem scans_integerText (i : Int) : Scans (integerText i) [.number (integerLiteral i)] := by
  intro before
  have htokens : numberTokens (integerText i) = [.number (integerLiteral i)] := by
    rw [numberTokens, literal?_integerText]
  obtain ⟨c, cs, hcs, hc, hds⟩ := integerText_eq_cons i
  rw [hcs, List.foldl_cons, step_number hc,
    foldl_number fun d hd => isNumberChar_of_isDigit (hds d hd)]
  simp [settled, endNumber, emit, ← hcs, htokens]

/-- The integer fits 64 bits, below zero with a sign and otherwise without one. -/
def FitsWord (i : Int) : Prop := -9223372036854775808 ≤ i ∧ i < 18446744073709551616

/-- The literal of an integer that fits has its value. -/
theorem integer?_integerLiteral {i : Int} (hfits : FitsWord i) :
    (integerLiteral i).integer? = some i := by
  obtain ⟨hlow, hhigh⟩ := hfits
  have hdigits : readDigits 0 (Nat.toDigits 10 i.natAbs) = i.natAbs :=
    Nat.ofDigitChars_toDigits (by decide) (by decide)
  have hpow63 : Nat.pow 2 63 = 9223372036854775808 := rfl
  have hpow64 : Nat.pow 2 64 = 18446744073709551616 := rfl
  simp only [Literal.integer?, integerLiteral, hdigits, hpow63, hpow64, List.isEmpty_nil,
    Option.isNone_none, Bool.and_self, if_true]
  by_cases h : i < 0
  · have hfits : (decide (0 < i.natAbs) && decide (i.natAbs ≤ 9223372036854775808)) = true := by
      rw [Bool.and_eq_true, decide_eq_true_iff, decide_eq_true_iff]
      omega
    rw [if_pos (decide_eq_true h), if_pos hfits, Option.some.injEq]
    omega
  · have hfits : i.natAbs < 18446744073709551616 := by omega
    rw [if_neg (by simpa using h), if_pos hfits, Option.some.injEq]
    omega

/-- An integer that a literal stands for fits. -/
theorem fitsWord_of_number? {l : Literal} {i : Int} (h : l.number? = some (.integer i)) :
    FitsWord i := by
  have hinteger : l.integer? = some i := by
    cases hi : l.integer? with
    | none => simp [Literal.number?, hi] at h
    | some j => simpa [Literal.number?, hi] using h
  have hpow63 : Nat.pow 2 63 = 9223372036854775808 := rfl
  have hpow64 : Nat.pow 2 64 = 18446744073709551616 := rfl
  simp only [Literal.integer?, hpow63, hpow64] at hinteger
  unfold FitsWord
  grind

end SodiumDecl.Json
