import Mathlib.Data.List.Forall2
import SodiumDecl.Proofs.Trees

/-!
# The grammar of JSON

`Spells cs t` says that the characters `cs` are a JSON text of the tree `t`. It is the grammar of
RFC 8259, stated without the scanner: lexemes (`Lexeme`), arrays and objects of any depth, and
blanks around values, keys and brackets. Strings that name no text and numbers of any size are part
of it, and members keep their order and may repeat a key.

Whatever the grammar spells is read (`Spells.read_eq`).
-/

namespace SodiumDecl.Json

/-! ## Blanks and numbers -/

/-- A blank between lexemes. -/
def IsBlank (c : Char) : Prop := c = ' ' ∨ c = '\t' ∨ c = '\n' ∨ c = '\r'

/-- Any number of blanks. -/
def Blanks (cs : List Char) : Prop := ∀ c ∈ cs, IsBlank c

/-- A run of decimal digits, at least one. -/
def IsDigits (cs : List Char) : Prop := cs ≠ [] ∧ ∀ c ∈ cs, c.isDigit = true

/-- The text of the digits after the point. There is no point without them. -/
def fractionText : List Char → List Char
  | [] => []
  | ds => '.' :: ds

/-- The texts of an exponent. -/
inductive ExponentText : Option (Bool × List Char) → List Char → Prop
  | absent : ExponentText none []
  | plain {e : Char} {ds : List Char} (he : e = 'e' ∨ e = 'E') (hd : IsDigits ds) :
    ExponentText (some (false, ds)) (e :: ds)
  | signed {e : Char} {ds : List Char} (he : e = 'e' ∨ e = 'E') (negative : Bool)
    (hd : IsDigits ds) :
    ExponentText (some (negative, ds)) (e :: (if negative then '-' else '+') :: ds)

/-- The characters are the number as it is written. Only the number zero has a zero in front. -/
structure Literal.Spelled (l : Literal) (cs : List Char) : Prop where
  whole : IsDigits l.whole
  front : l.whole.head? = some '0' → l.whole = ['0']
  fraction : ∀ c ∈ l.fraction, c.isDigit = true
  text : ∃ es, ExponentText l.exponent es ∧
    cs = (if l.negative then ['-'] else []) ++ l.whole ++ fractionText l.fraction ++ es

/-! ## Lexemes -/

/-- The characters between the quotes of a string, and the code points they stand for. -/
inductive StringBody : List Char → List Nat → Prop
  | nil : StringBody [] []
  | plain {c : Char} {cs : List Char} {ns : List Nat} (hquote : c ≠ '"') (hslash : c ≠ '\\')
    (hc : 0x20 ≤ c.toNat) (h : StringBody cs ns) : StringBody (c :: cs) (c.toNat :: ns)
  | escape {c : Char} {n : Nat} {cs : List Char} {ns : List Nat} (hc : escaped? c = some n)
    (h : StringBody cs ns) : StringBody ('\\' :: c :: cs) (n :: ns)
  | unicode {hs : List Char} {ds : List Nat} {cs : List Char} {ns : List Nat}
    (hlength : hs.length = 4) (hhex : List.Forall₂ (fun c d => hexValue? c = some d) hs ds)
    (h : StringBody cs ns) :
    StringBody ('\\' :: 'u' :: hs ++ cs) (ds.foldl (fun n d => 16 * n + d) 0 :: ns)

/-- The characters of a token. -/
inductive Lexeme : List Char → Token → Prop
  | openBrace : Lexeme ['{'] .openBrace
  | closeBrace : Lexeme ['}'] .closeBrace
  | openBracket : Lexeme ['['] .openBracket
  | closeBracket : Lexeme [']'] .closeBracket
  | comma : Lexeme [','] .comma
  | colon : Lexeme [':'] .colon
  | null : Lexeme ['n', 'u', 'l', 'l'] .null
  | true : Lexeme ['t', 'r', 'u', 'e'] (.bool true)
  | false : Lexeme ['f', 'a', 'l', 's', 'e'] (.bool false)
  | number {cs : List Char} {l : Literal} (h : l.Spelled cs) : Lexeme cs (.number l)
  | string {cs : List Char} {ns : List Nat} (h : StringBody cs ns) :
    Lexeme ('"' :: cs ++ ['"']) (.string ((scalars? ns).map String.ofList))

/-! ## Values -/

/-- The tree of a token that is a value by itself. -/
def Token.scalar? : Token → Option Tree
  | .null => some .null
  | .bool b => some (.bool b)
  | .number l => some (.number l.number?)
  | .string s => some (.string s)
  | _ => none

/-- The characters are a key between blanks. -/
inductive SpellsKey : List Char → Option String → Prop
  | mk {bs cs bs' : List Char} {k : Option String} (hb : Blanks bs) (h : Lexeme cs (.string k))
    (hb' : Blanks bs') : SpellsKey (bs ++ cs ++ bs') k

/-- A member of an object as it is written: its key with the blanks around it, and its value. -/
structure MemberText where
  keyText : List Char
  key : Option String
  valueText : List Char
  value : Tree

namespace MemberText

/-- The characters of a member. -/
def text (m : MemberText) : List Char := m.keyText ++ ':' :: m.valueText

/-- The member in the tree of its object. -/
def member (m : MemberText) : Option String × Tree := (m.key, m.value)

end MemberText

/-- The characters are a text of the tree. -/
inductive Spells : List Char → Tree → Prop
  | scalar {cs : List Char} {u : Token} {t : Tree} (hl : Lexeme cs u) (ht : u.scalar? = some t) :
    Spells cs t
  | padded {bs cs bs' : List Char} {t : Tree} (hb : Blanks bs) (h : Spells cs t)
    (hb' : Blanks bs') : Spells (bs ++ cs ++ bs') t
  | emptyArray {bs : List Char} (hb : Blanks bs) : Spells ('[' :: bs ++ [']']) (.array [] true)
  | array {ps : List (List Char × Tree)} (hne : ps ≠ []) (h : ∀ p ∈ ps, Spells p.1 p.2) :
    Spells ('[' :: [','].intercalate (ps.map Prod.fst) ++ [']']) (.array (ps.map Prod.snd) true)
  | emptyObject {bs : List Char} (hb : Blanks bs) : Spells ('{' :: bs ++ ['}']) (.object [] true)
  | object {ms : List MemberText} (hne : ms ≠ []) (hk : ∀ m ∈ ms, SpellsKey m.keyText m.key)
    (h : ∀ m ∈ ms, Spells m.valueText m.value) :
    Spells ('{' :: [','].intercalate (ms.map MemberText.text) ++ ['}'])
      (.object (ms.map MemberText.member) true)

/-- What is spelled has no fault. -/
theorem Spells.isIntact {cs : List Char} {t : Tree} (h : Spells cs t) : t.isIntact = true := by
  induction h with
  | @scalar _ u _ _ ht =>
    cases u <;> simp only [Token.scalar?, Option.some.injEq, reduceCtorEq] at ht <;>
      rw [← ht] <;> rfl
  | padded _ _ _ ih => exact ih
  | _ => rfl

/-! ## Numbers are scanned -/

/-- No digit follows. -/
def NoDigit (cs : List Char) : Prop := ∀ c ∈ cs.head?, c.isDigit = false

theorem digits?_append {ds rest : List Char} (hd : IsDigits ds) (hr : NoDigit rest) :
    digits? (ds ++ rest) = some (ds, rest) := by
  have htake : rest.takeWhile Char.isDigit = [] := by
    cases rest with
    | nil => rfl
    | cons c cs => exact List.takeWhile_cons_of_neg (by simp [hr c rfl])
  have hdrop : rest.dropWhile Char.isDigit = rest := by
    cases rest with
    | nil => rfl
    | cons c cs => exact List.dropWhile_cons_of_neg (by simp [hr c rfl])
  rw [digits?, List.takeWhile_append_of_pos hd.2, List.dropWhile_append_of_pos hd.2, htake, hdrop]
  simp [hd.1]

theorem whole?_append {ds rest : List Char} (hd : IsDigits ds)
    (hf : ds.head? = some '0' → ds = ['0']) (hr : NoDigit rest) :
    whole? (ds ++ rest) = some (ds, rest) := by
  rw [whole?, digits?_append hd hr]
  split
  · next h =>
    obtain ⟨rfl, rfl⟩ := Prod.mk.inj (Option.some.inj h)
    simpa using hf rfl
  · rfl

theorem ExponentText.exponent?_eq {o : Option (Bool × List Char)} {es : List Char}
    (h : ExponentText o es) : exponent? es = some (o, []) := by
  have hnone : NoDigit [] := fun _ h => nomatch h
  have hdigits {ds : List Char} (hd : IsDigits ds) : digits? ds = some (ds, []) := by
    simpa using digits?_append hd hnone
  cases h with
  | absent => rfl
  | @plain e ds he hd =>
    obtain ⟨hne, hall⟩ := hd
    cases ds with
    | nil => exact absurd rfl hne
    | cons d ds =>
      have hsign : d ≠ '-' ∧ d ≠ '+' := by
        constructor <;> rintro rfl <;> exact absurd (hall _ List.mem_cons_self) (by decide)
      rcases he with rfl | rfl <;> simp [exponent?, hsign, hdigits ⟨hne, hall⟩]
  | @signed e ds he negative hd =>
    rcases he with rfl | rfl <;> cases negative <;> simp [exponent?, hdigits hd]

theorem ExponentText.noDigit {o : Option (Bool × List Char)} {es : List Char}
    (h : ExponentText o es) : NoDigit es ∧ '.' ∉ es.head? := by
  cases h with
  | absent => simp [NoDigit]
  | plain he _ => rcases he with rfl | rfl <;> simp [NoDigit]
  | signed he _ _ => rcases he with rfl | rfl <;> simp [NoDigit]

theorem fraction?_append {fs rest : List Char} (hf : ∀ c ∈ fs, c.isDigit = true)
    (hr : NoDigit rest) (hp : '.' ∉ rest.head?) :
    fraction? (fractionText fs ++ rest) = some (fs, rest) := by
  cases fs with
  | nil =>
    rw [fractionText, List.nil_append, fraction?]
    · rintro cs rfl
      exact hp rfl
  | cons d ds => exact digits?_append ⟨by simp, hf⟩ hr

theorem Literal.Spelled.literal?_eq {l : Literal} {cs : List Char} (h : l.Spelled cs) :
    literal? cs = some (l, []) := by
  obtain ⟨negative, whole, fraction, exponent⟩ := l
  obtain ⟨hw, hfront, hf, es, he, rfl⟩ := h
  obtain ⟨hdigit, hpoint⟩ := he.noDigit
  dsimp only at hw hfront hf he ⊢
  have hrest : NoDigit (fractionText fraction ++ es) := by
    cases fraction with
    | nil => exact hdigit
    | cons d ds => simp [fractionText, NoDigit]
  have hwhole := whole?_append hw hfront hrest
  have hfraction := fraction?_append hf hdigit hpoint
  unfold literal?
  cases negative with
  | true => simp [hwhole, hfraction, he.exponent?_eq]
  | false =>
    -- A number without a sign begins with a digit.
    cases whole with
    | nil => exact absurd rfl hw.1
    | cons d ds =>
      have hd : d ≠ '-' := by
        rintro rfl
        exact absurd (hw.2 _ List.mem_cons_self) (by decide)
      rw [List.cons_append] at hwhole
      simp [hd, hwhole, hfraction, he.exponent?_eq]

theorem ExponentText.isNumberChar {o : Option (Bool × List Char)} {es : List Char}
    (h : ExponentText o es) : ∀ c ∈ es, isNumberChar c = true := by
  have hdigits {ds : List Char} (hd : IsDigits ds) : ∀ c ∈ ds, Json.isNumberChar c = true :=
    fun c hc => isNumberChar_of_isDigit (hd.2 c hc)
  cases h with
  | absent => simp
  | plain he hd =>
    rcases he with rfl | rfl <;> exact List.forall_mem_cons.mpr ⟨rfl, hdigits hd⟩
  | signed he negative hd =>
    rcases he with rfl | rfl <;> cases negative <;>
      exact List.forall_mem_cons.mpr ⟨rfl, List.forall_mem_cons.mpr ⟨rfl, hdigits hd⟩⟩

theorem isNumberChar_of_spelled {l : Literal} {cs : List Char} (h : l.Spelled cs) :
    ∀ c ∈ cs, isNumberChar c = true := by
  obtain ⟨hw, -, hf, es, he, rfl⟩ := h
  have hfraction : ∀ c ∈ fractionText l.fraction, isNumberChar c = true := by
    unfold fractionText
    split
    · simp
    · exact List.forall_mem_cons.mpr ⟨rfl, fun c hc => isNumberChar_of_isDigit (hf c hc)⟩
  have hsign : ∀ c ∈ if l.negative then ['-'] else [], isNumberChar c = true := by
    cases l.negative <;> simp [isNumberChar]
  simp only [List.forall_mem_append]
  exact ⟨⟨⟨hsign, fun c hc => isNumberChar_of_isDigit (hw.2 c hc)⟩, hfraction⟩, he.isNumberChar⟩

theorem exists_cons_of_spelled {l : Literal} {cs : List Char} (h : l.Spelled cs) :
    ∃ d ds, cs = d :: ds ∧ (d = '-' ∨ d.isDigit = true) := by
  obtain ⟨hw, -, -, es, -, rfl⟩ := h
  cases l.negative with
  | true => exact ⟨'-', _, rfl, Or.inl rfl⟩
  | false =>
    cases hl : l.whole with
    | nil => exact absurd hl hw.1
    | cons d ds => exact ⟨d, _, rfl, Or.inr (hw.2 d (by simp [hl]))⟩

open Scanner

theorem scans_number {l : Literal} {cs : List Char} (h : l.Spelled cs) :
    Scans cs [.number l] := by
  intro before
  have htokens : numberTokens cs = [.number l] := by rw [numberTokens, h.literal?_eq]
  have hchars := isNumberChar_of_spelled h
  obtain ⟨d, ds, rfl, hd⟩ := exists_cons_of_spelled h
  rw [List.foldl_cons, step_number hd, foldl_number (List.forall_mem_cons.mp hchars).2]
  simp [settled, endNumber, emit, htokens]

/-! ## Strings are scanned -/

/-- The hexadecimal digits of an escape, up to the last one. -/
theorem foldl_hex {hs : List Char} {ds : List Nat}
    (h : List.Forall₂ (fun c d => hexValue? c = some d) hs ds) (hne : hs ≠ []) (read : List Nat)
    (value : Nat) (ts : List Token) :
    hs.foldl step ⟨.hex read hs.length value, ts⟩ =
      ⟨.string (ds.foldl (fun n d => 16 * n + d) value :: read), ts⟩ := by
  induction h generalizing value with
  | nil => exact absurd rfl hne
  | @cons c d hs ds hc hrest ih =>
    rcases eq_or_ne hs [] with rfl | hne
    · obtain rfl := List.forall₂_nil_left_iff.mp hrest
      simp [step, turn, hc]
    · have hlength : ¬hs.length + 1 ≤ 1 := by
        have := List.length_pos_iff.mpr hne
        omega
      have hstep : step ⟨.hex read (hs.length + 1) value, ts⟩ c =
          ⟨.hex read hs.length (16 * value + d), ts⟩ := by
        simp only [step, hc, if_neg hlength, turn, Nat.add_sub_cancel]
      rw [List.length_cons, List.foldl_cons, hstep, ih hne, List.foldl_cons]

theorem StringBody.foldl {cs : List Char} {ns : List Nat} (h : StringBody cs ns) (read : List Nat)
    (ts : List Token) :
    cs.foldl step ⟨.string read, ts⟩ = ⟨.string (ns.reverse ++ read), ts⟩ := by
  induction h generalizing read with
  | nil => rfl
  | @plain c cs ns hquote hslash hc _ ih =>
    have hstep : step ⟨.string read, ts⟩ c = ⟨.string (c.toNat :: read), ts⟩ := by
      simp [step, turn, hquote, hslash, Nat.not_lt.mpr hc]
    rw [List.foldl_cons, hstep, ih]
    simp
  | @escape c n cs ns hc _ ih =>
    have hu : c ≠ 'u' := by
      rintro rfl
      simp [escaped?] at hc
    have hstep : step (step ⟨.string read, ts⟩ '\\') c = ⟨.string (n :: read), ts⟩ := by
      simp [step, turn, hu, hc]
    rw [List.foldl_cons, List.foldl_cons, hstep, ih]
    simp
  | @unicode hs ds cs ns hlength hhex _ ih =>
    have hstep : step (step ⟨.string read, ts⟩ '\\') 'u' = ⟨.hex read hs.length 0, ts⟩ := by
      rw [hlength]
      rfl
    have hne : hs ≠ [] := by
      rintro rfl
      simp at hlength
    rw [List.cons_append, List.cons_append, List.foldl_cons, List.foldl_cons, hstep,
      List.foldl_append, foldl_hex hhex hne, ih]
    simp

theorem scans_string {cs : List Char} {ns : List Nat} (h : StringBody cs ns) :
    Scans ('"' :: cs ++ ['"']) [.string ((scalars? ns).map String.ofList)] := by
  intro before
  have hopen : step ⟨.between, before⟩ '"' = ⟨.string [], before⟩ := rfl
  rw [List.cons_append, List.foldl_cons, hopen, List.foldl_append, h.foldl]
  simp [step, emit]

/-! ## What is spelled is read -/

theorem Lexeme.scans {cs : List Char} {u : Token} (h : Lexeme cs u) : Scans cs [u] := by
  cases h with
  | null => exact scans_null
  | true => exact scans_true
  | false => exact scans_false
  | number h => exact scans_number h
  | string h => exact scans_string h
  | _ => exact scans_nil.cons fun _ => rfl

theorem Blanks.foldl {bs : List Char} (hb : Blanks bs) (before : List Token) :
    bs.foldl step ⟨.between, before⟩ = ⟨.between, before⟩ := by
  induction bs with
  | nil => rfl
  | cons c cs ih =>
    obtain ⟨hc, hcs⟩ := List.forall_mem_cons.mp hb
    have hstep : step ⟨.between, before⟩ c = ⟨.between, before⟩ := by
      rcases hc with rfl | rfl | rfl | rfl <;> rfl
    rw [List.foldl_cons, hstep, ih hcs]

theorem Blanks.scans {bs : List Char} (hb : Blanks bs) : Scans bs [] := by
  intro before
  rw [hb.foldl]
  rfl

/-- Blanks in front. -/
theorem Scans.blanks_append {bs cs : List Char} {ts : List Token} (hb : Blanks bs)
    (h : Scans cs ts) : Scans (bs ++ cs) ts := by
  intro before
  rw [List.foldl_append, hb.foldl, h]

theorem Blanks.isNumberChar {bs : List Char} (hb : Blanks bs) :
    ∀ c ∈ bs.head?, isNumberChar c = false := by
  intro c hc
  rcases hb c (List.mem_of_mem_head? hc) with rfl | rfl | rfl | rfl <;> rfl

/-- Blanks behind. -/
theorem Scans.append_blanks {bs cs : List Char} {ts : List Token} (h : Scans cs ts)
    (hb : Blanks bs) : Scans (cs ++ bs) ts := by
  simpa using h.append hb.scans hb.isNumberChar

theorem builds_scalar {u : Token} {t : Tree} (h : u.scalar? = some t) : Builds [u] t := by
  intro stack
  cases u <;> simp only [Token.scalar?, Option.some.injEq, reduceCtorEq] at h <;> rw [← h] <;> rfl

theorem SpellsKey.scans {cs : List Char} {k : Option String} (h : SpellsKey cs k) :
    Scans cs [.string k] := by
  obtain ⟨hb, h, hb'⟩ := h
  exact (h.scans.blanks_append hb).append_blanks hb'

theorem MemberText.reads {m : MemberText} (hk : SpellsKey m.keyText m.key)
    (h : Reads m.valueText m.value) : ReadsMember m.text m.member := by
  obtain ⟨ts, hscan, hbuild⟩ := h
  exact ⟨ts, hk.scans.append (hscan.cons fun _ => rfl) (by simp [Json.isNumberChar]), hbuild⟩

/-- Texts joined by commas are the first one and the others, each after a comma. -/
theorem intercalate_comma_cons (x : List Char) (xs : List (List Char)) :
    [','].intercalate (x :: xs) = x ++ xs.flatMap fun y => ',' :: y := by
  induction xs generalizing x with
  | nil => simp
  | cons y ys ih => simp [List.intercalate_cons_cons, ih]

theorem Spells.reads {cs : List Char} {t : Tree} (h : Spells cs t) : Reads cs t := by
  induction h with
  | scalar hl ht => exact ⟨_, hl.scans, builds_scalar ht⟩
  | padded hb _ hb' ih =>
    obtain ⟨ts, hscan, hbuild⟩ := ih
    exact ⟨ts, (hscan.blanks_append hb).append_blanks hb', hbuild⟩
  | emptyArray hb =>
    exact ⟨_, (scans_closeBracket.blanks_append hb).cons fun _ => rfl, fun _ => rfl⟩
  | emptyObject hb =>
    exact ⟨_, (scans_closeBrace.blanks_append hb).cons fun _ => rfl, fun _ => rfl⟩
  | @array ps hne _ ih =>
    cases ps with
    | nil => exact absurd rfl hne
    | cons p ps =>
      have harray := reads_array ih
      rwa [List.map_cons, intercalate_comma_cons, List.flatMap_map, ← List.cons_append]
  | @object ms hne hk _ ih =>
    have hmembers : ∀ m ∈ ms, ReadsMember m.text m.member := fun m hm =>
      MemberText.reads (hk m hm) (ih m hm)
    cases ms with
    | nil => exact absurd rfl hne
    | cons m ms =>
      have hpieces : ∀ q ∈ (m :: ms).map fun n => (n.text, n.member), ReadsMember q.1 q.2 :=
        List.forall_mem_map.mpr hmembers
      have hobject := reads_object hpieces
      simpa [intercalate_comma_cons, List.flatMap_map, Function.comp_def] using hobject

/-- A text of a tree is read as the tree, to its end. -/
theorem Spells.read_eq {text : String} {t : Tree} (h : Spells text.toList t) :
    read text = ⟨t, false⟩ := by
  simpa using h.reads.read_eq

end SodiumDecl.Json
