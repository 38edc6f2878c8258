import SodiumDecl.Proofs.Results
import SodiumDecl.Proofs.Trees

/-!
# Values and their trees

`Value.Readable n v` says what a text nested no deeper than `n` can say: the keys of each
object ascend, and each number is the value of a literal. The value of a tree that was read
from a text is of this kind (`Tree.Written.readable`), and such a value is the value of its
own tree again (`Value.Readable.value?_tree`).

Members that are inserted one by one are in the order of their keys (`keysAscend_sortMembers`).
Members in that order stay as they are (`sortMembers_eq_self`), and members whose keys differ
all stay (`perm_sortMembers`).
-/

namespace SodiumDecl.Json

/-! ## Members in the order of their keys -/

/-- Each key is smaller than the keys after it. -/
def KeysAscend (ms : List (String × Value)) : Prop := ms.Pairwise fun m n => m.1 < n.1

/-- The members in the order of their keys, the last of two equal keys winning. -/
def sortMembers (ms : List (String × Value)) : List (String × Value) :=
  ms.foldl (fun ms m => insertMember m.1 m.2 ms) []

variable {ms ns : List (String × Value)} {k : String} {v : Value}

theorem mem_insertMember {m : String × Value} (h : m ∈ insertMember k v ms) :
    m = (k, v) ∨ m ∈ ms := by
  induction ms with
  | nil => exact Or.inl (List.mem_singleton.mp h)
  | cons n ns ih =>
    unfold insertMember at h
    split at h
    · exact List.mem_cons.mp h
    split at h
    · exact (List.mem_cons.mp h).imp_right (List.mem_cons_of_mem _)
    · rcases List.mem_cons.mp h with rfl | h
      · exact Or.inr List.mem_cons_self
      · exact (ih h).imp_right (List.mem_cons_of_mem _)

theorem keysAscend_insertMember (k : String) (v : Value) (h : KeysAscend ms) :
    KeysAscend (insertMember k v ms) := by
  induction ms with
  | nil => exact List.pairwise_singleton _ _
  | cons n ns ih =>
    obtain ⟨hn, hns⟩ := List.pairwise_cons.mp h
    unfold insertMember
    split
    · next hlt =>
      refine List.pairwise_cons.mpr ⟨fun m hm => ?_, h⟩
      rcases List.mem_cons.mp hm with rfl | hm
      · exact hlt
      · exact String.lt_trans hlt (hn m hm)
    split
    · next heq => exact List.pairwise_cons.mpr ⟨fun m hm => heq ▸ hn m hm, hns⟩
    · next hge hne =>
      have hlt : n.1 < k :=
        Decidable.byContradiction fun h =>
          hne (String.le_antisymm (String.not_lt.mp h) (String.not_lt.mp hge))
      refine List.pairwise_cons.mpr ⟨fun m hm => ?_, ih hns⟩
      rcases mem_insertMember hm with rfl | hm
      · exact hlt
      · exact hn m hm

theorem insertMember_eq_append (h : ∀ m ∈ ms, m.1 < k) :
    insertMember k v ms = ms ++ [(k, v)] := by
  induction ms with
  | nil => rfl
  | cons n ns ih =>
    obtain ⟨hn, hns⟩ := List.forall_mem_cons.mp h
    have hne : k ≠ n.1 := fun he => String.lt_irrefl _ (he ▸ hn)
    rw [insertMember, if_neg (String.lt_asymm hn), if_neg hne, ih hns, List.cons_append]

theorem perm_insertMember (h : ∀ m ∈ ms, k ≠ m.1) :
    (insertMember k v ms).Perm ((k, v) :: ms) := by
  induction ms with
  | nil => exact List.Perm.refl _
  | cons n ns ih =>
    obtain ⟨hn, hns⟩ := List.forall_mem_cons.mp h
    unfold insertMember
    split
    · exact List.Perm.refl _
    · exact ((ih hns).cons n).trans (List.Perm.swap _ _ _)

theorem mem_sortMembers {m : String × Value} (h : m ∈ sortMembers ms) : m ∈ ms := by
  have hall : ∀ n ∈ sortMembers ms, n ∈ ms := by
    refine List.foldlRecOn ms _ (motive := fun ns => ∀ n ∈ ns, n ∈ ms) (fun _ h => nomatch h) ?_
    intro ns ih m hm n hn
    rcases mem_insertMember hn with rfl | hn
    · exact hm
    · exact ih n hn
  exact hall m h

theorem keysAscend_sortMembers (ms : List (String × Value)) : KeysAscend (sortMembers ms) :=
  List.foldlRecOn ms _ (motive := KeysAscend) List.Pairwise.nil
    fun _ h m _ => keysAscend_insertMember m.1 m.2 h

theorem foldl_insertMember_eq_append (h : KeysAscend (ns ++ ms)) :
    ms.foldl (fun ms m => insertMember m.1 m.2 ms) ns = ns ++ ms := by
  induction ms generalizing ns with
  | nil => simp
  | cons m ms ih =>
    have hm : ∀ n ∈ ns, n.1 < m.1 := fun n hn =>
      (List.pairwise_append.mp h).2.2 n hn m List.mem_cons_self
    rw [List.foldl_cons, insertMember_eq_append hm, ih (by simpa using h)]
    simp

/-- Members in the order of their keys stay as they are. -/
theorem sortMembers_eq_self (h : KeysAscend ms) : sortMembers ms = ms :=
  foldl_insertMember_eq_append (show KeysAscend ([] ++ ms) from h)

theorem perm_foldl_insertMember (h : (ns ++ ms).Pairwise fun m n => m.1 ≠ n.1) :
    (ms.foldl (fun ms m => insertMember m.1 m.2 ms) ns).Perm (ns ++ ms) := by
  induction ms generalizing ns with
  | nil => simp
  | cons m ms ih =>
    have hm : ∀ n ∈ ns, m.1 ≠ n.1 := fun n hn =>
      ((List.pairwise_append.mp h).2.2 n hn m List.mem_cons_self).symm
    have hperm : (insertMember m.1 m.2 ns ++ ms).Perm (ns ++ m :: ms) :=
      ((perm_insertMember hm).append_right ms).trans List.perm_middle.symm
    exact (ih ((hperm.pairwise_iff Ne.symm).mpr h)).trans hperm

/-- Members whose keys differ are all kept. -/
theorem perm_sortMembers (h : (ms.map Prod.fst).Nodup) : (sortMembers ms).Perm ms :=
  perm_foldl_insertMember <| show ([] ++ ms).Pairwise _ from List.pairwise_map.mp h

/-! ## Values of trees -/

theorem values?_eq_some {n : Nat} {ts : List Tree} {vs : List Value} :
    Tree.values? n ts = some vs ↔ List.Forall₂ (fun t v => t.value? n = some v) ts vs := by
  induction ts generalizing vs with
  | nil => cases vs <;> simp [Tree.values?]
  | cons t ts ih => cases vs <;> simp [Tree.values?, Option.bind_eq_some_iff, ih]

theorem members?_eq_some {n : Nat} {ts : List (Option String × Tree)} :
    Tree.members? n ts = some ms ↔
      List.Forall₂ (fun t m => t.1 = some m.1 ∧ t.2.value? n = some m.2) ts ms := by
  induction ts generalizing ms with
  | nil => cases ms <;> simp [Tree.members?]
  | cons t ts ih =>
    obtain ⟨_ | k, t⟩ := t
    · cases ms <;> simp [Tree.members?]
    · cases ms with
      | nil => simp [Tree.members?, Option.bind_eq_some_iff]
      | cons m ms =>
        have hcons : Tree.members? n ((some k, t) :: ts) = some (m :: ms) ↔
            t.value? n = some m.2 ∧ Tree.members? n ts = some ms ∧ k = m.1 := by
          simp [Tree.members?, Option.bind_eq_some_iff, Prod.ext_iff]
        rw [hcons, List.forall₂_cons, ← ih, Option.some.injEq]
        exact ⟨fun ⟨hv, hms, hk⟩ => ⟨⟨hk, hv⟩, hms⟩, fun ⟨⟨hk, hv⟩, hms⟩ => ⟨hv, hms, hk⟩⟩

/-- An array has a value if it is closed, the limit allows one more level and its elements
have values within what is left of it. -/
theorem value?_array_eq_some {n : Nat} {ts : List Tree} {closed : Bool} :
    (Tree.array ts closed).value? n = some v ↔ ∃ m vs, n = m + 1 ∧ closed = true ∧
      List.Forall₂ (fun t v => t.value? m = some v) ts vs ∧ .array vs = v := by
  cases n with
  | zero =>
    have hnone : (Tree.array ts closed).value? 0 = none := by cases closed <;> rfl
    simp [hnone]
  | succ n =>
    cases closed with
    | false =>
      have hnone : (Tree.array ts false).value? (n + 1) = none := rfl
      simp [hnone]
    | true => simp [Tree.value?, Option.map_eq_some_iff, values?_eq_some]

theorem value?_object_eq_some {n : Nat} {ts : List (Option String × Tree)} {closed : Bool} :
    (Tree.object ts closed).value? n = some v ↔ ∃ m ms, n = m + 1 ∧ closed = true ∧
      List.Forall₂ (fun t w => t.1 = some w.1 ∧ t.2.value? m = some w.2) ts ms ∧
        .object (sortMembers ms) = v := by
  cases n with
  | zero =>
    have hnone : (Tree.object ts closed).value? 0 = none := by cases closed <;> rfl
    simp [hnone]
  | succ n =>
    cases closed with
    | false =>
      have hnone : (Tree.object ts false).value? (n + 1) = none := rfl
      simp [hnone]
    | true =>
      simp [Tree.value?, Option.map_eq_some_iff, members?_eq_some, Value.ofMembers, sortMembers]

/-- What a text nested no deeper than a limit can say. -/
inductive Value.Readable : Nat → Value → Prop
  | null (n : Nat) : Readable n .null
  | bool (n : Nat) (b : Bool) : Readable n (.bool b)
  | string (n : Nat) (s : String) : Readable n (.string s)
  | number (n : Nat) {l : Literal} {num : Number} :
    l.number? = some num → Readable n (.number num)
  | array {n : Nat} {vs : List Value} :
    (∀ v ∈ vs, Readable n v) → Readable (n + 1) (.array vs)
  | object {n : Nat} {ms : List (String × Value)} :
    (∀ m ∈ ms, Readable n m.2) → KeysAscend ms → Readable (n + 1) (.object ms)

/-- The value of a tree that was read from a text. -/
theorem Tree.Written.readable {n : Nat} {t : Tree} (h : t.Written) (hv : t.value? n = some v) :
    v.Readable n := by
  induction h generalizing n v with
  | null =>
    obtain rfl : .null = v := by simpa [Tree.value?] using hv
    exact .null n
  | bool b =>
    obtain rfl : .bool b = v := by simpa [Tree.value?] using hv
    exact .bool n b
  | number l =>
    obtain ⟨num, hnum, rfl⟩ : ∃ num, l.number? = some num ∧ .number num = v := by
      simpa [Tree.value?] using hv
    exact .number n hnum
  | string s =>
    obtain ⟨s, rfl, rfl⟩ : ∃ s', s = some s' ∧ .string s' = v := by simpa [Tree.value?] using hv
    exact .string n s
  | array ts closed _ ih =>
    obtain ⟨m, vs, rfl, rfl, hvs, rfl⟩ := value?_array_eq_some.mp hv
    refine .array fun w hw => ?_
    obtain ⟨t, ht, htw⟩ := exists_of_forall₂ hvs hw
    exact ih t ht htw
  | object ts closed _ ih =>
    obtain ⟨m, ms, rfl, rfl, hms, rfl⟩ := value?_object_eq_some.mp hv
    refine .object (fun w hw => ?_) (keysAscend_sortMembers ms)
    obtain ⟨t, ht, -, htw⟩ := exists_of_forall₂ hms (mem_sortMembers hw)
    exact ih t ht htw
  | broken => simp [Tree.value?] at hv

theorem tree_eq_null_iff : v.tree = .null ↔ v = .null := by cases v <;> simp [Value.tree]

/-- Only the tree of null has the value null. -/
theorem eq_null_of_value? {n : Nat} {t : Tree} (h : t.value? n = some .null) : t = .null := by
  cases t with
  | null => rfl
  | array ts closed => simp [value?_array_eq_some] at h
  | object ts closed => simp [value?_object_eq_some] at h
  | _ => simp [Tree.value?] at h

/-- Such a value is the value of its own tree. -/
theorem Value.Readable.value?_tree {n : Nat} (h : v.Readable n) : v.tree.value? n = some v := by
  induction h with
  | null n | bool n b | string n s => simp [Value.tree, Tree.value?]
  | number n _ => simp [Value.tree, Tree.value?]
  | array _ ih =>
    refine value?_array_eq_some.mpr ⟨_, _, rfl, rfl, ?_, rfl⟩
    rw [trees_eq_map, List.forall₂_map_left_iff, List.forall₂_same]
    exact ih
  | object _ hkeys ih =>
    refine value?_object_eq_some.mpr ⟨_, _, rfl, rfl, ?_, by rw [sortMembers_eq_self hkeys]⟩
    rw [memberTrees_eq_map, List.forall₂_map_left_iff, List.forall₂_same]
    exact fun m hm => ⟨rfl, ih m hm⟩

/-! ## Doubles -/

/-- A number stands in the value. -/
inductive Value.Has (num : Number) : Value → Prop
  | number : Has num (.number num)
  | array {vs : List Value} {v : Value} : v ∈ vs → Has num v → Has num (.array vs)
  | object {ms : List (String × Value)} {m : String × Value} :
    m ∈ ms → Has num m.2 → Has num (.object ms)

/-- What a text says without a double is made of integers of 64 bits. -/
theorem Value.Readable.integral {n : Nat} (h : v.Readable n)
    (hfloat : ∀ bits, ¬v.Has (.float bits)) : v.Integral := by
  induction h with
  | null n => exact .null
  | bool n b => exact .bool b
  | string n s => exact .string s
  | @number n l num hnum =>
    cases num with
    | float bits => exact absurd .number (hfloat bits)
    | integer i => exact .integer i (fitsWord_of_number? hnum)
  | array _ ih => exact .array _ fun w hw => ih w hw fun bits hb => hfloat bits (.array hw hb)
  | object _ _ ih => exact .object _ fun m hm => ih m hm fun bits hb => hfloat bits (.object hm hb)

end SodiumDecl.Json
