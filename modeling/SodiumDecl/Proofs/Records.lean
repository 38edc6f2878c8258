import Mathlib.Data.List.Perm.Basic
import Mathlib.Data.List.ReduceOption
import SodiumDecl.Json.Decode
import SodiumDecl.Proofs.Values

/-!
# Reading records

A record is read from an object when each member gives an item or is not known, no known key is
repeated, and the items build the record (`Schema.read_object_eq_ok`). So it is read from the object
of its members in any order if these items build the record in any order (`Schema.read_object`).
Which item is picked for a part of the record does not depend on the order when there is one for it
(`findSome?_eq_of_perm`).

In the other direction, the items of a record that was read come from its members
(`Schema.items_of_read`), so what is read from a text is made of what stands in the text.
-/

namespace SodiumDecl.Json

/-! ## Whole texts -/

section Readers

variable {α : Type} {read : Reader α}

theorem decode_eq_ok {text : String} {a : α} :
    decode read text = .ok a ↔
      read (Json.read text).root = .ok a ∧ (Json.read text).trailing = false := by
  unfold decode
  rw [bind_eq_ok]
  cases (Json.read text).trailing <;> simp

/-- What is read from the tree of a value is read from its text. -/
theorem decode_text {v : Value} {a : α} (hv : v.Integral) (h : read v.tree = .ok a) :
    decode read v.text = .ok a := by
  rw [decode_eq_ok, Value.text, hv.reads.read_eq]
  exact ⟨h, rfl⟩

/-! ## Single values and arrays -/

theorem readValue_eq_ok {limit : Nat} {t : Tree} {v : Value} :
    readValue limit t = .ok v ↔ t.value? limit = some v := by
  unfold readValue
  cases t.value? limit <;> simp

theorem readOptional_eq_some {t : Tree} {a : α} :
    readOptional read t = .ok (some a) ↔ t ≠ .null ∧ read t = .ok a := by
  cases t <;> simp [readOptional, map_eq_ok]

theorem readArray_eq_ok {t : Tree} {as : List α} :
    readArray read t = .ok as ↔
      ∃ ts, t = .array ts true ∧ List.Forall₂ (fun t a => read t = .ok a) ts as := by
  cases t with
  | array ts closed => cases closed <;> simp [readArray, bind_eq_ok, mapM_eq_ok]
  | _ => simp [readArray]

/-- Elements that are read one by one are read as an array. -/
theorem readArray_tree {as : List α} {f : α → Value}
    (h : ∀ a ∈ as, read (f a).tree = .ok a) :
    readArray read (Value.array (as.map f)).tree = .ok as := by
  rw [readArray_eq_ok]
  refine ⟨_, rfl, ?_⟩
  rw [trees_eq_map, List.map_map, List.forall₂_map_left_iff, List.forall₂_same]
  exact h

/-- The elements of an array that was read. -/
theorem exists_written_of_readArray {t : Tree} (ht : t.Written) {as : List α}
    (h : readArray read t = .ok as) {a : α} (ha : a ∈ as) :
    ∃ u : Tree, u.Written ∧ read u = .ok a := by
  obtain ⟨ts, rfl, hts⟩ := readArray_eq_ok.mp h
  obtain ⟨u, hu, hua⟩ := exists_of_forall₂ hts ha
  cases ht with
  | array _ _ hwritten => exact ⟨u, hwritten u hu, hua⟩

end Readers

/-! ## Orders of members -/

/-- A way to order the members of an object. -/
structure MemberOrder where
  arrange : List (String × Value) → List (String × Value)
  perm : ∀ ms, (ms.map Prod.fst).Nodup → (arrange ms).Perm ms

namespace MemberOrder

/-- The members as they are declared. -/
def declared : MemberOrder := ⟨id, fun _ _ => List.Perm.refl _⟩

/-- The members in the order of their keys. -/
def sorted : MemberOrder := ⟨sortMembers, fun _ => perm_sortMembers⟩

/-- The object of these members. -/
def object (o : MemberOrder) (ms : List (String × Value)) : Value := .object (o.arrange ms)

theorem integral_object (o : MemberOrder) {ms : List (String × Value)}
    (hkeys : (ms.map Prod.fst).Nodup) (h : ∀ m ∈ ms, m.2.Integral) : (o.object ms).Integral :=
  .object _ fun m hm => h m ((o.perm ms hkeys).mem_iff.mp hm)

end MemberOrder

/-! ## Items -/

/-- Where there is at most one item for a part of a record, their order does not matter. -/
theorem findSome?_eq_of_perm {ι β : Type} {items items' : List ι} (h : items'.Perm items)
    {pick : ι → Option β} (hone : (items.filterMap pick).length ≤ 1) :
    items'.findSome? pick = items.findSome? pick := by
  have hperm : (items'.filterMap pick).Perm (items.filterMap pick) := h.filterMap pick
  have heq : items'.filterMap pick = items.filterMap pick := by
    cases hi : items.filterMap pick with
    | nil => exact List.perm_nil.mp (hi ▸ hperm)
    | cons b bs =>
      obtain rfl : bs = [] := by simpa [hi] using hone
      exact List.perm_singleton.mp (hi ▸ hperm)
  rw [← List.head?_filterMap, ← List.head?_filterMap, heq]

/-- An optional part that is not the default is that of an item. -/
theorem exists_of_optional {ι β : Type} {items : List ι} {default b : β} {pick : ι → Option β}
    (h : optional default pick items = b) (hne : b ≠ default) : ∃ i ∈ items, pick i = some b := by
  cases hpick : items.findSome? pick with
  | none => exact absurd (by simpa [optional, hpick] using h.symm) hne
  | some c =>
    obtain rfl : c = b := by simpa [optional, hpick] using h
    exact List.exists_of_findSome?_eq_some hpick

namespace Schema

variable {ι α : Type}

/-- What a member gives: an item of its key, or nothing if the key is not known. -/
inductive Yields (s : Schema ι α) : Option String × Tree → Option (String × ι) → Prop
  | unknown {k : String} {t : Tree} (hk : s.fields.lookup k = none) (ht : t.isIntact = true) :
    s.Yields (some k, t) none
  | known {k : String} {t : Tree} {read : Reader ι} {i : ι} (hk : s.fields.lookup k = some read)
    (ht : read t = .ok i) : s.Yields (some k, t) (some (k, i))

/-- Members are read when each of them gives something and no known key is repeated. -/
theorem readMembers_eq_ok {s : Schema ι α} {ms : List (Option String × Tree)} {seen : List String}
    {items : List ι} : s.readMembers seen ms = .ok items ↔
      ∃ os, List.Forall₂ s.Yields ms os ∧ items = os.reduceOption.map Prod.snd ∧
        (os.reduceOption.map Prod.fst).Nodup ∧ ∀ k ∈ os.reduceOption.map Prod.fst, k ∉ seen := by
  induction ms generalizing seen items with
  | nil => simp [readMembers, eq_comm]
  | cons m ms ih =>
    obtain ⟨_ | k, t⟩ := m
    · have hnone (o : Option (String × ι)) : ¬s.Yields (none, t) o := fun h => nomatch h
      simp [readMembers, List.forall₂_cons_left_iff, hnone]
    rw [readMembers]
    constructor
    · intro h
      split at h
      · next hk =>
        split at h
        · next ht =>
          obtain ⟨os, hos, hitems, hnodup, hseen⟩ := ih.mp h
          exact ⟨none :: os, .cons (.unknown hk ht) hos, hitems, hnodup, hseen⟩
        · exact nomatch h
      · next read hk =>
        split at h
        · exact nomatch h
        · next hnew =>
          obtain ⟨i, hi, h⟩ := bind_eq_ok.mp h
          obtain ⟨rest, hrest, h⟩ := bind_eq_ok.mp h
          obtain rfl := Except.ok.inj h
          obtain ⟨os, hos, rfl, hnodup, hseen⟩ := ih.mp hrest
          refine ⟨some (k, i) :: os, .cons (.known hk hi) hos, rfl, ?_, ?_⟩
          · exact List.nodup_cons.mpr ⟨fun hmem => hseen k hmem List.mem_cons_self, hnodup⟩
          · refine List.forall_mem_cons.mpr ⟨hnew, fun k' hk' hmem => ?_⟩
            exact hseen k' hk' (List.mem_cons_of_mem _ hmem)
    · rintro ⟨os, hos, rfl, hnodup, hseen⟩
      cases hos with
      | cons hm hos =>
        cases hm with
        | unknown hk ht =>
          rw [hk]
          dsimp only
          rw [if_pos ht]
          exact ih.mpr ⟨_, hos, rfl, hnodup, hseen⟩
        | @known _ _ read i hk hi =>
          obtain ⟨hfirst, hnodup⟩ := List.nodup_cons.mp hnodup
          obtain ⟨hnew, hlater⟩ := List.forall_mem_cons.mp hseen
          have hrest := ih.mpr ⟨_, hos, rfl, hnodup, fun k' hk' hmem => by
            rcases List.mem_cons.mp hmem with rfl | hmem
            · exact hfirst hk'
            · exact hlater k' hk' hmem⟩
          rw [hk]
          dsimp only
          rw [if_neg hnew, hi, hrest]
          rfl

/-- A record is read from its members. -/
theorem read_object_eq_ok {s : Schema ι α} {origin : Origin} {ms : List (Option String × Tree)}
    {a : α} : s.read origin (.object ms true) = .ok a ↔
      ∃ os, List.Forall₂ s.Yields ms os ∧ (os.reduceOption.map Prod.fst).Nodup ∧
        s.build (os.reduceOption.map Prod.snd) = .ok a := by
  simp only [Schema.read, bind_eq_ok, readMembers_eq_ok, if_true, mapError_eq_ok]
  constructor
  · rintro ⟨_, ⟨os, hos, rfl, hnodup, -⟩, hbuild⟩
    exact ⟨os, hos, hnodup, hbuild⟩
  · rintro ⟨os, hos, hnodup, hbuild⟩
    exact ⟨_, ⟨os, hos, rfl, hnodup, fun _ _ h => nomatch h⟩, hbuild⟩

/-- The member gives the item. -/
def Gives (s : Schema ι α) (m : String × Value) (i : ι) : Prop :=
  ∃ read, s.fields.lookup m.1 = some read ∧ read m.2.tree = .ok i

theorem exists_yields_of_gives {s : Schema ι α} {ms : List (String × Value)} {items : List ι}
    (h : List.Forall₂ s.Gives ms items) :
    ∃ os, List.Forall₂ s.Yields (Value.memberTrees ms) os ∧
      os.reduceOption.map Prod.fst = ms.map Prod.fst ∧ os.reduceOption.map Prod.snd = items := by
  induction h with
  | nil => exact ⟨[], .nil, rfl, rfl⟩
  | @cons m i ms items hm _ ih =>
    obtain ⟨read, hlookup, hread⟩ := hm
    obtain ⟨os, hos, hkeys, hitems⟩ := ih
    exact ⟨some (m.1, i) :: os, .cons (.known hlookup hread) hos, congrArg (m.1 :: ·) hkeys,
      congrArg (i :: ·) hitems⟩

/-- A record that is built from the items in any order is read from members that give them. -/
theorem read_object {s : Schema ι α} (origin : Origin) (o : MemberOrder)
    {ms : List (String × Value)} {items : List ι} {a : α} (hkeys : (ms.map Prod.fst).Nodup)
    (h : List.Forall₂ s.Gives ms items) (hbuild : ∀ is, is.Perm items → s.build is = .ok a) :
    s.read origin (o.object ms).tree = .ok a := by
  have hperm := o.perm ms hkeys
  obtain ⟨is, hgives, his⟩ := List.perm_comp_forall₂ hperm h
  obtain ⟨os, hos, hfst, hsnd⟩ := exists_yields_of_gives hgives
  refine read_object_eq_ok.mpr ⟨os, hos, ?_, ?_⟩
  · rw [hfst]
    exact (hperm.map Prod.fst).nodup_iff.mpr hkeys
  · rw [hsnd]
    exact hbuild is his

/-- The item was read from something in the text, by the reader of a member. -/
def Source (s : Schema ι α) (i : ι) : Prop :=
  ∃ f ∈ s.fields, ∃ t : Tree, t.Written ∧ f.2 t = .ok i

theorem source_of_yields {s : Schema ι α} {ms : List (Option String × Tree)}
    (hms : ∀ m ∈ ms, m.2.Written) {os : List (Option (String × ι))}
    (h : List.Forall₂ s.Yields ms os) : ∀ i ∈ os.reduceOption.map Prod.snd, s.Source i := by
  intro i hi
  obtain ⟨⟨k, i⟩, hki, rfl⟩ := List.mem_map.mp hi
  obtain ⟨m, hm, hyields⟩ := exists_of_forall₂ h (List.reduceOption_mem_iff.mp hki)
  cases hyields with
  | @known k t read i hlookup hread =>
    obtain ⟨l, r, hfields, -⟩ := List.lookup_eq_some_iff.mp hlookup
    refine ⟨(k, read), ?_, t, hms _ hm, hread⟩
    rw [hfields]
    exact List.mem_append_right _ List.mem_cons_self

theorem source_of_readElems {fs : List (String × Reader ι)} {ts : List Tree}
    (hts : ∀ t ∈ ts, t.Written) {items : List ι} (h : readElems fs ts = .ok items) :
    ∀ i ∈ items, ∃ f ∈ fs, ∃ t : Tree, t.Written ∧ f.2 t = .ok i := by
  induction fs generalizing ts items with
  | nil =>
    obtain rfl : [] = items := by simpa [readElems] using h
    exact fun _ hi => nomatch hi
  | cons f fs ih =>
    cases ts with
    | nil =>
      obtain rfl : [] = items := by simpa [readElems] using h
      exact fun _ hi => nomatch hi
    | cons t ts =>
      obtain ⟨ht, hts⟩ := List.forall_mem_cons.mp hts
      obtain ⟨i, hi, h⟩ := bind_eq_ok.mp h
      obtain ⟨rest, hrest, h⟩ := bind_eq_ok.mp h
      obtain rfl : i :: rest = items := by simpa using h
      refine List.forall_mem_cons.mpr ⟨⟨f, List.mem_cons_self, t, ht, hi⟩, fun j hj => ?_⟩
      obtain ⟨g, hg, u, hu, hj⟩ := ih hts hrest j hj
      exact ⟨g, List.mem_cons_of_mem _ hg, u, hu, hj⟩

/-- A record that was read is built from items of the text. -/
theorem items_of_read {s : Schema ι α} {origin : Origin} {t : Tree} (ht : t.Written) {a : α}
    (h : s.read origin t = .ok a) :
    ∃ items, s.build items = .ok a ∧ ∀ i ∈ items, s.Source i := by
  cases ht with
  | object ms closed hms =>
    cases closed with
    | false => simp [Schema.read, bind_eq_ok] at h
    | true =>
      obtain ⟨os, hos, -, hbuild⟩ := read_object_eq_ok.mp h
      exact ⟨_, hbuild, source_of_yields hms hos⟩
  | array ts closed hts =>
    obtain ⟨items, hitems, h⟩ := bind_eq_ok.mp h
    refine ⟨items, ?_, source_of_readElems hts hitems⟩
    cases closed with
    | false => simp at h
    | true =>
      rw [if_neg (by decide)] at h
      split at h
      · cases origin <;> simp at h
      · simpa [mapError_eq_ok] using h
  | _ => simp [Schema.read] at h

end Schema

end SodiumDecl.Json
