import SodiumDecl.Proofs.Recognition
import SodiumDecl.Proofs.Records
import SodiumDecl.Wrapper.Constant
import SodiumDecl.Wrapper.Symbol

/-!
# Descriptions with their members rearranged

`Rearranged layout t u` says that the object `u` comes from the object `t` by changes of its
members: they are permuted, members whose keys are not in the layout are added and dropped, with any
JSON values and any repetitions, and the values of members of the layout are changed as it allows.
The layout of a symbol allows the same for each of its parameters and for each of its checks.

A record is read from rearranged members as before (`Rearranged.read_eq`) if its schema knows the
keys of the layout and builds the record from items in any order (`Schema.Follows`). One change is
dealt with at a time. So a text describes what any text describes whose members are rearranged
(`parse_rearranged`).

The key of a member that is added has to be a text. A key with half of a surrogate pair is JSON and
is no key of the layout, but nothing can be read where it stands (`parse_member_without_text`).
-/

namespace SodiumDecl.Json

/-! ## Rearranged trees -/

/-- The keys that are known in an object, each with the changes of its value that are allowed. -/
abbrev Layout := List (String × (Tree → Tree → Prop))

/-- Arrays whose elements are changed one by one. -/
inductive Elementwise (r : Tree → Tree → Prop) : Tree → Tree → Prop
  | array {ts us : List Tree} (h : List.Forall₂ r ts us) :
    Elementwise r (.array ts true) (.array us true)

/-- The members of an object are changed one after the other. The key of a new member is a text that
the layout does not have, its value is any JSON, and a permutation puts it anywhere. There are no
new members whose keys name no text: the reader refuses them, whatever their values. -/
inductive Rearranged (layout : Layout) : Tree → Tree → Prop
  | refl (t : Tree) : Rearranged layout t t
  | permute {ms ns : List (Option String × Tree)} (h : ms.Perm ns) :
    Rearranged layout (.object ms true) (.object ns true)
  | insert {ms : List (Option String × Tree)} {k : String} {cs : List Char} {t : Tree}
    (hk : layout.lookup k = none) (ht : Spells cs t) :
    Rearranged layout (.object ms true) (.object ((some k, t) :: ms) true)
  | remove {ms : List (Option String × Tree)} {k : String} {t : Tree}
    (hk : layout.lookup k = none) :
    Rearranged layout (.object ((some k, t) :: ms) true) (.object ms true)
  | change {ms : List (Option String × Tree)} {k : String} {t u : Tree} {r : Tree → Tree → Prop}
    (hk : layout.lookup k = some r) (h : r t u) :
    Rearranged layout (.object ((some k, t) :: ms) true) (.object ((some k, u) :: ms) true)
  | trans {t u v : Tree} (h : Rearranged layout t u) (h' : Rearranged layout u v) :
    Rearranged layout t v

/-! ## Readers that do not see the changes -/

section Readers

variable {α β : Type} {r : Tree → Tree → Prop} {read : Reader α}

/-- What is read before a change is read after it. -/
def Respects (r : Tree → Tree → Prop) (read : Reader α) : Prop :=
  ∀ ⦃t u : Tree⦄ ⦃a : α⦄, r t u → read t = .ok a → read u = .ok a

theorem respects_eq (read : Reader α) : Respects Eq read := by
  rintro t _ a rfl h
  exact h

theorem Respects.map (h : Respects r read) (f : α → β) : Respects r fun t => (read t).map f := by
  intro t u b htu hb
  obtain ⟨a, ha, rfl⟩ := map_eq_ok.mp hb
  exact map_eq_ok.mpr ⟨a, h htu ha, rfl⟩

theorem Respects.readArray (h : Respects r read) :
    Respects (Elementwise r) (readArray read) := by
  rintro _ _ as ⟨htu⟩ hread
  obtain ⟨ts, heq, hts⟩ := readArray_eq_ok.mp hread
  obtain ⟨rfl, -⟩ := Tree.array.inj heq
  refine readArray_eq_ok.mpr ⟨_, rfl, ?_⟩
  clear hread heq
  induction htu generalizing as with
  | nil => simpa using hts
  | cons hr _ ih =>
    cases hts with
    | cons ha hts => exact .cons (h hr ha) (ih hts)

end Readers

/-! ## Items in any order -/

section Items

variable {ι β : Type} {key : ι → String} {items items' : List ι} {k : String}
  {pick : ι → Option β}

/-- At most one item is picked by its key, when no key is repeated. -/
theorem length_filterMap_le_one (hnodup : (items.map key).Nodup)
    (hpick : ∀ i b, pick i = some b → key i = k) : (items.filterMap pick).length ≤ 1 := by
  induction items with
  | nil => simp
  | cons i items ih =>
    obtain ⟨hfirst, hnodup⟩ := List.nodup_cons.mp hnodup
    cases hi : pick i with
    | none => simpa [hi] using ih hnodup
    | some b =>
      have hlater : items.filterMap pick = [] := by
        refine List.filterMap_eq_nil_iff.mpr fun j hj => Option.eq_none_iff_forall_ne_some.mpr ?_
        intro c hc
        have hkey : key j = key i := (hpick j c hc).trans (hpick i b hi).symm
        exact hfirst (hkey ▸ List.mem_map_of_mem hj)
      simp [hi, hlater]

theorem required_eq_of_perm (h : items'.Perm items) (hnodup : (items.map key).Nodup)
    (name : String) (hpick : ∀ i b, pick i = some b → key i = k) :
    required name pick items' = required name pick items := by
  rw [required, required, findSome?_eq_of_perm h (length_filterMap_le_one hnodup hpick)]

theorem optional_eq_of_perm (h : items'.Perm items) (hnodup : (items.map key).Nodup)
    (default : β) (hpick : ∀ i b, pick i = some b → key i = k) :
    optional default pick items' = optional default pick items := by
  rw [optional, optional, findSome?_eq_of_perm h (length_filterMap_le_one hnodup hpick)]

end Items

/-! ## Records -/

section Records

variable {ι α : Type} {s : Schema ι α} {layout : Layout} {key : ι → String}

/-- The reader of a member gives items of its key, and does not see the changes that are allowed. -/
structure Schema.FollowsField (key : ι → String) (f : String × Reader ι)
    (g : String × (Tree → Tree → Prop)) : Prop where
  name : f.1 = g.1
  key : ∀ t i, f.2 t = .ok i → key i = f.1
  change : Respects g.2 f.2

/-- The schema has the keys of the layout, and what it builds does not depend on the order of the
items. -/
structure Schema.Follows (s : Schema ι α) (layout : Layout) (key : ι → String) : Prop where
  fields : List.Forall₂ (FollowsField key) s.fields layout
  build : ∀ items items' : List ι, items'.Perm items → (items.map key).Nodup →
    s.build items' = s.build items

theorem Schema.FollowsField.map {β : Type} {k : String} {read : Reader β}
    {r : Tree → Tree → Prop} {f : β → ι} (h : Respects r read) (hk : ∀ b, key (f b) = k) :
    FollowsField key (k, fun t => (read t).map f) (k, r) where
  name := rfl
  key t i hi := by
    obtain ⟨b, -, rfl⟩ := map_eq_ok.mp hi
    exact hk b
  change := h.map f

/-- A key is known to both or to none. -/
theorem lookup_cases {fields : List (String × Reader ι)}
    (h : List.Forall₂ (Schema.FollowsField key) fields layout) (k : String) :
    (fields.lookup k = none ∧ layout.lookup k = none) ∨
      ∃ read r, fields.lookup k = some read ∧ layout.lookup k = some r ∧
        (∀ t i, read t = .ok i → key i = k) ∧ Respects r read := by
  induction h with
  | nil => exact Or.inl ⟨rfl, rfl⟩
  | @cons f g fields layout hfg _ ih =>
    obtain ⟨k', read⟩ := f
    obtain ⟨k'', r⟩ := g
    obtain rfl : k' = k'' := hfg.name
    by_cases hk : k = k'
    · obtain rfl := hk
      exact Or.inr ⟨read, r, List.lookup_cons_self, List.lookup_cons_self, hfg.key, hfg.change⟩
    · have hbeq : (k == k') = false := beq_false_of_ne hk
      simpa only [List.lookup_cons, hbeq] using ih

variable (hs : s.Follows layout key)

include hs

theorem Schema.Follows.lookup_eq_none {k : String} (hk : layout.lookup k = none) :
    s.fields.lookup k = none := by
  rcases lookup_cases hs.fields k with ⟨hnone, -⟩ | ⟨-, r, -, hr, -⟩
  · exact hnone
  · exact nomatch hk.symm.trans hr

theorem Schema.Follows.lookup_eq_some {k : String} {r : Tree → Tree → Prop}
    (hk : layout.lookup k = some r) :
    ∃ read, s.fields.lookup k = some read ∧ Respects r read := by
  rcases lookup_cases hs.fields k with ⟨-, hnone⟩ | ⟨read, r', hread, hr, -, hrespects⟩
  · exact nomatch hk.symm.trans hnone
  · obtain rfl := Option.some.inj (hk.symm.trans hr)
    exact ⟨read, hread, hrespects⟩

theorem Schema.Follows.keys {ms : List (Option String × Tree)} {os : List (Option (String × ι))}
    (h : List.Forall₂ s.Yields ms os) :
    (os.reduceOption.map Prod.snd).map key = os.reduceOption.map Prod.fst := by
  rw [List.map_map]
  refine List.map_congr_left fun p hp => ?_
  obtain ⟨m, -, hyields⟩ := exists_of_forall₂ h (List.reduceOption_mem_iff.mp hp)
  cases hyields with
  | @known k t read i hk hi =>
    rcases lookup_cases hs.fields k with ⟨hnone, -⟩ | ⟨read', r, hread, -, hkey, -⟩
    · simp [hk] at hnone
    · obtain rfl := Option.some.inj (hk.symm.trans hread)
      exact hkey t i hi

/-- A record is read from rearranged members as before. -/
theorem Rearranged.read_eq {origin : Origin} {t u : Tree} (h : Rearranged layout t u) {a : α}
    (hr : s.read origin t = .ok a) : s.read origin u = .ok a := by
  induction h with
  | refl => exact hr
  | trans _ _ ih ih' => exact ih' (ih hr)
  | permute h =>
    obtain ⟨os, hos, hnodup, hbuild⟩ := Schema.read_object_eq_ok.mp hr
    obtain ⟨os', hos', hperm⟩ := List.perm_comp_forall₂ h.symm hos
    have hitems : os'.reduceOption.Perm os.reduceOption := hperm.filterMap id
    refine Schema.read_object_eq_ok.mpr ⟨os', hos', ?_, ?_⟩
    · exact (hitems.map Prod.fst).nodup_iff.mpr hnodup
    · rw [hs.build _ _ (hitems.map Prod.snd) (by rwa [hs.keys hos]), hbuild]
  | insert hk ht =>
    obtain ⟨os, hos, hbuilds⟩ := Schema.read_object_eq_ok.mp hr
    have hmember := Schema.Yields.unknown (hs.lookup_eq_none hk) ht.isIntact
    exact Schema.read_object_eq_ok.mpr ⟨none :: os, .cons hmember hos, hbuilds⟩
  | remove hk =>
    obtain ⟨_, hos, hbuilds⟩ := Schema.read_object_eq_ok.mp hr
    cases hos with
    | cons hm hos =>
      cases hm with
      | unknown => exact Schema.read_object_eq_ok.mpr ⟨_, hos, hbuilds⟩
      | known hknown => exact nomatch (hs.lookup_eq_none hk).symm.trans hknown
  | change hk h =>
    obtain ⟨_, hos, hbuilds⟩ := Schema.read_object_eq_ok.mp hr
    obtain ⟨read, hread, hrespects⟩ := hs.lookup_eq_some hk
    cases hos with
    | cons hm hos =>
      cases hm with
      | unknown hunknown => exact nomatch hunknown.symm.trans hread
      | known hknown ht =>
        obtain rfl := Option.some.inj (hknown.symm.trans hread)
        exact Schema.read_object_eq_ok.mpr ⟨_, .cons (.known hread (hrespects h ht)) hos, hbuilds⟩

end Records

end SodiumDecl.Json

namespace SodiumDecl.Wrapper

open Json

/-! ## The layouts of descriptions -/

/-- Keys whose values stay as they are. -/
def plainLayout (ks : List String) : Layout := ks.map fun k => (k, Eq)

namespace ReturnCheck

def layout : Layout := plainLayout ["condition", "or_else_throw"]

/-- The key of a member. -/
def Member.key : Member → String
  | .condition _ => "condition"
  | .orElseThrow _ => "or_else_throw"

theorem follows : schema.Follows layout Member.key where
  fields :=
    .cons (.map (respects_eq _) fun _ => rfl) <|
    .cons (.map (respects_eq _) fun _ => rfl) .nil
  build items items' h hn := by
    simp only [schema, ofMembers]
    rw [required_eq_of_perm (k := "condition") h hn,
      required_eq_of_perm (k := "or_else_throw") h hn]
    all_goals
      intro i b
      cases i <;> simp [Member.key]

end ReturnCheck

namespace Constant

def layout : Layout := plainLayout ["name", "type"]

/-- The key of a member. -/
def Member.key : Member → String
  | .name _ => "name"
  | .type _ => "type"

theorem follows : schema.Follows layout Member.key where
  fields :=
    .cons (.map (respects_eq _) fun _ => rfl) <|
    .cons (.map (respects_eq _) fun _ => rfl) .nil
  build items items' h hn := by
    simp only [schema, ofMembers]
    rw [required_eq_of_perm (k := "name") h hn, required_eq_of_perm (k := "type") h hn]
    all_goals
      intro i b
      cases i <;> simp [Member.key]

end Constant

namespace Parameter

def layout : Layout := plainLayout ["name", "type", "size", "optional"]

/-- The key of a member. -/
def Member.key : Member → String
  | .name _ => "name"
  | .type _ => "type"
  | .size _ => "size"
  | .optional _ => "optional"

theorem follows : schema.Follows layout Member.key where
  fields :=
    .cons (.map (respects_eq _) fun _ => rfl) <|
    .cons (.map (respects_eq _) fun _ => rfl) <|
    .cons (.map (respects_eq _) fun _ => rfl) <|
    .cons (.map (respects_eq _) fun _ => rfl) .nil
  build items items' h hn := by
    simp only [schema, ofMembers]
    rw [required_eq_of_perm (k := "name") h hn, required_eq_of_perm (k := "type") h hn,
      optional_eq_of_perm (k := "size") h hn, optional_eq_of_perm (k := "optional") h hn]
    all_goals
      intro i b
      cases i <;> simp [Member.key]

end Parameter

namespace Symbol

/-- A symbol's members, and those of its parameters and of its checks, may be rearranged. -/
def layout : Layout := [
  ("name", Eq),
  ("inputs", Elementwise (Rearranged Parameter.layout)),
  ("outputs", Elementwise (Rearranged Parameter.layout)),
  ("return", Eq),
  ("noOutputFormat", Eq),
  ("target", Eq),
  ("dependencies", Eq),
  ("assert_retval", Elementwise (Rearranged ReturnCheck.layout))]

/-- The key of a member. -/
def Member.key : Member → String
  | .name _ => "name"
  | .inputs _ => "inputs"
  | .outputs _ => "outputs"
  | .returns _ => "return"
  | .noOutputFormat _ => "noOutputFormat"
  | .target _ => "target"
  | .dependencies _ => "dependencies"
  | .returnChecks _ => "assert_retval"

theorem follows (origin : Origin) : (schema origin).Follows layout Member.key where
  fields := by
    have hparameter : Respects (Rearranged Parameter.layout) (Parameter.schema.read origin) :=
      fun _ _ _ h => h.read_eq Parameter.follows
    have hcheck : Respects (Rearranged ReturnCheck.layout) (ReturnCheck.schema.read origin) :=
      fun _ _ _ h => h.read_eq ReturnCheck.follows
    exact .cons (.map (respects_eq _) fun _ => rfl) <|
      .cons (.map hparameter.readArray fun _ => rfl) <|
      .cons (.map hparameter.readArray fun _ => rfl) <|
      .cons (.map (respects_eq _) fun _ => rfl) <|
      .cons (.map (respects_eq _) fun _ => rfl) <|
      .cons (.map (respects_eq _) fun _ => rfl) <|
      .cons (.map (respects_eq _) fun _ => rfl) <|
      .cons (.map hcheck.readArray fun _ => rfl) .nil
  build items items' h hn := by
    simp only [schema, ofMembers]
    rw [required_eq_of_perm (k := "name") h hn, optional_eq_of_perm (k := "inputs") h hn,
      optional_eq_of_perm (k := "outputs") h hn, optional_eq_of_perm (k := "return") h hn,
      optional_eq_of_perm (k := "noOutputFormat") h hn, optional_eq_of_perm (k := "target") h hn,
      optional_eq_of_perm (k := "dependencies") h hn,
      optional_eq_of_perm (k := "assert_retval") h hn]
    all_goals
      intro i b
      cases i <;> simp [Member.key]

end Symbol

/-! ## Texts -/

section Texts

variable {α ι : Type} {read : Reader α} {r : Tree → Tree → Prop} {a b : String} {t u : Tree} {x : α}

/-- What a changed text describes is what the text described, if the reader does not see the
change. -/
theorem decode_of_spells (h : Respects r read) (ha : Spells a.toList t) (hb : Spells b.toList u)
    (htu : r t u) (hx : decode read a = .ok x) : decode read b = .ok x := by
  rw [decode_eq_ok, ha.read_eq] at hx
  rw [decode_eq_ok, hb.read_eq]
  exact ⟨h htu hx.1, rfl⟩

/-- A text that describes something is JSON, if only whole trees are read. -/
theorem exists_spells_of_decode (h : ∀ t x, read t = .ok x → t.isIntact = true)
    (hx : decode read a = .ok x) : ∃ t, Spells a.toList t := by
  obtain ⟨hroot, htrailing⟩ := decode_eq_ok.mp hx
  exact ⟨_, spells_of_read (by rw [← htrailing]) (h _ _ hroot)⟩

theorem isIntact_of_read {s : Schema ι α} {origin : Origin} (h : s.read origin t = .ok x) :
    t.isIntact = true := by
  cases t with
  | object ms closed => cases closed <;> simp [Schema.read, bind_eq_ok, Tree.isIntact] at h ⊢
  | array ts closed => cases closed <;> simp [Schema.read, bind_eq_ok, Tree.isIntact] at h ⊢
  | _ => simp [Schema.read] at h

end Texts

/-- Every text that describes a symbol is JSON, and any text with its members rearranged describes
the same symbol, whatever members that are not known come or go. The same holds of the constants in
a list. -/
theorem parse_rearranged :
    (∀ {a : String} {s : Symbol}, Symbol.parse a = .ok s → (∃ t, Spells a.toList t) ∧
      ∀ {b : String} {t u : Tree}, Spells a.toList t → Spells b.toList u →
        Rearranged Symbol.layout t u → Symbol.parse b = .ok s) ∧
    ∀ {a : String} {cs : List Constant}, Constant.parseList a = .ok cs →
      (∃ t, Spells a.toList t) ∧
      ∀ {b : String} {t u : Tree}, Spells a.toList t → Spells b.toList u →
        Elementwise (Rearranged Constant.layout) t u → Constant.parseList b = .ok cs := by
  have hsymbol : Respects (Rearranged Symbol.layout) ((Symbol.schema .text).read .text) :=
    fun _ _ _ h => h.read_eq (Symbol.follows .text)
  have hconstant : Respects (Rearranged Constant.layout) (Constant.schema.read .text) :=
    fun _ _ _ h => h.read_eq Constant.follows
  constructor
  · intro a s hs
    refine ⟨exists_spells_of_decode (fun _ _ => isIntact_of_read) hs, fun ha hb h => ?_⟩
    exact decode_of_spells hsymbol ha hb h hs
  · intro a cs hcs
    refine ⟨exists_spells_of_decode (fun t x hx => ?_) hcs, fun ha hb h => ?_⟩
    · obtain ⟨ts, rfl, -⟩ := readArray_eq_ok.mp hx
      rfl
    · exact decode_of_spells hconstant.readArray ha hb h hcs

/-! ## A rearranged description -/

def plainText : String :=
  "\x7b\"name\":\"f\",\"inputs\":[\x7b\"name\":\"x\",\"type\":\"t\"\x7d]\x7d"

/-- The members are in other orders, and each object has one that is not known. -/
def rearrangedText : String :=
  "\x7b\"n\":[\"\\ud800\"],\"inputs\":[" ++
    "\x7b\"u\":\x7b\x7d,\"type\":\"t\",\"name\":\"x\"\x7d],\"name\":\"f\"\x7d"

/-- A parameter, and the same one after its members are rearranged. -/
def plainParameter : List (Option String × Tree) :=
  [(some "name", .string (some "x")), (some "type", .string (some "t"))]

def rearrangedParameter : List (Option String × Tree) :=
  (some "u", .object [] true) :: plainParameter.reverse

theorem rearranged_sampleParameter : Rearranged Parameter.layout (.object plainParameter true)
    (.object rearrangedParameter true) :=
  .trans (.permute plainParameter.reverse_perm.symm) (.insert rfl (.emptyObject blanks_nil))

theorem parse_rearranged_sample :
    Symbol.parse plainText = .ok { name := "f", inputs := [{ name := "x", type := "t" }] } ∧
      Symbol.parse rearrangedText =
        .ok { name := "f", inputs := [{ name := "x", type := "t" }] } ∧
      Constant.parseList "[\x7b\"name\":\"A\",\"type\":\"uint\"\x7d]" = .ok [⟨"A", "uint"⟩] ∧
      Constant.parseList "[\x7b\"type\":\"uint\", \"name\":\"A\"\x7d]" = .ok [⟨"A", "uint"⟩] := by
  let name : Option String × Tree := (some "name", .string (some "f"))
  let inputs (ms : List (Option String × Tree)) : Option String × Tree :=
    (some "inputs", .array [.object ms true] true)
  let note : Tree := .array [.string none] true
  let constant : List (Option String × Tree) :=
    [(some "name", .string (some "A")), (some "type", .string (some "uint"))]
  have hplain : Json.read plainText = ⟨.object [name, inputs plainParameter] true, false⟩ := rfl
  have hrearranged : Json.read rearrangedText =
      ⟨.object [(some "n", note), inputs rearrangedParameter, name] true, false⟩ := rfl
  have hparse : Symbol.parse plainText =
      .ok { name := "f", inputs := [{ name := "x", type := "t" }] } := by
    rw [Symbol.parse, decode, hplain]
    rfl
  have hnote : Spells "[\"\\ud800\"]".toList note := spells_of_read rfl rfl
  have hsymbol : Rearranged Symbol.layout (.object [name, inputs plainParameter] true)
      (.object [(some "n", note), inputs rearrangedParameter, name] true) :=
    .trans (.permute (.swap _ _ _)) <|
      .trans (.change rfl (.array (.cons rearranged_sampleParameter .nil))) (.insert rfl hnote)
  have hconstants : Constant.parseList "[\x7b\"name\":\"A\",\"type\":\"uint\"\x7d]" =
      .ok [⟨"A", "uint"⟩] := by
    decide +kernel
  have hlist : Spells "[\x7b\"name\":\"A\",\"type\":\"uint\"\x7d]".toList
      (.array [.object constant true] true) := spells_of_read rfl rfl
  have hswapped : Spells "[\x7b\"type\":\"uint\", \"name\":\"A\"\x7d]".toList
      (.array [.object constant.reverse true] true) := spells_of_read rfl rfl
  refine ⟨hparse, (parse_rearranged.1 hparse).2 ?_ ?_ hsymbol, hconstants,
    (parse_rearranged.2 hconstants).2 hlist hswapped ?_⟩
  · exact spells_of_read hplain rfl
  · exact spells_of_read hrearranged rfl
  · exact .array (.cons (.permute constant.reverse_perm.symm) .nil)

/-- A member is added to a description, in JSON and under a key that is none of a symbol's, and the
description is not read any more: the key names no text. -/
theorem parse_member_without_text :
    let name : Option String × Tree := (some "name", .string (some "f"))
    let zero : Tree := .number (some (.integer 0))
    Symbol.parse "\x7b\"name\":\"f\"\x7d" = .ok { name := "f" } ∧
      Spells "\x7b\"name\":\"f\"\x7d".toList (.object [name] true) ∧
      Spells "0".toList zero ∧
      Spells "\x7b\"name\":\"f\",\"\\ud800\":0\x7d".toList
        (.object [name, (none, zero)] true) ∧
      ∀ s, Symbol.parse "\x7b\"name\":\"f\",\"\\ud800\":0\x7d" ≠ .ok s := by
  have hplain : Json.read "\x7b\"name\":\"f\"\x7d" =
      ⟨.object [(some "name", .string (some "f"))] true, false⟩ := rfl
  have hextended : Json.read "\x7b\"name\":\"f\",\"\\ud800\":0\x7d" =
      ⟨.object [(some "name", .string (some "f")), (none, .number (some (.integer 0)))] true,
        false⟩ := rfl
  refine ⟨?_, spells_of_read hplain rfl, spells_of_read rfl rfl,
    spells_of_read hextended rfl, fun s hs => ?_⟩
  · rw [Symbol.parse, decode, hplain]
    rfl
  · rw [Symbol.parse, decode_eq_ok, hextended] at hs
    exact nomatch hs.1

end SodiumDecl.Wrapper
