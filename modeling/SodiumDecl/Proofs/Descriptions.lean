import SodiumDecl.Proofs.Records
import SodiumDecl.Wrapper.Constant
import SodiumDecl.Wrapper.Symbol

/-!
# Descriptions read back

`describe` writes a descriptor as an object, with its members in any order. In the order of
their keys this is `value`, and in the declared order it is how a record is written member by
member.

What a text describes is read again from its description, for symbols and for lists of
constants (`parse_describe`). The strings may be anything. The sizes of parameters are what
the reader lets through (`Parameter.readable_of_read`): not null, nested within the limit, and
without equal keys. Only a double in a size need not come back.
-/

namespace SodiumDecl.Wrapper

open Json

/-! ## Return checks -/

namespace ReturnCheck

/-- The members of a check's description. -/
def members (c : ReturnCheck) : List (String × Value) :=
  [("condition", .string c.condition), ("or_else_throw", .string c.orElseThrow)]

/-- The description of a check, with its members in some order. -/
def describe (o : MemberOrder) (c : ReturnCheck) : Value := o.object c.members

theorem nodup_members (c : ReturnCheck) : (c.members.map Prod.fst).Nodup := by simp [members]

theorem integral_describe (o : MemberOrder) (c : ReturnCheck) : (c.describe o).Integral :=
  o.integral_object c.nodup_members (by simp [members, Value.Integral.string])

/-- A check is read from its description. -/
theorem read_describe (o : MemberOrder) (origin : Origin) (c : ReturnCheck) :
    schema.read origin (c.describe o).tree = .ok c := by
  have hgives : List.Forall₂ schema.Gives c.members
      [.condition c.condition, .orElseThrow c.orElseThrow] :=
    .cons ⟨_, rfl, rfl⟩ (.cons ⟨_, rfl, rfl⟩ .nil)
  refine schema.read_object origin o c.nodup_members hgives fun is his => ?_
  simp [schema, ofMembers, required, findSome?_eq_of_perm his]

end ReturnCheck

/-! ## Constants -/

namespace Constant

/-- The members of a constant's description. -/
def members (c : Constant) : List (String × Value) :=
  [("name", .string c.name), ("type", .string c.type)]

/-- The description of a constant, with its members in some order. -/
def describe (o : MemberOrder) (c : Constant) : Value := o.object c.members

theorem describe_sorted (c : Constant) : c.describe .sorted = c.value := rfl

theorem nodup_members (c : Constant) : (c.members.map Prod.fst).Nodup := by simp [members]

theorem integral_describe (o : MemberOrder) (c : Constant) : (c.describe o).Integral :=
  o.integral_object c.nodup_members (by simp [members, Value.Integral.string])

/-- A constant is read from its description. -/
theorem read_describe (o : MemberOrder) (origin : Origin) (c : Constant) :
    schema.read origin (c.describe o).tree = .ok c := by
  have hgives : List.Forall₂ schema.Gives c.members [.name c.name, .type c.type] :=
    .cons ⟨_, rfl, rfl⟩ (.cons ⟨_, rfl, rfl⟩ .nil)
  refine schema.read_object origin o c.nodup_members hgives fun is his => ?_
  simp [schema, ofMembers, required, findSome?_eq_of_perm his]

/-- Constants are read from the text of their descriptions. -/
theorem parseList_describe (o : MemberOrder) (cs : List Constant) :
    parseList (Value.array (cs.map (describe o))).text = .ok cs :=
  decode_text (.array_map fun c _ => c.integral_describe o)
    (readArray_tree fun c _ => c.read_describe o .text)

end Constant

/-! ## Parameters -/

namespace Parameter

/-- The members of a parameter's description. -/
def members (p : Parameter) : List (String × Value) :=
  [("name", .string p.name), ("type", .string p.type)]
    ++ (p.size.map fun v => ("size", v)).toList
    ++ [("optional", .bool p.optional)]

/-- The description of a parameter, with its members in some order. -/
def describe (o : MemberOrder) (p : Parameter) : Value := o.object p.members

theorem nodup_members (p : Parameter) : (p.members.map Prod.fst).Nodup := by
  cases hsize : p.size <;> simp [members, hsize]

/-- The size is one that the reader lets through. -/
def Readable (p : Parameter) : Prop :=
  ∀ v, p.size = some v → v ≠ .null ∧ v.Readable sizeLimit

/-- No double stands in the size. -/
def NoFloats (p : Parameter) : Prop := ∀ v, p.size = some v → ∀ bits, ¬v.Has (.float bits)

theorem mem_of_size {ms : List Member} {p : Parameter} (h : ofMembers ms = .ok p) {v : Value}
    (hv : p.size = some v) : .size (some v) ∈ ms := by
  obtain ⟨name, -, h⟩ := bind_eq_ok.mp h
  obtain ⟨type, -, h⟩ := bind_eq_ok.mp h
  obtain rfl := Except.ok.inj h
  obtain ⟨i, hi, hpick⟩ := exists_of_optional hv (by simp)
  cases i with
  | size w => simpa [Option.some.inj hpick] using hi
  | _ => simp at hpick

/-- A parameter that was read from a text. -/
theorem readable_of_read {origin : Origin} {t : Tree} (ht : t.Written) {p : Parameter}
    (h : schema.read origin t = .ok p) : p.Readable := by
  intro v hv
  obtain ⟨items, hbuild, hitems⟩ := Schema.items_of_read ht h
  obtain ⟨f, hf, u, hu, hread⟩ := hitems _ (mem_of_size hbuild hv)
  -- Only the reader of sizes gives a size.
  simp only [schema, List.mem_cons, List.not_mem_nil, or_false] at hf
  rcases hf with rfl | rfl | rfl | rfl <;> simp only [map_eq_ok] at hread
  · simp at hread
  · simp at hread
  · obtain ⟨w, hw, hsize⟩ := hread
    obtain rfl := Member.size.inj hsize
    obtain ⟨hnull, hvalue⟩ := readOptional_eq_some.mp hw
    have hvalue := readValue_eq_ok.mp hvalue
    refine ⟨?_, hu.readable hvalue⟩
    rintro rfl
    exact hnull (eq_null_of_value? hvalue)
  · simp at hread

theorem integral_describe (o : MemberOrder) {p : Parameter} (h : p.Readable) (hf : p.NoFloats) :
    (p.describe o).Integral := by
  refine o.integral_object p.nodup_members ?_
  cases hsize : p.size with
  | none => simp [members, hsize, Value.Integral.string, Value.Integral.bool]
  | some v =>
    have hv : v.Integral := (h v hsize).2.integral (hf v hsize)
    simp [members, hsize, Value.Integral.string, Value.Integral.bool, hv]

/-- The items that the members of a parameter's description give. -/
def items (p : Parameter) : List Member :=
  [.name p.name, .type p.type] ++ (p.size.map fun v => .size (some v)).toList
    ++ [.optional p.optional]

theorem gives_members {p : Parameter} (h : p.Readable) :
    List.Forall₂ schema.Gives p.members p.items := by
  cases hsize : p.size with
  | none =>
    simp only [members, items, hsize]
    exact .cons ⟨_, rfl, rfl⟩ (.cons ⟨_, rfl, rfl⟩ (.cons ⟨_, rfl, rfl⟩ .nil))
  | some v =>
    simp only [members, items, hsize]
    obtain ⟨hnull, hv⟩ := h v hsize
    have hread : readOptional (readValue sizeLimit) v.tree = .ok (some v) :=
      readOptional_eq_some.mpr ⟨tree_eq_null_iff.not.mpr hnull, readValue_eq_ok.mpr hv.value?_tree⟩
    refine .cons ⟨_, rfl, rfl⟩ (.cons ⟨_, rfl, rfl⟩ (.cons ⟨_, rfl, ?_⟩ (.cons ⟨_, rfl, rfl⟩ .nil)))
    rw [hread, map_ok]

theorem ofMembers_items {p : Parameter} {is : List Member} (h : is.Perm p.items) :
    ofMembers is = .ok p := by
  obtain ⟨name, type, _ | v, optional⟩ := p <;>
    simp [ofMembers, required, Json.optional, findSome?_eq_of_perm h, items]

/-- A parameter is read from its description. -/
theorem read_describe (o : MemberOrder) (origin : Origin) {p : Parameter} (h : p.Readable) :
    schema.read origin (p.describe o).tree = .ok p :=
  schema.read_object origin o p.nodup_members (gives_members h) fun _ => ofMembers_items

example : (describe .declared { name := "key", type := "buf" }).text =
    "\x7b\"name\":\"key\",\"type\":\"buf\",\"optional\":false\x7d" := by decide +kernel

end Parameter

/-! ## Symbols -/

namespace Symbol

/-- The members of a symbol's description, where the parts of the symbol are described with
their members in some order. -/
def members (o : MemberOrder) (s : Symbol) : List (String × Value) :=
  [("name", .string s.name),
    ("inputs", .array (s.inputs.map (Parameter.describe o))),
    ("outputs", .array (s.outputs.map (Parameter.describe o)))]
    ++ (s.returns.map fun r => ("return", Value.string r)).toList
    ++ [("noOutputFormat", .bool s.noOutputFormat)]
    ++ (s.target.map fun t => ("target", Value.string t)).toList
    ++ [("dependencies", .array (s.dependencies.map .string)),
      ("assert_retval", .array (s.returnChecks.map (ReturnCheck.describe o)))]

/-- The description of a symbol, with its members in some order. -/
def describe (o : MemberOrder) (s : Symbol) : Value := o.object (s.members o)

theorem describe_sorted (s : Symbol) : s.describe .sorted = s.value := rfl

theorem nodup_members (o : MemberOrder) (s : Symbol) : ((s.members o).map Prod.fst).Nodup := by
  cases hreturns : s.returns <;> cases htarget : s.target <;> simp [members, hreturns, htarget]

/-- The sizes of all parameters are such as the reader lets through. -/
def Readable (s : Symbol) : Prop := ∀ p ∈ s.inputs ++ s.outputs, p.Readable

/-- No double stands in the size of a parameter. -/
def NoFloats (s : Symbol) : Prop := ∀ p ∈ s.inputs ++ s.outputs, p.NoFloats

theorem mem_of_parameter {ms : List Member} {s : Symbol} (h : ofMembers ms = .ok s)
    {p : Parameter} (hp : p ∈ s.inputs ++ s.outputs) :
    ∃ ps, p ∈ ps ∧ (.inputs ps ∈ ms ∨ .outputs ps ∈ ms) := by
  obtain ⟨name, -, h⟩ := bind_eq_ok.mp h
  obtain rfl := Except.ok.inj h
  rcases List.mem_append.mp hp with hp | hp
  · obtain ⟨i, hi, hpick⟩ := exists_of_optional rfl (List.ne_nil_of_mem hp)
    cases i with
    | inputs ps => exact ⟨ps, by simpa [Option.some.inj hpick] using hp, Or.inl hi⟩
    | _ => simp at hpick
  · obtain ⟨i, hi, hpick⟩ := exists_of_optional rfl (List.ne_nil_of_mem hp)
    cases i with
    | outputs ps => exact ⟨ps, by simpa [Option.some.inj hpick] using hp, Or.inr hi⟩
    | _ => simp at hpick

/-- A symbol that was read from a text. -/
theorem readable_of_read {origin : Origin} {t : Tree} (ht : t.Written) {s : Symbol}
    (h : (schema origin).read origin t = .ok s) : s.Readable := by
  intro p hp
  obtain ⟨items, hbuild, hitems⟩ := Schema.items_of_read ht h
  obtain ⟨ps, hps, hmem⟩ := mem_of_parameter hbuild hp
  have hread : ∃ u : Tree, u.Written ∧
      readArray (Parameter.schema.read origin) u = .ok ps := by
    rcases hmem with hmem | hmem
    all_goals
      obtain ⟨f, hf, u, hu, hread⟩ := hitems _ hmem
      simp only [schema, List.mem_cons, List.not_mem_nil, or_false] at hf
      rcases hf with rfl | rfl | rfl | rfl | rfl | rfl | rfl | rfl <;>
        simp only [map_eq_ok] at hread <;> simp at hread
      exact ⟨u, hu, hread⟩
  obtain ⟨u, hu, hread⟩ := hread
  obtain ⟨w, hw, hp⟩ := exists_written_of_readArray hu hread hps
  exact Parameter.readable_of_read hw hp

theorem integral_describe (o : MemberOrder) {s : Symbol} (h : s.Readable) (hf : s.NoFloats) :
    (s.describe o).Integral := by
  have hparameters : ∀ ps : List Parameter, (∀ p ∈ ps, p ∈ s.inputs ++ s.outputs) →
      (Value.array (ps.map (Parameter.describe o))).Integral := fun ps hps =>
    .array_map fun p hp => Parameter.integral_describe o (h p (hps p hp)) (hf p (hps p hp))
  have hinputs := hparameters s.inputs fun p hp => List.mem_append_left _ hp
  have houtputs := hparameters s.outputs fun p hp => List.mem_append_right _ hp
  have hdependencies : (Value.array (s.dependencies.map .string)).Integral :=
    .array_map fun d _ => .string d
  have hchecks : (Value.array (s.returnChecks.map (ReturnCheck.describe o))).Integral :=
    .array_map fun c _ => c.integral_describe o
  refine o.integral_object (s.nodup_members o) ?_
  cases hreturns : s.returns <;> cases htarget : s.target <;>
    simp [members, hreturns, htarget, hinputs, houtputs, hdependencies, hchecks,
      Value.Integral.string, Value.Integral.bool]

/-- The items that the members of a symbol's description give. -/
def items (s : Symbol) : List Member :=
  [.name s.name, .inputs s.inputs, .outputs s.outputs]
    ++ (s.returns.map fun r => .returns (some r)).toList
    ++ [.noOutputFormat s.noOutputFormat]
    ++ (s.target.map fun t => .target (some t)).toList
    ++ [.dependencies s.dependencies, .returnChecks s.returnChecks]

theorem gives_members (o : MemberOrder) (origin : Origin) {s : Symbol} (h : s.Readable) :
    List.Forall₂ (schema origin).Gives (s.members o) s.items := by
  have hparameters : ∀ ps : List Parameter, (∀ p ∈ ps, p ∈ s.inputs ++ s.outputs) →
      readArray (Parameter.schema.read origin) (Value.array (ps.map (Parameter.describe o))).tree
        = .ok ps :=
    fun ps hps => readArray_tree fun p hp => Parameter.read_describe o origin (h p (hps p hp))
  have hname : (schema origin).Gives ("name", .string s.name) (.name s.name) := ⟨_, rfl, rfl⟩
  have hinputs : (schema origin).Gives ("inputs", .array (s.inputs.map (Parameter.describe o)))
      (.inputs s.inputs) :=
    ⟨_, rfl, map_eq_ok.mpr ⟨_, hparameters _ fun p hp => List.mem_append_left _ hp, rfl⟩⟩
  have houtputs : (schema origin).Gives ("outputs", .array (s.outputs.map (Parameter.describe o)))
      (.outputs s.outputs) :=
    ⟨_, rfl, map_eq_ok.mpr ⟨_, hparameters _ fun p hp => List.mem_append_right _ hp, rfl⟩⟩
  have hreturns : ∀ r, (schema origin).Gives ("return", .string r) (.returns (some r)) :=
    fun r => ⟨_, rfl, rfl⟩
  have hformat : (schema origin).Gives ("noOutputFormat", .bool s.noOutputFormat)
      (.noOutputFormat s.noOutputFormat) := ⟨_, rfl, rfl⟩
  have htarget : ∀ t, (schema origin).Gives ("target", .string t) (.target (some t)) :=
    fun t => ⟨_, rfl, rfl⟩
  have hdependencies : (schema origin).Gives
      ("dependencies", .array (s.dependencies.map .string)) (.dependencies s.dependencies) :=
    ⟨_, rfl, map_eq_ok.mpr ⟨_, readArray_tree fun _ _ => rfl, rfl⟩⟩
  have hchecks : (schema origin).Gives
      ("assert_retval", .array (s.returnChecks.map (ReturnCheck.describe o)))
      (.returnChecks s.returnChecks) :=
    ⟨_, rfl, map_eq_ok.mpr ⟨_, readArray_tree fun c _ => c.read_describe o origin, rfl⟩⟩
  cases hr : s.returns <;> cases ht : s.target <;>
    simp [members, items, hr, ht, hname, hinputs, houtputs, hreturns, hformat, htarget,
      hdependencies, hchecks]

theorem ofMembers_items {s : Symbol} {is : List Member} (h : is.Perm s.items) :
    ofMembers is = .ok s := by
  obtain ⟨name, inputs, outputs, _ | r, noOutputFormat, _ | t, dependencies, returnChecks⟩ := s <;>
    simp [ofMembers, required, Json.optional, findSome?_eq_of_perm h, items]

/-- A symbol is read from its description. -/
theorem read_describe (o : MemberOrder) (origin : Origin) {s : Symbol} (h : s.Readable) :
    (schema origin).read origin (s.describe o).tree = .ok s :=
  (schema origin).read_object origin o (s.nodup_members o) (gives_members o origin h)
    fun _ => ofMembers_items

end Symbol

/-! ## Texts -/

/-- What a text describes is read again from its description, in whatever order that lists
its members. A symbol comes back if no double stands in the size of a parameter, and constants
always do. -/
theorem parse_describe :
    (∀ (text : String) (s : Symbol), Symbol.parse text = .ok s → s.NoFloats →
      Symbol.parse s.value.text = .ok s ∧ ∀ o, Symbol.parse (s.describe o).text = .ok s) ∧
    (∀ (text : String) (cs : List Constant), Constant.parseList text = .ok cs →
      Constant.parseList (Value.array (cs.map Constant.value)).text = .ok cs ∧
        ∀ o, Constant.parseList (Value.array (cs.map (Constant.describe o))).text = .ok cs) := by
  constructor
  · intro text s hparse hfloats
    have hread : (Symbol.schema .text).read .text (Json.read text).root = .ok s :=
      (decode_eq_ok.mp hparse).1
    have hs : s.Readable := Symbol.readable_of_read (written_read text) hread
    have hdescribe (o : MemberOrder) : Symbol.parse (s.describe o).text = .ok s :=
      decode_text (Symbol.integral_describe o hs hfloats) (Symbol.read_describe o .text hs)
    exact ⟨s.describe_sorted ▸ hdescribe .sorted, hdescribe⟩
  · intro text cs _
    have hvalues : cs.map (Constant.describe .sorted) = cs.map Constant.value :=
      List.map_congr_left fun c _ => c.describe_sorted
    exact ⟨hvalues ▸ Constant.parseList_describe .sorted cs,
      fun o => Constant.parseList_describe o cs⟩

/-- A symbol with one parameter, whose size is an object. -/
def sampleSymbol : Symbol where
  name := "\u0001😀"
  inputs := [{
    name := "k\n"
    type := "buf"
    size := some (.object [("a", .array [.number (.integer (-7)), .null]), ("b", .bool true)]) }]

/-- A text in which the parameter is an array and a key of its size is repeated. -/
def sampleText : String :=
  "\x7b\"inputs\":[[\"k\\n\", \"buf\", \x7b\"b\":0,\"a\":[-7,null],\"b\":true\x7d]],
    \"return\":null,\"more\":\"\\ud800\",\"name\":\"\\u0001\\ud83d\\ude00\"\x7d"

def sampleTokens : List Token :=
  [.openBrace, .string "inputs", .colon, .openBracket, .openBracket,
    .string "k\n", .comma, .string "buf", .comma,
    .openBrace, .string "b", .colon, .number ⟨false, ['0'], [], none⟩, .comma,
    .string "a", .colon, .openBracket, .number ⟨true, ['7'], [], none⟩, .comma, .null,
    .closeBracket, .comma, .string "b", .colon, .bool true, .closeBrace,
    .closeBracket, .closeBracket, .comma, .string "return", .colon, .null, .comma,
    .string "more", .colon, .string none, .comma,
    .string "name", .colon, .string "\u0001😀", .closeBrace]

theorem tokens_sampleText : tokens sampleText.toList = sampleTokens := by decide +kernel

theorem parse_sampleText : Symbol.parse sampleText = .ok sampleSymbol := by
  rw [Symbol.parse, decode, Json.read, tokens_sampleText]
  rfl

theorem noFloats_sampleSymbol : sampleSymbol.NoFloats := by
  intro p hp v hv bits hb
  obtain rfl := List.mem_singleton.mp hp
  obtain rfl := Option.some.inj hv
  cases hb with
  | object hm hb =>
    simp only [List.mem_cons, List.not_mem_nil, or_false] at hm
    rcases hm with rfl | rfl
    · cases hb with
      | array hw hb =>
        simp only [List.mem_cons, List.not_mem_nil, or_false] at hw
        rcases hw with rfl | rfl <;> cases hb
    · cases hb

theorem parse_describe_sample :
    Symbol.parse sampleText = .ok sampleSymbol ∧ sampleSymbol.NoFloats ∧
      Symbol.parse sampleSymbol.value.text = .ok sampleSymbol ∧
      Constant.parseList "[[\"a\",\"uint\"]]" = .ok [⟨"a", "uint"⟩] ∧
      Constant.parseList (Value.array [Constant.value ⟨"a", "uint"⟩]).text =
        .ok [⟨"a", "uint"⟩] := by
  have hconstants : Constant.parseList "[[\"a\",\"uint\"]]" = .ok [⟨"a", "uint"⟩] := by
    decide +kernel
  exact ⟨parse_sampleText, noFloats_sampleSymbol,
    (parse_describe.1 _ _ parse_sampleText noFloats_sampleSymbol).1, hconstants,
    (parse_describe.2 _ _ hconstants).1⟩

end SodiumDecl.Wrapper
