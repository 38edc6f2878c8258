import SodiumDecl.Proofs.Overloads

/-!
# Composite results

The rules for return expressions give the types that signatures name, and the shapes give the
records of a document. A composite expression, one with the prefix of some shape, returns the
records of the first such shape (`returns_of_mem_overloads`), whatever other shapes have a prefix of
it, and the two records of a shape have the same fields (`Shape.records_record`).

A document has the records of all shapes and the aliases of its catalog, for either profile. So all
that is named is declared, which is the result (`composites_declared`).
-/

namespace SodiumDecl

/-! ## The records of a shape -/

/-- The fields of a shape, and those of its records for binary output and for text: in one order,
under one name, and of a fixed type in both records, or a buffer in the one and a string in the
other. -/
inductive FieldsOf : List ShapeField → List Field → List Field → Prop
  | nil : FieldsOf [] [] []
  | fixed (name type) {xs bs ts} : FieldsOf xs bs ts →
    FieldsOf (⟨name, .fixed type⟩ :: xs) (⟨name, type⟩ :: bs) (⟨name, type⟩ :: ts)
  | buffer (name) {xs bs ts} : FieldsOf xs bs ts →
    FieldsOf (⟨name, .buffer⟩ :: xs) (⟨name, .binary⟩ :: bs) (⟨name, .string⟩ :: ts)

theorem FieldsOf.names {xs : List ShapeField} {bs ts : List Field} (h : FieldsOf xs bs ts) :
    bs.map (·.name) = ts.map (·.name) := by
  induction h with
  | nil => rfl
  | fixed name type _ ih => rw [List.map_cons, List.map_cons, ih]
  | buffer name _ ih => rw [List.map_cons, List.map_cons, ih]

/-- Two records are those of a shape for binary output and for text. -/
structure Shape.Records (s : Shape) (b t : Record) : Prop where
  binary_name : b.name = s.binaryName
  text_name : t.name = s.textName
  names : b.fields.map (·.name) = t.fields.map (·.name)
  fields : FieldsOf s.fields b.fields t.fields

theorem fieldsOf_map (xs : List ShapeField) :
    FieldsOf xs (xs.map fun x => ⟨x.name, x.leaf.type OutputFormat.binary.bufferType⟩)
      (xs.map fun x => ⟨x.name, x.leaf.type OutputFormat.text.bufferType⟩) := by
  induction xs with
  | nil => exact .nil
  | cons x xs ih =>
    obtain ⟨name, leaf⟩ := x
    cases leaf with
    | buffer => exact .buffer name ih
    | fixed type => exact .fixed name type ih

theorem Shape.records_record (s : Shape) : s.Records (s.record .binary) (s.record .text) where
  binary_name := rfl
  text_name := rfl
  names := (fieldsOf_map s.fields).names
  fields := fieldsOf_map s.fields

namespace Catalog

variable {c : Catalog} {s : Wrapper.Symbol} {shape : Shape}

theorem record_mem_records (h : shape ∈ c.shapes) (f : OutputFormat) :
    shape.record f ∈ c.records := by
  refine List.mem_append_left _ (List.mem_flatMap.mpr ⟨shape, h, ?_⟩)
  cases f <;> simp

/-! ## What composite functions return -/

theorem exists_shape? {expr : String} (h : c.Composite expr) :
    ∃ shape, c.shape? expr = some shape :=
  Option.ne_none_iff_exists'.mp fun hn => shape?_eq_none_iff.mp hn h

/-- Every signature returns one of the two records of the shape. -/
theorem returns_of_mem_overloads (hs : c.shape? s.result = some shape) {o : Overload}
    (ho : o ∈ c.overloads s) : ∃ f, o.returns = .named (shape.record f).name := by
  have htype := returnType_of_shape? hs
  rcases overloads_cases c s with ⟨o', heq, -, hsingle, -⟩ | ⟨b, t, d, heq, -, -, hd, -, hpair⟩
  · obtain rfl := List.mem_singleton.mp (heq ▸ ho)
    rcases hsingle.returns with hplain | ⟨d, hd, hreturns⟩
    · exact nomatch htype.symm.trans hplain
    · obtain rfl := ReturnType.dual.inj (htype.symm.trans hd)
      exact ⟨.binary, hreturns⟩
  · obtain rfl := ReturnType.dual.inj (htype.symm.trans hd)
    rcases List.mem_pair.mp (heq ▸ ho) with rfl | rfl
    · exact ⟨.binary, hpair.binary_returns⟩
    · exact ⟨.text, hpair.text_returns⟩

/-- The signatures of a symbol return records of a document, and if there are two, they return the
records of one shape, whose prefix the symbol's expression has. -/
structure ReturnsRecords (c : Catalog) (d : Document) (expr : String) (os : List Overload) :
    Prop where
  declared : ∀ o ∈ os, ∃ r ∈ d.records, o.returns = .named r.name
  pair : ∀ b t, os = [b, t] → ∃ shape ∈ c.shapes, shape.Starts expr ∧
    ∃ r ∈ d.records, ∃ r' ∈ d.records,
      b.returns = .named r.name ∧ t.returns = .named r'.name ∧ shape.Records r r'

theorem returnsRecords_overloads {d : Document} (hd : d.records = c.records)
    (h : c.Composite s.result) : c.ReturnsRecords d s.result (c.overloads s) := by
  obtain ⟨shape, hs⟩ := exists_shape? h
  obtain ⟨hmem, hstarts⟩ := mem_of_shape? hs
  refine ⟨fun o ho => ?_, fun b t hpair => ?_⟩
  · obtain ⟨f, hf⟩ := returns_of_mem_overloads hs ho
    exact ⟨shape.record f, hd ▸ record_mem_records hmem f, hf⟩
  · obtain ⟨d', hd', hp⟩ := pair_of_overloads hpair
    obtain rfl := ReturnType.dual.inj ((returnType_of_shape? hs).symm.trans hd')
    exact ⟨shape, hmem, hstarts, shape.record .binary, hd ▸ record_mem_records hmem _,
      shape.record .text, hd ▸ record_mem_records hmem _, hp.binary_returns, hp.text_returns,
      shape.records_record⟩

/-! ## What selectors name -/

/-- The type of a selector is an alias, or null. -/
def SelectsAlias (d : Document) (f : OutputFormat) : Prop :=
  ∃ a ∈ d.aliases, f.selector.type = .union [.named a.name, .null]

theorem selectsAlias {d : Document} (h : "Uint8ArrayOutputFormat" ∈ d.aliases.map (·.name))
    (h' : "StringOutputFormat" ∈ d.aliases.map (·.name)) (f : OutputFormat) : SelectsAlias d f := by
  have hname : f.aliasName ∈ d.aliases.map (·.name) := by
    cases f with
    | binary => exact h
    | text => exact h'
  obtain ⟨a, ha, heq⟩ := List.mem_map.mp hname
  exact ⟨a, ha, by rw [heq]; rfl⟩

theorem selector_mem_allParams {o : Overload} {f : OutputFormat} (h : o.format = some f) :
    f.selector ∈ o.allParams := by
  simp [Overload.allParams, h]

/-- The functions of a document are those of symbols of a corpus, and the records and aliases that
their signatures name are declared. -/
structure DeclaresNamed (c : Catalog) (corpus : Corpus) (d : Document) : Prop where
  symbol : ∀ f ∈ d.functions, ∃ s ∈ corpus.functions, f = c.functionDecl s
  record : ∀ f ∈ d.functions, ∀ s ∈ corpus.functions, f = c.functionDecl s →
    c.Composite s.result → c.ReturnsRecords d s.result f.overloads
  selector : "Uint8ArrayOutputFormat" ∈ c.aliases.map (·.name) →
    "StringOutputFormat" ∈ c.aliases.map (·.name) →
      ∀ f ∈ d.functions, ∀ o ∈ f.overloads, ∀ format, o.format = some format →
        format.selector ∈ o.allParams ∧ SelectsAlias d format

/-- Whatever the profile, a document declares the records that composite functions return, and the
aliases that select an output format if the catalog has them. -/
theorem composites_declared (c : Catalog) (corpus : Corpus) (p : Profile) (version : String) :
    c.DeclaresNamed corpus (c.assemble corpus p version) ∧
      ∀ q, (c.assemble corpus q version).records = (c.assemble corpus p version).records ∧
        (c.assemble corpus q version).aliases = (c.assemble corpus p version).aliases := by
  refine ⟨⟨fun f hf => exists_symbol hf, ?_, ?_⟩, fun q => ⟨rfl, rfl⟩⟩
  · rintro f - s - rfl h
    exact returnsRecords_overloads rfl h
  · intro h h' f hf o ho format hformat
    exact ⟨selector_mem_allParams hformat, selectsAlias h h' format⟩

end Catalog

end SodiumDecl
