import SodiumDecl.Assembly
import SodiumDecl.Proofs.Results

/-!
# Signatures of a symbol

The first rule that accepts an expression decides what it returns. The rules of the shapes come
first, so an expression with the prefix of some shape returns the records of the first such shape
(`returnType_of_shape?`), and the rules that hold for every catalog decide about the others
(`returnType_of_none`). A result is one type for each output format exactly where the expression is
`Encoded`.

A symbol has one signature, or one for each output format, and each takes the inputs of the symbol
(`overloads_cases`). `overloads_expand` is the result: how many signatures there are, what is in
each, and that in no document a required parameter comes after one that may be left out.
-/

namespace SodiumDecl

/-! ## What an expression returns -/

/-- The expression that a symbol returns. -/
def Wrapper.Symbol.result (s : Wrapper.Symbol) : String := s.returns.getD "void"

/-- An expression has the prefix of a shape. -/
def Shape.Starts (s : Shape) (expr : String) : Prop := s.returnPrefix.toList <+: expr.toList

theorem Shape.accepts_rule {s : Shape} {expr : String} :
    s.rule.pattern.accepts expr = true ↔ s.Starts expr := List.isPrefixOf_iff_prefix

/-- What an expression returns by the rules that hold for every catalog. -/
def commonReturn (expr : String) : ReturnType :=
  match commonRules.find? (·.pattern.accepts expr) with
  | some rule => rule.returns
  | none => .plain (.named expr)

/-- An expression is formatted for output, and neither compared nor turned into text. -/
def Formatted (expr : String) : Prop :=
  Text.contains "_format_output" expr = true ∧ Text.contains "=== 0" expr = false ∧
    Text.contains "stringify" expr = false

theorem commonReturn_eq_dual_iff {expr : String} {d : DualType} :
    commonReturn expr = .dual d ↔ Formatted expr ∧ d = ⟨.binary, .string⟩ := by
  -- the rule for this one expression comes before the others, but they would not make it dual
  have hrandom : Text.contains "_format_output" "random_value" = false := by decide +kernel
  simp only [commonReturn, commonRules, List.find?_cons, Pattern.accepts, Formatted]
  by_cases h : "random_value" = expr
  · subst h
    simp [hrandom]
  · cases Text.contains "=== 0" expr <;> cases Text.contains "stringify" expr <;>
      cases Text.contains "_format_output" expr <;> simp [h, eq_comm]

namespace Catalog

/-- The first shape of which an expression has the prefix. -/
def shape? (c : Catalog) (expr : String) : Option Shape :=
  c.shapes.find? fun s => s.rule.pattern.accepts expr

/-- An expression has the prefix of some shape. -/
def Composite (c : Catalog) (expr : String) : Prop := ∃ s ∈ c.shapes, s.Starts expr

/-- The result of an expression is encoded as the caller chooses. -/
def Encoded (c : Catalog) (expr : String) : Prop := c.Composite expr ∨ Formatted expr

section Returns

variable {c : Catalog} {expr : String} {s : Shape}

theorem mem_of_shape? (h : c.shape? expr = some s) : s ∈ c.shapes ∧ s.Starts expr := by
  have haccepts := List.find?_some h
  exact ⟨List.mem_of_find?_eq_some h, Shape.accepts_rule.mp haccepts⟩

theorem shape?_eq_none_iff : c.shape? expr = none ↔ ¬ c.Composite expr := by
  simp [shape?, Composite, Shape.accepts_rule]

theorem find?_returnRules (c : Catalog) (expr : String) :
    c.returnRules.find? (·.pattern.accepts expr) =
      ((c.shape? expr).map Shape.rule).or (commonRules.find? (·.pattern.accepts expr)) := by
  rw [returnRules, List.find?_append, List.find?_map]
  rfl

theorem returnType_of_shape? (h : c.shape? expr = some s) : c.returnType expr = .dual s.dual := by
  rw [returnType, find?_returnRules, h]
  rfl

theorem returnType_of_none (h : c.shape? expr = none) : c.returnType expr = commonReturn expr := by
  rw [returnType, find?_returnRules, h]
  rfl

/-- The result of an expression is one for each format when it is `Encoded`. -/
theorem exists_dual_iff : (∃ d, c.returnType expr = .dual d) ↔ c.Encoded expr := by
  cases hs : c.shape? expr with
  | some s => exact iff_of_true ⟨_, returnType_of_shape? hs⟩ (Or.inl ⟨s, mem_of_shape? hs⟩)
  | none =>
    have hcomposite := shape?_eq_none_iff.mp hs
    simp [returnType_of_none hs, commonReturn_eq_dual_iff, Encoded, hcomposite]

end Returns

end Catalog

/-! ## Signatures -/

namespace Overload

/-- A signature takes inputs: one parameter for each, in order, and none may be left out. -/
def Takes (o : Overload) (inputs : List Wrapper.Parameter) : Prop :=
  List.Forall₂ (fun i q => q.name = i.name ∧ q.type = paramType i.type ∧ q.optional = false)
    inputs o.params

/-- The only signature of a symbol, which returns one type or the binary one of two. -/
structure Single (o : Overload) (r : ReturnType) : Prop where
  format : o.format = none
  allParams : o.allParams = o.params
  returns : r = .plain o.returns ∨ ∃ d, r = .dual d ∧ o.returns = d.binary

/-- The signatures of a symbol for binary output and for text. Each has one more parameter than
inputs, which may be left out for binary output. -/
structure Pair (b t : Overload) (d : DualType) : Prop where
  binary_format : b.format = some .binary
  text_format : t.format = some .text
  params : b.params = t.params
  binary_returns : b.returns = d.binary
  text_returns : t.returns = d.text
  binary_allParams : b.allParams =
    b.params ++ [⟨"outputFormat", .union [.named "Uint8ArrayOutputFormat", .null], true⟩]
  text_allParams : t.allParams =
    t.params ++ [⟨"outputFormat", .union [.named "StringOutputFormat", .null], false⟩]

variable {o : Overload} {inputs : List Wrapper.Parameter}

theorem Takes.required (h : o.Takes inputs) {q : Param} (hq : q ∈ o.params) :
    q.optional = false := by
  obtain ⟨i, -, -, -, hoptional⟩ := exists_of_forall₂ h hq
  exact hoptional

/-- Only the selector can be left out, and nothing comes after it. -/
theorem Takes.pairwise (h : o.Takes inputs) :
    o.allParams.Pairwise fun x y => x.optional = true → y.optional = true := by
  have hparams : ∀ x ∈ o.params, ∀ y : Param, x.optional = true → y.optional = true := by
    intro x hx y ho
    rw [h.required hx] at ho
    exact nomatch ho
  refine List.pairwise_append.mpr ⟨?_, ?_, fun x hx y _ => hparams x hx y⟩
  · exact List.pairwise_of_forall_mem_list fun x hx y _ => hparams x hx y
  · cases o.format with
    | none => exact .nil
    | some f => exact List.pairwise_singleton _ _

end Overload

namespace Catalog

variable {c : Catalog} {s : Wrapper.Symbol}

theorem takes_params (s : Wrapper.Symbol) (format : Option OutputFormat) (returns : TypeExpr) :
    (⟨s.inputs.map param, format, returns⟩ : Overload).Takes s.inputs := by
  rw [Overload.Takes, List.forall₂_map_right_iff]
  exact List.forall₂_same.mpr fun i _ => ⟨rfl, rfl, rfl⟩

/-- A symbol has one signature, or two if its result is encoded as the caller chooses. -/
theorem overloads_cases (c : Catalog) (s : Wrapper.Symbol) :
    (∃ o, c.overloads s = [o] ∧ o.Takes s.inputs ∧ o.Single (c.returnType s.result) ∧
        ∀ d, c.returnType s.result = .dual d → s.noOutputFormat = true) ∨
      ∃ b t d, c.overloads s = [b, t] ∧ b.Takes s.inputs ∧ t.Takes s.inputs ∧
        c.returnType s.result = .dual d ∧ s.noOutputFormat = false ∧ b.Pair t d := by
  rw [overloads, ← Wrapper.Symbol.result]
  cases hr : c.returnType s.result with
  | plain type =>
    refine Or.inl ⟨_, rfl, takes_params s _ _, ⟨rfl, ?_, Or.inl rfl⟩, ?_⟩
    · exact List.append_nil _
    · exact fun d hd => nomatch hd
  | dual d =>
    cases hn : s.noOutputFormat with
    | true =>
      refine Or.inl ⟨_, rfl, takes_params s _ _, ⟨rfl, ?_, Or.inr ⟨d, rfl, rfl⟩⟩, ?_⟩
      · exact List.append_nil _
      · exact fun _ _ => rfl
    | false =>
      refine Or.inr ⟨_, _, d, rfl, takes_params s _ _, takes_params s _ _, rfl, rfl, ?_⟩
      exact ⟨rfl, rfl, rfl, rfl, rfl, rfl, rfl⟩

theorem takes_of_mem_overloads {o : Overload} (h : o ∈ c.overloads s) : o.Takes s.inputs := by
  rcases overloads_cases c s with ⟨o', ho, htakes, -⟩ | ⟨b, t, d, ho, hb, ht, -⟩
  · rw [ho, List.mem_singleton] at h
    rwa [h]
  · rw [ho] at h
    rcases List.mem_pair.mp h with rfl | rfl
    · exact hb
    · exact ht

theorem length_overloads_eq_two_iff : (c.overloads s).length = 2 ↔
    (∃ d, c.returnType s.result = .dual d) ∧ s.noOutputFormat = false := by
  rcases overloads_cases c s with ⟨o, ho, -, -, hn⟩ | ⟨b, t, d, ho, -, -, hd, hn, -⟩
  · rw [ho]
    refine iff_of_false (by simp) ?_
    rintro ⟨⟨d, hd⟩, hfalse⟩
    rw [hn d hd] at hfalse
    exact nomatch hfalse
  · rw [ho]
    exact iff_of_true rfl ⟨⟨d, hd⟩, hn⟩

theorem single_of_overloads {o : Overload} (h : c.overloads s = [o]) :
    o.Single (c.returnType s.result) := by
  rcases overloads_cases c s with ⟨o', ho, -, hsingle, -⟩ | ⟨b, t, d, ho, -⟩
  · obtain rfl := List.singleton_inj.mp (h.symm.trans ho)
    exact hsingle
  · exact absurd (h.symm.trans ho) (by simp)

theorem pair_of_overloads {b t : Overload} (h : c.overloads s = [b, t]) :
    ∃ d, c.returnType s.result = .dual d ∧ b.Pair t d := by
  rcases overloads_cases c s with ⟨o, ho, -⟩ | ⟨b', t', d, ho, -, -, hd, -, hpair⟩
  · exact absurd (h.symm.trans ho) (by simp)
  · obtain ⟨rfl, rfl⟩ : b = b' ∧ t = t' := by simpa using h.symm.trans ho
    exact ⟨d, hd, hpair⟩

theorem exists_symbol {corpus : Corpus} {p : Profile} {version : String} {f : FunctionDecl}
    (h : f ∈ (c.assemble corpus p version).functions) :
    ∃ s ∈ corpus.functions, f = c.functionDecl s := by
  obtain ⟨s, hs, rfl⟩ := List.mem_map.mp h
  exact ⟨s, (List.mem_filter.mp hs).1, rfl⟩

/-- A symbol has one signature or two: two when its result is encoded as the caller chooses and the
caller may choose. Each takes the inputs of the symbol, and with two there is a selector after them.
So whatever a document declares, no required parameter comes after one that may be left out. -/
theorem overloads_expand (c : Catalog) (s : Wrapper.Symbol) :
    ((c.overloads s).length = 1 ∨ (c.overloads s).length = 2) ∧
      ((c.overloads s).length = 2 ↔
        (∃ d, c.returnType s.result = .dual d) ∧ s.noOutputFormat = false) ∧
      ((∃ d, c.returnType s.result = .dual d) ↔ c.Encoded s.result) ∧
      (∀ o ∈ c.overloads s, o.Takes s.inputs) ∧
      (∀ o, c.overloads s = [o] → o.Single (c.returnType s.result)) ∧
      (∀ b t, c.overloads s = [b, t] → ∃ d, c.returnType s.result = .dual d ∧ b.Pair t d) ∧
      ∀ corpus p version, ∀ f ∈ (c.assemble corpus p version).functions, ∀ o ∈ f.overloads,
        o.allParams.Pairwise fun x y => x.optional = true → y.optional = true := by
  refine ⟨?_, length_overloads_eq_two_iff, exists_dual_iff, fun o => takes_of_mem_overloads,
    fun o => single_of_overloads, fun b t => pair_of_overloads, ?_⟩
  · rcases overloads_cases c s with ⟨o, ho, -⟩ | ⟨b, t, d, ho, -⟩
    · exact Or.inl (by rw [ho]; rfl)
    · exact Or.inr (by rw [ho]; rfl)
  · intro corpus p version f hf o ho
    obtain ⟨s', -, rfl⟩ := exists_symbol hf
    exact (takes_of_mem_overloads ho).pairwise

end Catalog

end SodiumDecl
