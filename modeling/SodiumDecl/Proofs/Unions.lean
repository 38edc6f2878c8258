import Mathlib.Logic.Function.Iterate
import Mathlib.Tactic.SplitIfs
import SodiumDecl.Mapping

/-!
# Flat unions

Unions are written without brackets, so the text of a type does not show how they are nested: it is
the texts of the leaves, left to right, with bars between them (`text_eq_intercalate`). It takes
that no union is empty, at whatever depth (`NoEmptyUnion`), since an empty one would still have bars
around it.

Allowing null adds one leaf at the end, on a union as on any other type (`leaves_orNull`). So the
text of a parameter's type is that of its token with ` | null` behind it, or as it is.
`text_flattens` is the result.
-/

namespace SodiumDecl.TypeExpr

/-! ## Leaves -/

mutual
/-- The leaves of a type: what its unions, nested as they are, have as members that are none. -/
def leaves : TypeExpr → List TypeExpr
  | .union ts => leavesOf ts
  | t => [t]

/-- The leaves of several types. -/
def leavesOf : List TypeExpr → List TypeExpr
  | [] => []
  | t :: ts => t.leaves ++ leavesOf ts
end

/-- A type is no union. -/
def isLeaf : TypeExpr → Bool
  | .union _ => false
  | _ => true

/-- No union is empty, neither the type itself nor one inside it. -/
inductive NoEmptyUnion : TypeExpr → Prop
  | leaf {t} : t.isLeaf = true → NoEmptyUnion t
  | union {ts} : ts ≠ [] → (∀ t ∈ ts, NoEmptyUnion t) → NoEmptyUnion (.union ts)

variable {t : TypeExpr} {ts : List TypeExpr}

theorem leavesOf_eq_flatMap (ts : List TypeExpr) : leavesOf ts = ts.flatMap leaves := by
  induction ts with
  | nil => rfl
  | cons t ts ih => rw [leavesOf, ih, List.flatMap_cons]

theorem leaves_union (ts : List TypeExpr) : (union ts).leaves = ts.flatMap leaves := by
  rw [leaves, leavesOf_eq_flatMap]

theorem leaves_of_isLeaf (h : t.isLeaf = true) : t.leaves = [t] := by
  cases t with
  | union ts => exact nomatch h
  | _ => rfl

namespace NoEmptyUnion

/-- A union of leaves, of at least one. -/
theorem of_all_isLeaf (hne : ts ≠ []) (h : ts.all isLeaf = true) :
    (TypeExpr.union ts).NoEmptyUnion :=
  .union hne fun t ht => .leaf (List.all_eq_true.mp h t ht)

theorem leaves_ne_nil (h : t.NoEmptyUnion) : t.leaves ≠ [] := by
  induction h with
  | leaf h => simp [leaves_of_isLeaf h]
  | @union ts hne _ ih =>
    obtain ⟨t, ts, rfl⟩ := List.exists_cons_of_ne_nil hne
    simp [leaves_union, ih t List.mem_cons_self]

theorem isLeaf_of_mem_leaves (h : t.NoEmptyUnion) : ∀ l ∈ t.leaves, l.isLeaf = true := by
  induction h with
  | leaf h =>
    intro l hl
    rw [leaves_of_isLeaf h, List.mem_singleton] at hl
    rwa [hl]
  | union _ _ ih =>
    intro l hl
    rw [leaves_union, List.mem_flatMap] at hl
    obtain ⟨t, ht, hl⟩ := hl
    exact ih t ht l hl

end NoEmptyUnion

/-! ## Texts -/

theorem texts_eq_map (ts : List TypeExpr) : texts ts = ts.map text := by
  induction ts with
  | nil => rfl
  | cons t ts ih => rw [texts, ih, List.map_cons]

/-- Lists that are put together with a separator, and then once more with the same one, are put
together as one list. An empty one among them would leave two separators in a row. -/
theorem intercalate_map_intercalate {α : Type} (sep : String) {f : α → List String} {as : List α}
    (h : ∀ a ∈ as, f a ≠ []) :
    sep.intercalate (as.map fun a => sep.intercalate (f a)) = sep.intercalate (as.flatMap f) := by
  induction as with
  | nil => rfl
  | cons a as ih =>
    obtain ⟨ha, has⟩ := List.forall_mem_cons.mp h
    cases as with
    | nil => simp
    | cons b bs =>
      have hrest : (b :: bs).flatMap f ≠ [] := by
        simp [has b List.mem_cons_self]
      rw [List.flatMap_cons, String.intercalate_append_of_ne_nil ha hrest, ← ih has]
      simp only [List.map_cons, String.intercalate_cons_cons]

/-- The text of a type is the texts of its leaves, with bars between them. -/
theorem text_eq_intercalate (h : t.NoEmptyUnion) :
    t.text = " | ".intercalate (t.leaves.map text) := by
  induction h with
  | leaf h => simp [leaves_of_isLeaf h]
  | @union ts _ h ih =>
    have hne : ∀ t ∈ ts, t.leaves.map text ≠ [] :=
      fun t ht => mt List.map_eq_nil_iff.mp (h t ht).leaves_ne_nil
    calc (union ts).text
        = " | ".intercalate (ts.map text) := by rw [text, texts_eq_map]
      _ = " | ".intercalate (ts.map fun t => " | ".intercalate (t.leaves.map text)) := by
          rw [List.map_congr_left ih]
      _ = " | ".intercalate (ts.flatMap fun t => t.leaves.map text) :=
          intercalate_map_intercalate _ hne
      _ = " | ".intercalate ((union ts).leaves.map text) := by
          rw [leaves_union, List.map_flatMap]

/-! ## Allowing null -/

/-- Whatever a type is, allowing null adds one leaf. -/
theorem leaves_orNull (t : TypeExpr) : t.orNull.leaves = t.leaves ++ [.null] := by
  cases t with
  | union ts => rw [orNull, leaves_union, leaves_union, List.flatMap_append]; rfl
  | _ => rfl

theorem NoEmptyUnion.orNull (h : t.NoEmptyUnion) : t.orNull.NoEmptyUnion := by
  cases h with
  | leaf h =>
    have hpair : t.orNull = .union [t, .null] := by
      cases t with
      | union ts => exact nomatch h
      | _ => rfl
    rw [hpair]
    exact .of_all_isLeaf (by simp) (by rw [List.all_cons, h]; rfl)
  | union hne h =>
    refine .union (by simp) (List.forall_mem_append.mpr ⟨h, ?_⟩)
    exact List.forall_mem_singleton.mpr (.leaf rfl)

theorem text_orNull (h : t.NoEmptyUnion) : t.orNull.text = t.text ++ " | null" := by
  have hne : t.leaves.map text ≠ [] := mt List.map_eq_nil_iff.mp h.leaves_ne_nil
  rw [text_eq_intercalate h.orNull, text_eq_intercalate h, leaves_orNull, List.map_append,
    String.intercalate_append_of_ne_nil hne (by simp), String.append_assoc]
  rfl

theorem NoEmptyUnion.iterate_orNull (h : t.NoEmptyUnion) (n : Nat) :
    (TypeExpr.orNull^[n] t).NoEmptyUnion := by
  induction n with
  | zero => exact h
  | succ n ih =>
    rw [Function.iterate_succ_apply']
    exact ih.orNull

theorem leaves_iterate_orNull (t : TypeExpr) (n : Nat) :
    (orNull^[n] t).leaves = t.leaves ++ List.replicate n .null := by
  induction n with
  | zero => simp
  | succ n ih =>
    rw [Function.iterate_succ_apply', leaves_orNull, ih, List.append_assoc, List.replicate_succ']

theorem text_iterate_orNull (h : t.NoEmptyUnion) (n : Nat) :
    (orNull^[n] t).text = t.text ++ String.join (List.replicate n " | null") := by
  induction n with
  | zero => simp
  | succ n ih =>
    rw [Function.iterate_succ_apply', text_orNull (h.iterate_orNull n), ih, List.replicate_succ',
      String.join_append, String.append_assoc]
    simp

/-! ## Tokens -/

theorem noEmptyUnion_tokenType (token : String) : (tokenType token).NoEmptyUnion := by
  rw [tokenType]
  split_ifs
  · exact .leaf rfl
  · exact .leaf rfl
  · exact .of_all_isLeaf (by simp) rfl
  · exact .leaf rfl

theorem text_paramType (token : String) : (paramType token).text =
    (tokenType token).text ++ if Text.contains "optional" token then " | null" else "" := by
  rw [paramType]
  split
  · exact text_orNull (noEmptyUnion_tokenType token)
  · rw [String.append_empty]

/-- The text of a type is the texts of its leaves, left to right, with bars between them. Allowing
null any number of times adds as many leaves, and as many times ` | null` to the text. So the type
of a parameter is written as that of its token, and with ` | null` behind it exactly when the token
mentions `optional`. -/
theorem text_flattens (h : t.NoEmptyUnion) :
    (∀ l ∈ t.leaves, l.isLeaf = true) ∧
      t.text = " | ".intercalate (t.leaves.map text) ∧
      (∀ (u : TypeExpr) n, (orNull^[n] u).leaves = u.leaves ++ List.replicate n .null) ∧
      (∀ n, (orNull^[n] t).text = t.text ++ String.join (List.replicate n " | null")) ∧
      ∀ token, (paramType token).text =
        (tokenType token).text ++ if Text.contains "optional" token then " | null" else "" :=
  ⟨h.isLeaf_of_mem_leaves, text_eq_intercalate h, leaves_iterate_orNull, text_iterate_orNull h,
    text_paramType⟩

/-- A union around unions, one of them of a single member, and a name that has a bar of its own. -/
def nestedUnion : TypeExpr :=
  .union [.union [.string, .union [.named "a | b"]], .literal "x", .null]

theorem text_flattens_sample :
    nestedUnion.NoEmptyUnion ∧ nestedUnion.leaves.length = 4 ∧
      nestedUnion.text = "string | a | b | 'x' | null" ∧
      (orNull^[2] nestedUnion).text = "string | a | b | 'x' | null | null | null" ∧
      (paramType "unsized_buf_optional").text = "string | Uint8Array | undefined | null" := by
  have h : nestedUnion.NoEmptyUnion := by
    refine .union (List.cons_ne_nil _ _) (List.forall_mem_cons.mpr ⟨?_, ?_⟩)
    · refine .union (List.cons_ne_nil _ _) (List.forall_mem_cons.mpr ⟨.leaf rfl, ?_⟩)
      exact List.forall_mem_singleton.mpr (.of_all_isLeaf (List.cons_ne_nil _ _) rfl)
    · exact fun t ht => .leaf (List.all_eq_true.mp rfl t ht)
  obtain ⟨-, htext, -, hnull, htoken⟩ := text_flattens h
  refine ⟨h, rfl, ?_, ?_, ?_⟩
  · rw [htext]
    decide +kernel
  · rw [hnull 2, htext]
    decide +kernel
  · rw [htoken]
    decide +kernel

end SodiumDecl.TypeExpr
