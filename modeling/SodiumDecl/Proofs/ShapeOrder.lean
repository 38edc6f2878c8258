import Mathlib.Data.List.Pairwise
import Mathlib.Data.List.Perm.Subperm
import SodiumDecl.Catalog.Libsodium
import SodiumDecl.Proofs.Overloads

/-!
# The order of the shapes

The rules of the shapes are tried in the order of the shapes. An expression that has the prefixes of
two shapes makes one of the prefixes a prefix of the other (`Shape.overlaps_of_starts`), so only
shapes that overlap can get in each other's way: the order of the shapes does not matter exactly
when those that overlap return the same types (`returnType_perm_iff`).

`shapes_order_irrelevant` is the result. Where no shapes overlap, as in the catalog of libsodium,
all orders give the same signatures, and a shape whose prefix an expression does not have may stand
anywhere without a change for that expression.
-/

namespace SodiumDecl

/-- The prefix of one shape is a prefix of the other one's. -/
def Shape.Overlaps (s t : Shape) : Prop := s.Starts t.returnPrefix ∨ t.Starts s.returnPrefix

instance (s : Shape) (expr : String) : Decidable (s.Starts expr) :=
  inferInstanceAs (Decidable (_ <+: _))

instance (s t : Shape) : Decidable (s.Overlaps t) := inferInstanceAs (Decidable (_ ∨ _))

theorem Shape.Overlaps.symm {s t : Shape} (h : s.Overlaps t) : t.Overlaps s := Or.symm h

theorem Shape.overlaps_of_starts {s t : Shape} {expr : String} (hs : s.Starts expr)
    (ht : t.Starts expr) : s.Overlaps t :=
  List.prefix_or_prefix_of_prefix hs ht

theorem find?_insertIdx {α : Type} (p : α → Bool) {x : α} (hx : p x = false) (xs : List α)
    (i : Nat) : (xs.insertIdx i x).find? p = xs.find? p := by
  induction i generalizing xs with
  | zero => rw [List.insertIdx_zero, List.find?_cons, hx]
  | succ i ih =>
    cases xs with
    | nil => rfl
    | cons y ys => rw [List.insertIdx_succ_cons, List.find?_cons, List.find?_cons, ih]

namespace Catalog

/-- The catalog with other shapes. -/
def withShapes (c : Catalog) (shapes : List Shape) : Catalog := { c with shapes }

/-- No prefix of a shape is a prefix of another shape's. -/
def PrefixFree (c : Catalog) : Prop := c.shapes.Pairwise fun s t => ¬s.Overlaps t

instance (c : Catalog) : Decidable c.PrefixFree :=
  inferInstanceAs (Decidable (List.Pairwise _ _))

variable {c c' : Catalog} {expr : String} {s t : Shape}

/-! ## What the shapes decide -/

theorem returnType_congr (h : c'.shape? expr = c.shape? expr) :
    c'.returnType expr = c.returnType expr := by
  rw [returnType, returnType, find?_returnRules, find?_returnRules, h]

/-- A symbol has the same signatures where its result returns the same. -/
theorem overloads_congr {symbol : Wrapper.Symbol}
    (h : c'.returnType symbol.result = c.returnType symbol.result) :
    c'.overloads symbol = c.overloads symbol := by
  rw [overloads, overloads, ← Wrapper.Symbol.result, h]

/-- The shape that comes first decides about an expression with its prefix. -/
theorem returnType_withShapes_cons (c : Catalog) (shapes : List Shape) (h : s.Starts expr) :
    (c.withShapes (s :: shapes)).returnType expr = .dual s.dual :=
  returnType_of_shape? <| List.find?_cons_of_pos (Shape.accepts_rule.mpr h)

/-! ## Other orders -/

/-- Shapes that overlap return the same types. -/
def Consistent (c : Catalog) : Prop :=
  c.shapes.Pairwise fun s t => s.Overlaps t → s.dual = t.dual

theorem PrefixFree.consistent (h : c.PrefixFree) : c.Consistent :=
  h.imp fun hne ho => absurd ho hne

/-- The shapes of which an expression has the prefix return the same types. -/
theorem Consistent.dual_eq (h : c.Consistent) (hs : s ∈ c.shapes) (ht : t ∈ c.shapes)
    (hse : s.Starts expr) (hte : t.Starts expr) : s.dual = t.dual := by
  by_cases hst : s = t
  · rw [hst]
  · have : Std.Symm fun s t : Shape => s.Overlaps t → s.dual = t.dual :=
      ⟨fun _ _ hd ho => (hd ho.symm).symm⟩
    exact h.forall hs ht hst (Shape.overlaps_of_starts hse hte)

/-- A shape of which an expression has the prefix decides about it, wherever the shape stands. -/
theorem Consistent.returnType_eq (h : c.Consistent) (hs : s ∈ c.shapes) (hse : s.Starts expr) :
    c.returnType expr = .dual s.dual := by
  cases hshape : c.shape? expr with
  | none => exact absurd ⟨s, hs, hse⟩ (shape?_eq_none_iff.mp hshape)
  | some t =>
    obtain ⟨ht, hte⟩ := mem_of_shape? hshape
    rw [returnType_of_shape? hshape, h.dual_eq ht hs hte hse]

theorem Consistent.returnType_perm (h : c.Consistent) {shapes : List Shape}
    (hp : shapes.Perm c.shapes) (expr : String) :
    (c.withShapes shapes).returnType expr = c.returnType expr := by
  cases hshape : (c.withShapes shapes).shape? expr with
  | none =>
    have hnone : c.shape? expr = none :=
      shape?_eq_none_iff.mpr fun ⟨s, hs, hse⟩ =>
        shape?_eq_none_iff.mp hshape ⟨s, hp.mem_iff.mpr hs, hse⟩
    exact returnType_congr (hshape.trans hnone.symm)
  | some s =>
    obtain ⟨hs, hse⟩ := mem_of_shape? hshape
    rw [returnType_of_shape? hshape, h.returnType_eq (hp.mem_iff.mp hs) hse]

/-- Every order of the shapes gives the same types exactly when shapes that overlap return the same
types. -/
theorem returnType_perm_iff : (∀ shapes, shapes.Perm c.shapes → ∀ expr,
    (c.withShapes shapes).returnType expr = c.returnType expr) ↔ c.Consistent := by
  refine ⟨fun h => List.pairwise_iff_forall_sublist.mpr ?_, fun h _ hp => h.returnType_perm hp⟩
  intro s t hsub ho
  obtain ⟨rest, hrest⟩ := hsub.exists_perm_append
  -- Either of the two may come first, and then it decides about the longer of the two prefixes.
  have hst (expr : String) (hse : s.Starts expr) : c.returnType expr = .dual s.dual := by
    rw [← h _ hrest.symm, List.cons_append, returnType_withShapes_cons c _ hse]
  have hts (expr : String) (hte : t.Starts expr) : c.returnType expr = .dual t.dual := by
    have hswap : (t :: s :: rest).Perm c.shapes := (List.Perm.swap s t rest).trans hrest.symm
    rw [← h _ hswap, returnType_withShapes_cons c _ hte]
  rcases ho with ho | ho
  · exact ReturnType.dual.inj ((hst _ ho).symm.trans (hts _ (List.prefix_refl _)))
  · exact ReturnType.dual.inj ((hst _ (List.prefix_refl _)).symm.trans (hts _ ho))

/-! ## More shapes -/

/-- A shape whose prefix an expression does not have may stand anywhere. -/
theorem returnType_insertIdx (c : Catalog) (h : ¬s.Starts expr) (i : Nat) :
    (c.withShapes (c.shapes.insertIdx i s)).returnType expr = c.returnType expr := by
  have hrejects : s.rule.pattern.accepts expr = false := by
    rwa [← Bool.not_eq_true, Shape.accepts_rule]
  have hshape : (c.withShapes (c.shapes.insertIdx i s)).shape? expr = c.shape? expr := by
    exact find?_insertIdx (fun t : Shape => t.rule.pattern.accepts expr) hrejects c.shapes i
  exact returnType_congr hshape

theorem prefixFree_libsodium : libsodium.PrefixFree := by decide +kernel

/-- The order of the shapes does not matter exactly when shapes that overlap return the same types.
So it does not where no shapes overlap: then every expression returns the same in all orders, namely
the records of the shape whose prefix it has, and every symbol has the same signatures. The shapes
of libsodium do not overlap. In any catalog, a shape may be inserted anywhere without a change for
the expressions that do not have its prefix. -/
theorem shapes_order_irrelevant :
    (∀ c : Catalog, (∀ shapes, shapes.Perm c.shapes → ∀ expr,
      (c.withShapes shapes).returnType expr = c.returnType expr) ↔ c.Consistent) ∧
    (∀ (c : Catalog) (shapes : List Shape), c.PrefixFree → shapes.Perm c.shapes →
      (∀ expr, (c.withShapes shapes).returnType expr = c.returnType expr) ∧
      (∀ shape ∈ shapes, ∀ expr, shape.Starts expr → c.returnType expr = .dual shape.dual) ∧
      ∀ symbol, (c.withShapes shapes).overloads symbol = c.overloads symbol) ∧
    libsodium.PrefixFree ∧
    ∀ (c : Catalog) (shape : Shape) (expr : String) (i : Nat), ¬shape.Starts expr →
      (c.withShapes (c.shapes.insertIdx i shape)).returnType expr = c.returnType expr := by
  refine ⟨fun c => returnType_perm_iff, fun c shapes h hp => ?_, prefixFree_libsodium,
    fun c shape expr i h => returnType_insertIdx c h i⟩
  have hreturn := h.consistent.returnType_perm hp
  refine ⟨hreturn, fun shape hs expr he => ?_, fun symbol => overloads_congr (hreturn _)⟩
  exact h.consistent.returnType_eq (hp.mem_iff.mp hs) he

/-- A shape that overlaps with the one of key pairs. -/
def sampleShape : Shape := .of "Seeds" "\x7bpublicKey: _format_output(seed" [("publicKey", .buffer)]

def sampleSecretBox : String := "_format_output(\x7bmac: mac, cipher: cipher\x7d, outputFormat)"

def sampleKeyPair : String := "\x7bpublicKey: _format_output(publicKey, outputFormat)\x7d"

theorem shapes_order_irrelevant_sample :
    libsodium.PrefixFree ∧ libsodium.shapes.reverse.Perm libsodium.shapes ∧
      (libsodium.withShapes libsodium.shapes.reverse).returnType sampleSecretBox
        = .dual ⟨.named "SecretBox", .named "StringSecretBox"⟩ ∧
      ¬sampleShape.Starts sampleKeyPair ∧
      (libsodium.withShapes (libsodium.shapes.insertIdx 0 sampleShape)).returnType sampleKeyPair
        = .dual ⟨.named "KeyPair", .named "StringKeyPair"⟩ := by
  have hperm : libsodium.shapes.reverse.Perm libsodium.shapes := List.reverse_perm _
  have hstarts : ¬sampleShape.Starts sampleKeyPair := by decide +kernel
  obtain ⟨-, horder, hfree, hinsert⟩ := shapes_order_irrelevant
  obtain ⟨hreturns, hshape, -⟩ := horder _ _ hfree hperm
  have hsecret : libsodium.returnType sampleSecretBox = .dual libsodium.shapes[3].dual :=
    hshape _ (hperm.mem_iff.mpr (List.getElem_mem _)) _ (by decide +kernel)
  have hpair : libsodium.returnType sampleKeyPair = .dual libsodium.shapes[2].dual :=
    hshape _ (hperm.mem_iff.mpr (List.getElem_mem _)) _ (by decide +kernel)
  exact ⟨hfree, hperm, (hreturns _).trans hsecret, hstarts, (hinsert _ _ _ _ hstarts).trans hpair⟩

end Catalog

end SodiumDecl
