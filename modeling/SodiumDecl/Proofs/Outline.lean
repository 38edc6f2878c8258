import SodiumDecl.Declaration.Document
import SodiumDecl.Text.Search

/-!
# Outlines

The outline of a document is what it declares, with every type as its text. `Outline.decode`
reads one back from the text of a document, line by line: a signature ends its name at the first
bracket and its parameters at the first closing bracket that a colon and a space follow.

Texts are cut at the first occurrence of a mark. `Avoids mark a rest` says that none starts in
`a` when `rest` follows it, not even where the two meet, so a cut falls behind `a` (`cut?_append`,
`pieces_intercalate`).
-/

namespace SodiumDecl

/-! ## Outlines -/

/-- A declared signature: the parameters by name, mark and type, and the type of the result. -/
structure SignatureOutline where
  name : String
  params : List (String × Bool × String)
  returns : String
  deriving DecidableEq, Repr

/-- What a document declares, in its order. -/
structure Outline where
  module : String
  version : String
  aliases : List (String × String)
  enumerations : List (String × List String)
  records : List (String × List (String × String))
  constants : List (String × String)
  signatures : List SignatureOutline
  deriving DecidableEq, Repr

/-- The outline of a signature of the function `name`. -/
def Overload.outline (name : String) (o : Overload) : SignatureOutline where
  name
  params := o.allParams.map fun p => (p.name, p.optional, p.type.text)
  returns := o.returns.text

/-- The outline of a document. -/
def Document.outline (d : Document) : Outline where
  module := d.module
  version := d.version
  aliases := d.aliases.map fun a => (a.name, a.type.text)
  enumerations := d.enumerations.map fun e => (e.name, e.members)
  records := d.records.map fun r => (r.name, r.fields.map fun f => (f.name, f.type.text))
  constants := d.constants.map fun k => (k.name, k.type.text)
  signatures := d.functions.flatMap fun f => f.overloads.map (Overload.outline f.name)

/-! ## Reading lines -/

/-- What follows a mark at the front of a text. -/
def strip? : List Char → List Char → Option (List Char)
  | [], cs => some cs
  | _ :: _, [] => none
  | p :: ps, c :: cs => if p = c then strip? ps cs else none

/-- What stands before and after the first occurrence of a mark. -/
def cut? (mark : List Char) : List Char → Option (List Char × List Char)
  | [] => none
  | c :: cs =>
    match strip? mark (c :: cs) with
    | some rest => some ([], rest)
    | none => (cut? mark cs).map fun x => (c :: x.1, x.2)

/-- A line of a document. -/
inductive Line
  | alias (name type : String)
  | enumeration (name : String)
  | member (name : String)
  | record (name : String)
  | field (name type : String)
  | constant (name type : String)
  | signature (s : SignatureOutline)
  | other

/-- A name and a type with a mark between them and one character behind them. -/
def readTyped (mark cs : List Char) : Option (String × String) :=
  (cut? mark cs).map fun x => (String.ofList x.1, String.ofList x.2.dropLast)

/-- A parameter. -/
def readParam (cs : List Char) : String × Bool × String :=
  match cut? [':', ' '] cs with
  | some (n, t) => (String.ofList (n.filter (· ≠ '?')), n.contains '?', String.ofList t)
  | none => ("", false, String.ofList cs)

/-- A parameter list. -/
def readParams (cs : List Char) : List (String × Bool × String) :=
  if cs = [] then [] else (Text.pieces [',', ' '] 0 cs).map readParam

/-- A signature. -/
def readSignature (cs : List Char) : Option SignatureOutline := do
  let (name, rest) ← cut? ['('] cs
  let (params, returns) ← cut? [')', ':', ' '] rest
  return ⟨String.ofList name, readParams params, String.ofList returns.dropLast⟩

/-- A line inside a block: a field has a type, a member has none. -/
def readInner (cs : List Char) : Line :=
  match readTyped [':', ' '] cs with
  | some (n, t) => .field n t
  | none => .member (String.ofList cs.dropLast)

/-- A line that starts with a word. -/
def readWord (word : String) (rest : List Char) : Line :=
  if word = "type" then ((readTyped [' ', '=', ' '] rest).map fun x => .alias x.1 x.2).getD .other
  else if word = "enum" then .enumeration (String.ofList (rest.take (rest.length - 2)))
  else if word = "interface" then .record (String.ofList (rest.take (rest.length - 2)))
  else if word = "const" then
    ((readTyped [':', ' '] rest).map fun x => .constant x.1 x.2).getD .other
  else if word = "function" then ((readSignature rest).map .signature).getD .other
  else .other

/-- The line that a text is. -/
def Line.ofText (cs : List Char) : Line :=
  match strip? [' ', ' ', ' ', ' '] cs with
  | some inner => readInner inner
  | none =>
    match (strip? [' ', ' '] cs).bind (cut? [' ']) with
    | some (word, rest) => readWord (String.ofList word) rest
    | none => .other

/-! ## Collecting lines -/

/-- The enumerations that lines make up, and the members in front of the first one. -/
def enumerationsOf : List Line → List String × List (String × List String)
  | [] => ([], [])
  | .member n :: ls => (n :: (enumerationsOf ls).1, (enumerationsOf ls).2)
  | .enumeration n :: ls => ([], (n, (enumerationsOf ls).1) :: (enumerationsOf ls).2)
  | _ :: ls => enumerationsOf ls

/-- The records that lines make up, and the fields in front of the first one. -/
def recordsOf : List Line → List (String × String) × List (String × List (String × String))
  | [] => ([], [])
  | .field n t :: ls => ((n, t) :: (recordsOf ls).1, (recordsOf ls).2)
  | .record n :: ls => ([], (n, (recordsOf ls).1) :: (recordsOf ls).2)
  | _ :: ls => recordsOf ls

/-- The outline that the lines of a module make up. -/
def Outline.ofLines (module version : String) (ls : List Line) : Outline where
  module
  version
  aliases := ls.filterMap fun | .alias n t => some (n, t) | _ => none
  enumerations := (enumerationsOf ls).2
  records := (recordsOf ls).2
  constants := ls.filterMap fun | .constant n t => some (n, t) | _ => none
  signatures := ls.filterMap fun | .signature s => some s | _ => none

/-- Read the outline back from the text of a document. The fifth line names the module, and the
first one the version after it. -/
def Outline.decode (text : String) : Option Outline :=
  match text.toList.splitOn '\n' with
  | title :: _ :: _ :: _ :: opening :: body => do
    let rest ← strip? "declare module '".toList opening
    let module := rest.take (rest.length - 3)
    let version ← strip? ("// Type definitions for ".toList ++ module ++ [' ']) title
    return .ofLines (String.ofList module) (String.ofList version) (body.map Line.ofText)
  | _ => none

/-! ## Marks -/

section Marks

variable {mark a b rest : List Char}

theorem strip?_append (p cs : List Char) : strip? p (p ++ cs) = some cs := by
  induction p with
  | nil => simp [strip?]
  | cons c p ih => simpa [strip?] using ih

theorem prefix_of_strip? {p cs : List Char} (h : strip? p cs = some rest) : p <+: cs := by
  induction p generalizing cs with
  | nil => exact List.nil_prefix
  | cons c p ih =>
    cases cs with
    | nil => simp [strip?] at h
    | cons d cs =>
      by_cases hcd : c = d
      · rw [strip?, if_pos hcd] at h
        exact hcd ▸ List.cons_prefix_cons.mpr ⟨rfl, ih h⟩
      · simp [strip?, hcd] at h

/-- No occurrence of a mark starts in `a` when `rest` follows it. -/
def Avoids (mark a rest : List Char) : Prop :=
  ∀ x y, a = x ++ y → y ≠ [] → ¬ mark <+: y ++ rest

theorem Avoids.nil : Avoids mark [] rest := by
  intro x y h hy
  simp_all

theorem Avoids.tail {c : Char} (h : Avoids mark (c :: a) rest) : Avoids mark a rest :=
  fun x y hxy hy => h (c :: x) y (by simp [hxy]) hy

theorem Avoids.head {c : Char} (h : Avoids mark (c :: a) rest) : ¬ mark <+: c :: (a ++ rest) :=
  h [] (c :: a) rfl (by simp)

theorem Avoids.append (ha : Avoids mark a (b ++ rest)) (hb : Avoids mark b rest) :
    Avoids mark (a ++ b) rest := by
  intro x y h hy
  rcases List.append_eq_append_iff.mp h with ⟨z, rfl, hz⟩ | ⟨z, hz, rfl⟩
  · exact hb z y hz hy
  · by_cases hzn : z = []
    · subst hzn
      exact hb [] b rfl (by simpa using hy)
    · rw [List.append_assoc]
      exact ha x z hz hzn

theorem avoids_of_not_mem {m : Char} {ms : List Char} (h : m ∉ a) : Avoids (m :: ms) a rest := by
  rintro x y rfl hy hp
  cases y with
  | nil => exact hy rfl
  | cons c y =>
    obtain ⟨rfl, -⟩ := List.cons_prefix_cons.mp hp
    simp at h

/-- A mark that is not in a text starts nowhere in it, if what follows cannot go on with the
mark. -/
theorem avoids_of_not_infix (h : ¬ mark <:+: a) (hr : ∀ c ∈ rest.head?, c ∉ mark.tail) :
    Avoids mark a rest := by
  rintro x y rfl hy hp
  obtain ⟨t, ht⟩ := hp
  rcases List.append_eq_append_iff.mp ht with ⟨z, rfl, -⟩ | ⟨z, rfl, hz⟩
  · exact h ⟨x, z, by simp⟩
  · cases z with
    | nil => exact h ⟨x, [], by simp⟩
    | cons c z =>
      refine hr c (by simp [hz]) ?_
      cases y with
      | nil => exact absurd rfl hy
      | cons d y => simp

theorem cut?_append (h : Avoids mark a (mark ++ b)) (hm : mark ≠ []) :
    cut? mark (a ++ (mark ++ b)) = some (a, b) := by
  induction a with
  | nil =>
    obtain ⟨c, cs, rfl⟩ := List.exists_cons_of_ne_nil hm
    have hs := strip?_append (c :: cs) b
    rw [List.cons_append] at hs
    rw [List.nil_append, List.cons_append, cut?, hs]
  | cons c a ih =>
    have hs : strip? mark (c :: (a ++ (mark ++ b))) = none := by
      cases hs : strip? mark (c :: (a ++ (mark ++ b))) with
      | none => rfl
      | some r => exact absurd (prefix_of_strip? hs) h.head
    rw [List.cons_append, cut?, hs]
    simp [ih h.tail]

theorem cut?_eq_none (h : Avoids mark a []) : cut? mark a = none := by
  induction a with
  | nil => rfl
  | cons c a ih =>
    have hs : strip? mark (c :: a) = none := by
      cases hs : strip? mark (c :: a) with
      | none => rfl
      | some r => exact absurd (prefix_of_strip? hs) (by simpa using h.head)
    rw [cut?, hs]
    simp [ih h.tail]

theorem pieces_skip (xs ys : List Char) :
    Text.pieces mark xs.length (xs ++ ys) = Text.pieces mark 0 ys := by
  induction xs with
  | nil => rfl
  | cons x xs ih => simpa [Text.pieces] using ih

theorem pieces_append (h : Avoids mark a (mark ++ b)) (hm : mark ≠ []) :
    Text.pieces mark 0 (a ++ (mark ++ b)) = a :: Text.pieces mark 0 b := by
  induction a with
  | nil =>
    obtain ⟨c, cs, rfl⟩ := List.exists_cons_of_ne_nil hm
    have hp : (c :: cs).isPrefixOf (c :: (cs ++ b)) = true :=
      List.isPrefixOf_iff_prefix.mpr ⟨b, rfl⟩
    rw [List.nil_append, List.cons_append, Text.pieces, if_pos hp]
    simpa using pieces_skip cs b
  | cons c a ih =>
    have hp : ¬ mark.isPrefixOf (c :: (a ++ (mark ++ b))) = true :=
      fun hp => h.head (List.isPrefixOf_iff_prefix.mp hp)
    rw [List.cons_append, Text.pieces, if_neg hp, ih h.tail]
    rfl

theorem pieces_of_avoids (h : Avoids mark a []) : Text.pieces mark 0 a = [a] := by
  induction a with
  | nil => rfl
  | cons c a ih =>
    have hp : ¬ mark.isPrefixOf (c :: a) = true :=
      fun hp => h.head (by simpa using List.isPrefixOf_iff_prefix.mp hp)
    rw [Text.pieces, if_neg hp, ih h.tail]
    rfl

/-- What is put together with a mark is cut apart at it. -/
theorem pieces_intercalate (hm : mark ≠ []) {ls : List (List Char)} (hne : ls ≠ [])
    (h : ∀ l ∈ ls, Avoids mark l [] ∧ ∀ b, Avoids mark l (mark ++ b)) :
    Text.pieces mark 0 (mark.intercalate ls) = ls := by
  induction ls with
  | nil => exact absurd rfl hne
  | cons l ls ih =>
    obtain ⟨hend, hmid⟩ := h l List.mem_cons_self
    cases ls with
    | nil => simpa using pieces_of_avoids hend
    | cons k ls =>
      rw [List.intercalate_cons_cons, List.append_assoc, pieces_append (hmid _) hm,
        ih (by simp) fun l hl => h l (List.mem_cons_of_mem _ hl)]

theorem avoids_intercalate {sep : List Char} {ls : List (List Char)}
    (hsep : ∀ rest, Avoids mark sep rest) (hl : ∀ l ∈ ls, ∀ b, Avoids mark l (sep ++ b))
    (hend : ∀ l ∈ ls, Avoids mark l rest) : Avoids mark (sep.intercalate ls) rest := by
  induction ls with
  | nil => exact Avoids.nil
  | cons l ls ih =>
    cases ls with
    | nil => simpa using hend l List.mem_cons_self
    | cons k ls =>
      have ih := ih (fun l hm => hl l (List.mem_cons_of_mem _ hm))
        fun l hm => hend l (List.mem_cons_of_mem _ hm)
      rw [List.intercalate_cons_cons, List.append_assoc]
      refine Avoids.append ?_ ((hsep _).append ih)
      rw [List.append_assoc]
      exact hl l List.mem_cons_self _

end Marks

end SodiumDecl
