import SodiumDecl.Proofs.Scanning

/-!
# Reading what was written

`Reads cs t` says that the characters `cs` are read as the tree `t`, whatever is open around
them. The text of a value is read as the value's tree (`Value.Integral.reads`) if every
number in it is an integer of 64 bits, for the text of a double may come back as another
double.

Of any text, the numbers of its tree stand there as literals (`written_read`). Each token
keeps this for the arrays and objects that are still open (`Builder.Written.step`).
-/

namespace SodiumDecl.Json

/-! ## Tokens into trees -/

/-- The tokens are the tree, whatever is open around it. -/
def Builds (ts : List Token) (t : Tree) : Prop :=
  ∀ stack, ts.foldl Builder.step (.inside stack .value) = Builder.supply t stack

/-- The tokens are elements after the first one. -/
def BuildsElems (ts : List Token) (trees : List Tree) : Prop :=
  ∀ elems stack, ts.foldl Builder.step (.inside (.array elems :: stack) .more)
    = .inside (.array (trees.reverse ++ elems) :: stack) .more

/-- The tokens are members after the first one. -/
def BuildsMembers (ts : List Token) (trees : List (Option String × Tree)) : Prop :=
  ∀ members stack, ts.foldl Builder.step (.inside (.object members :: stack) .more)
    = .inside (.object (trees.reverse ++ members) :: stack) .more

theorem Builder.foldl_over (r : Reading) (ts : List Token) :
    ts.foldl Builder.step (.over r) = .over r := by
  induction ts with
  | nil => rfl
  | cons t ts ih => exact ih

/-- A value may stand where an array may also end. -/
theorem Builds.valueOrEnd {ts : List Token} {t : Tree} (h : Builds ts t) (stack : List Frame) :
    ts.foldl Builder.step (.inside stack .valueOrEnd) = Builder.supply t stack := by
  cases ts with
  | nil => exact nomatch h []
  | cons u us =>
    rw [← h stack, List.foldl_cons, List.foldl_cons]
    cases u with
    | closeBracket =>
      -- No value begins with the end of an array.
      have hfail : Builder.step (.inside [] .value) .closeBracket = .over ⟨.broken, false⟩ := rfl
      have hover := h []
      rw [List.foldl_cons, hfail, Builder.foldl_over] at hover
      exact nomatch hover
    | _ => rfl

/-- The first element of an array, the elements after it and the end. -/
theorem Builds.array {ts us : List Token} {t : Tree} {trees : List Tree} (h : Builds ts t)
    (ht : BuildsElems us trees) :
    Builds (.openBracket :: ts ++ us ++ [.closeBracket]) (.array (t :: trees) true) := by
  intro stack
  simp only [List.cons_append, List.foldl_cons, List.foldl_append]
  rw [Builder.step, Builder.value, h.valueOrEnd, Builder.supply, ht]
  simp [Builder.step, Builder.endArray]

/-- An element after a comma. -/
theorem BuildsElems.cons {ts us : List Token} {t : Tree} {trees : List Tree} (h : Builds ts t)
    (ht : BuildsElems us trees) : BuildsElems (.comma :: ts ++ us) (t :: trees) := by
  intro elems stack
  simp only [List.cons_append, List.foldl_cons, List.foldl_append]
  rw [Builder.step, Builder.next, h, Builder.supply, ht]
  simp

/-- The first member of an object, the members after it and the end. -/
theorem Builds.object {ts us : List Token} {k : Option String} {t : Tree}
    {trees : List (Option String × Tree)} (h : Builds ts t) (ht : BuildsMembers us trees) :
    Builds (.openBrace :: .string k :: .colon :: ts ++ us ++ [.closeBrace])
      (.object ((k, t) :: trees) true) := by
  intro stack
  simp only [List.cons_append, List.foldl_cons, List.foldl_append]
  have hkey : Builder.step (.inside (.object [] :: stack) .keyOrEnd) (.string k)
      = .inside (.member [] k :: stack) .colon := rfl
  rw [Builder.step, Builder.value, hkey, Builder.step, h, Builder.supply, ht]
  simp [Builder.step, Builder.endObject]

/-- A member after a comma. -/
theorem BuildsMembers.cons {ts us : List Token} {k : Option String} {t : Tree}
    {trees : List (Option String × Tree)} (h : Builds ts t) (ht : BuildsMembers us trees) :
    BuildsMembers (.comma :: .string k :: .colon :: ts ++ us) ((k, t) :: trees) := by
  intro members stack
  simp only [List.cons_append, List.foldl_cons, List.foldl_append]
  have hkey : Builder.step (.inside (.object members :: stack) .key) (.string k)
      = .inside (.member members k :: stack) .colon := rfl
  rw [Builder.step, Builder.next, hkey, Builder.step, h, Builder.supply, ht]
  simp

/-! ## Texts into trees -/

/-- The characters are read as the tree, whatever stands around them. -/
def Reads (cs : List Char) (t : Tree) : Prop := ∃ ts, Scans cs ts ∧ Builds ts t

/-- A whole text that is read as a tree. -/
theorem Reads.read_eq {cs : List Char} {t : Tree} (h : Reads cs t) :
    read (String.ofList cs) = ⟨t, false⟩ := by
  obtain ⟨ts, hscan, hbuild⟩ := h
  rw [read, String.toList_ofList, hscan.tokens_eq, hbuild]
  rfl

/-- The characters are read as a member: a key, a colon and a value. -/
def ReadsMember (cs : List Char) (m : Option String × Tree) : Prop :=
  ∃ ts, Scans cs (.string m.1 :: .colon :: ts) ∧ Builds ts m.2

theorem scans_closeBracket : Scans [']'] [.closeBracket] := scans_nil.cons fun _ => rfl

theorem scans_closeBrace : Scans ['}'] [.closeBrace] := scans_nil.cons fun _ => rfl

/-- No number goes on with what stands after a comma. -/
theorem isNumberChar_head?_flatMap_comma {α : Type} (text : α → List Char) (as : List α) :
    ∀ c ∈ (as.flatMap fun a => ',' :: text a).head?, isNumberChar c = false := by
  cases as <;> simp [isNumberChar]

/-- Elements that are read one by one are read after each other, each after a comma. -/
theorem reads_elems {ps : List (List Char × Tree)} (h : ∀ p ∈ ps, Reads p.1 p.2) :
    ∃ ts, Scans (ps.flatMap fun p => ',' :: p.1) ts ∧ BuildsElems ts (ps.map Prod.snd) := by
  induction ps with
  | nil => exact ⟨[], scans_nil, fun _ _ => rfl⟩
  | cons p ps ih =>
    obtain ⟨⟨ts, hscan, hbuild⟩, hlater⟩ := List.forall_mem_cons.mp h
    obtain ⟨us, hscans, hbuilds⟩ := ih hlater
    exact ⟨_, (hscan.cons fun _ => rfl).append hscans (isNumberChar_head?_flatMap_comma _ ps),
      BuildsElems.cons hbuild hbuilds⟩

/-- An array is read if its elements are. -/
theorem reads_array {p : List Char × Tree} {ps : List (List Char × Tree)}
    (h : ∀ q ∈ p :: ps, Reads q.1 q.2) :
    Reads ('[' :: p.1 ++ (ps.flatMap fun q => ',' :: q.1) ++ [']'])
      (.array ((p :: ps).map Prod.snd) true) := by
  obtain ⟨⟨ts, hscan, hbuild⟩, hlater⟩ := List.forall_mem_cons.mp h
  obtain ⟨us, hscans, hbuilds⟩ := reads_elems hlater
  have hopen : Scans ('[' :: p.1) (.openBracket :: ts) := hscan.cons fun _ => rfl
  have helems := hopen.append hscans (isNumberChar_head?_flatMap_comma _ ps)
  exact ⟨_, helems.append scans_closeBracket (by simp [isNumberChar]), hbuild.array hbuilds⟩

/-- Members that are read one by one are read after each other, each after a comma. -/
theorem reads_members {ps : List (List Char × (Option String × Tree))}
    (h : ∀ p ∈ ps, ReadsMember p.1 p.2) :
    ∃ ts, Scans (ps.flatMap fun p => ',' :: p.1) ts ∧ BuildsMembers ts (ps.map Prod.snd) := by
  induction ps with
  | nil => exact ⟨[], scans_nil, fun _ _ => rfl⟩
  | cons p ps ih =>
    obtain ⟨⟨ts, hscan, hbuild⟩, hlater⟩ := List.forall_mem_cons.mp h
    obtain ⟨us, hscans, hbuilds⟩ := ih hlater
    exact ⟨_, (hscan.cons fun _ => rfl).append hscans (isNumberChar_head?_flatMap_comma _ ps),
      BuildsMembers.cons hbuild hbuilds⟩

/-- An object is read if its members are. -/
theorem reads_object {p : List Char × (Option String × Tree)}
    {ps : List (List Char × (Option String × Tree))} (h : ∀ q ∈ p :: ps, ReadsMember q.1 q.2) :
    Reads ('{' :: p.1 ++ (ps.flatMap fun q => ',' :: q.1) ++ ['}'])
      (.object ((p :: ps).map Prod.snd) true) := by
  obtain ⟨⟨ts, hscan, hbuild⟩, hlater⟩ := List.forall_mem_cons.mp h
  obtain ⟨us, hscans, hbuilds⟩ := reads_members hlater
  have hopen : Scans ('{' :: p.1) (.openBrace :: .string p.2.1 :: .colon :: ts) :=
    hscan.cons fun _ => rfl
  have hmembers := hopen.append hscans (isNumberChar_head?_flatMap_comma _ ps)
  exact ⟨_, hmembers.append scans_closeBrace (by simp [isNumberChar]), hbuild.object hbuilds⟩

/-! ## The texts of values -/

theorem trees_eq_map (vs : List Value) : Value.trees vs = vs.map Value.tree := by
  induction vs with
  | nil => rfl
  | cons v vs ih => rw [Value.trees, ih, List.map_cons]

theorem memberTrees_eq_map (ms : List (String × Value)) :
    Value.memberTrees ms = ms.map fun m => (some m.1, m.2.tree) := by
  induction ms with
  | nil => rfl
  | cons m ms ih => rw [Value.memberTrees, ih, List.map_cons]

theorem elemChars_eq_flatMap (vs : List Value) :
    Value.elemChars vs = vs.flatMap fun v => ',' :: v.chars := by
  induction vs with
  | nil => rfl
  | cons v vs ih => rw [Value.elemChars, ih, List.flatMap_cons]

theorem memberChars_eq_flatMap (ms : List (String × Value)) :
    Value.memberChars ms = ms.flatMap fun m => ',' :: (stringText m.1 ++ ':' :: m.2.chars) := by
  induction ms with
  | nil => rfl
  | cons m ms ih =>
    rw [Value.memberChars, ih, List.flatMap_cons]
    simp

theorem reads_arrayChars {vs : List Value} (h : ∀ v ∈ vs, Reads v.chars v.tree) :
    Reads (Value.array vs).chars (Value.array vs).tree := by
  cases vs with
  | nil => exact ⟨_, scans_closeBracket.cons fun _ => rfl, fun _ => rfl⟩
  | cons v vs =>
    have hpieces : ∀ q ∈ (v :: vs).map fun w => (w.chars, w.tree), Reads q.1 q.2 := by
      simpa using h
    have harray := reads_array hpieces
    simpa [Value.chars, Value.tree, Value.trees, elemChars_eq_flatMap, trees_eq_map,
      List.flatMap_map, Function.comp_def] using harray

/-- A key, a colon and a value. -/
theorem readsMember_text {k : String} {cs : List Char} {t : Tree} (h : Reads cs t) :
    ReadsMember (stringText k ++ ':' :: cs) (some k, t) := by
  obtain ⟨ts, hscan, hbuild⟩ := h
  exact ⟨ts, (scans_stringText k).append (hscan.cons fun _ => rfl) (by simp [isNumberChar]), hbuild⟩

theorem reads_objectChars {ms : List (String × Value)} (h : ∀ m ∈ ms, Reads m.2.chars m.2.tree) :
    Reads (Value.object ms).chars (Value.object ms).tree := by
  let piece (m : String × Value) : List Char × (Option String × Tree) :=
    (stringText m.1 ++ ':' :: m.2.chars, (some m.1, m.2.tree))
  cases ms with
  | nil => exact ⟨_, scans_closeBrace.cons fun _ => rfl, fun _ => rfl⟩
  | cons m ms =>
    have hpieces : ∀ q ∈ (m :: ms).map piece, ReadsMember q.1 q.2 :=
      List.forall_mem_map.mpr fun n hn => readsMember_text (h n hn)
    have hobject := reads_object hpieces
    simpa [piece, Value.chars, Value.tree, Value.memberTrees, memberChars_eq_flatMap,
      memberTrees_eq_map, List.flatMap_map, Function.comp_def] using hobject

/-- Every number in the value is an integer of 64 bits. -/
inductive Value.Integral : Value → Prop
  | null : Integral .null
  | bool (b : Bool) : Integral (.bool b)
  | string (s : String) : Integral (.string s)
  | integer (i : Int) : FitsWord i → Integral (.number (.integer i))
  | array (vs : List Value) : (∀ v ∈ vs, Integral v) → Integral (.array vs)
  | object (ms : List (String × Value)) : (∀ m ∈ ms, Integral m.2) → Integral (.object ms)

theorem Value.Integral.array_map {α : Type} {as : List α} {f : α → Value}
    (h : ∀ a ∈ as, (f a).Integral) : (Value.array (as.map f)).Integral :=
  .array _ (List.forall_mem_map.mpr h)

/-- The text of a value is read as the tree of the value. -/
theorem Value.Integral.reads {v : Value} (h : v.Integral) : Reads v.chars v.tree := by
  induction h with
  | null => exact ⟨_, scans_null, fun _ => rfl⟩
  | bool b =>
    cases b with
    | true => exact ⟨_, scans_true, fun _ => rfl⟩
    | false => exact ⟨_, scans_false, fun _ => rfl⟩
  | string s => exact ⟨_, scans_stringText s, fun _ => rfl⟩
  | integer i hfits =>
    refine ⟨_, scans_integerText i, fun stack => ?_⟩
    have hnumber : (integerLiteral i).number? = some (.integer i) := by
      rw [Literal.number?, integer?_integerLiteral hfits]
    rw [List.foldl_cons, List.foldl_nil, Builder.step, Builder.value, hnumber, Value.tree]
  | array vs _ ih => exact reads_arrayChars ih
  | object ms _ ih => exact reads_objectChars ih

/-! ## The numbers of a text -/

/-- Every number in the tree is the value of a literal. -/
inductive Tree.Written : Tree → Prop
  | null : Written .null
  | bool (b : Bool) : Written (.bool b)
  | number (l : Literal) : Written (.number l.number?)
  | string (s : Option String) : Written (.string s)
  | array (ts : List Tree) (closed : Bool) : (∀ t ∈ ts, Written t) → Written (.array ts closed)
  | object (ms : List (Option String × Tree)) (closed : Bool) :
    (∀ m ∈ ms, Written m.2) → Written (.object ms closed)
  | broken : Written .broken

/-- What is read of an open array or object is made of literals. -/
def Frame.Written : Frame → Prop
  | .array elems => ∀ t ∈ elems, t.Written
  | .object members | .member members _ => ∀ m ∈ members, m.2.Written

theorem Frame.Written.cut {f : Frame} (hf : f.Written) {last : Option Tree}
    (hl : ∀ t ∈ last, t.Written) : (f.cut last).Written := by
  cases f with
  | array elems =>
    refine .array _ _ fun t ht => ?_
    rcases List.mem_append.mp (List.mem_reverse.mp ht) with h | h
    · exact hl t (Option.mem_toList.mp h)
    · exact hf t h
  | object members => exact .object _ _ fun m hm => hf m (List.mem_reverse.mp hm)
  | member members k =>
    refine .object _ _ fun m hm => ?_
    rcases List.mem_cons.mp (List.mem_reverse.mp hm) with rfl | h
    · cases last with
      | none => exact .broken
      | some t => exact hl t rfl
    · exact hf m h

namespace Builder

/-- What is read so far is made of literals. -/
def Written : Builder → Prop
  | .inside stack _ => ∀ f ∈ stack, f.Written
  | .complete root => root.Written
  | .over r => r.root.Written

variable {stack : List Frame}

theorem written_collapse (hs : ∀ f ∈ stack, f.Written) {last : Option Tree}
    (hl : ∀ t ∈ last, t.Written) : (collapse last stack).Written := by
  induction stack generalizing last with
  | nil =>
    cases last with
    | none => exact .broken
    | some t => exact hl t rfl
  | cons f fs ih =>
    refine ih (fun g hg => hs g (List.mem_cons_of_mem _ hg)) fun t ht => ?_
    obtain rfl : f.cut last = t := by simpa using ht
    exact (hs f List.mem_cons_self).cut hl

theorem written_fail (hs : ∀ f ∈ stack, f.Written) : (fail stack).Written :=
  written_collapse hs fun _ h => nomatch h

theorem written_supply {t : Tree} (ht : t.Written) (hs : ∀ f ∈ stack, f.Written) :
    (supply t stack).Written := by
  cases stack with
  | nil => exact ht
  | cons f fs =>
    obtain ⟨hf, hfs⟩ := List.forall_mem_cons.mp hs
    cases f with
    | array elems => exact List.forall_mem_cons.mpr ⟨List.forall_mem_cons.mpr ⟨ht, hf⟩, hfs⟩
    | object members => exact written_fail hs
    | member members k =>
      exact List.forall_mem_cons.mpr
        ⟨show Frame.Written (.object _) from List.forall_mem_cons.mpr ⟨ht, hf⟩, hfs⟩

theorem written_endArray (hs : ∀ f ∈ stack, f.Written) : (endArray stack).Written := by
  unfold endArray
  split
  · next elems fs =>
    obtain ⟨hf, hfs⟩ := List.forall_mem_cons.mp hs
    exact written_supply (.array _ _ fun t ht => hf t (List.mem_reverse.mp ht)) hfs
  · exact written_fail hs

theorem written_endObject (hs : ∀ f ∈ stack, f.Written) : (endObject stack).Written := by
  unfold endObject
  split
  · next members fs =>
    obtain ⟨hf, hfs⟩ := List.forall_mem_cons.mp hs
    exact written_supply (.object _ _ fun m hm => hf m (List.mem_reverse.mp hm)) hfs
  · exact written_fail hs

theorem written_value (hs : ∀ f ∈ stack, f.Written) (u : Token) : (value stack u).Written := by
  unfold value
  split
  · exact written_supply .null hs
  · exact written_supply (.bool _) hs
  · exact written_supply (.number _) hs
  · exact written_supply (.string _) hs
  · exact List.forall_mem_cons.mpr ⟨(fun _ h => nomatch h), hs⟩
  · exact List.forall_mem_cons.mpr ⟨(fun _ h => nomatch h), hs⟩
  · exact written_fail hs

theorem written_key (hs : ∀ f ∈ stack, f.Written) (u : Token) : (key stack u).Written := by
  unfold key
  split
  · obtain ⟨hf, hfs⟩ := List.forall_mem_cons.mp hs
    exact List.forall_mem_cons.mpr ⟨hf, hfs⟩
  · exact written_fail hs

theorem written_next (hs : ∀ f ∈ stack, f.Written) : (next stack).Written := by
  unfold next
  split
  · exact hs
  · exact hs
  · exact written_fail hs

/-- A token keeps what is read so far made of literals. -/
theorem Written.step {b : Builder} (h : b.Written) (u : Token) : (b.step u).Written := by
  unfold Builder.step
  split
  · exact h
  · exact h
  · exact written_value h u
  · split
    · exact written_endArray h
    · exact written_value h _
  · exact written_key h u
  · split
    · exact written_endObject h
    · exact written_key h _
  · split
    · exact h
    · exact written_fail h
  · split
    · exact written_next h
    · exact written_endArray h
    · exact written_endObject h
    · exact written_fail h

theorem Written.foldl {b : Builder} (h : b.Written) (us : List Token) :
    (us.foldl Builder.step b).Written := by
  induction us generalizing b with
  | nil => exact h
  | cons u us ih => exact ih (h.step u)

theorem Written.finish {b : Builder} (h : b.Written) : b.finish.root.Written := by
  cases b with
  | inside stack e => exact written_collapse h fun _ h => nomatch h
  | _ => exact h

end Builder

/-- The numbers of a text are the values of literals. -/
theorem written_read (text : String) : (read text).root.Written :=
  (Builder.Written.foldl (b := .inside [] .value) (fun _ h => nomatch h) _).finish

end SodiumDecl.Json
