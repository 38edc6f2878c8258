import SodiumDecl.Files.Path

/-!
# File trees

A tree of directories and files without links, as a list of entries by location, the names
that lead to an entry from the root. No two entries share a location, every entry stands in
a directory, and its names are names. `find?` is the view of a tree: `find?_put` and
`find?_erase` say what the two changes do to it, and `mem_namesIn` which names a directory
holds.

An entry is put where it can stand, in a directory and not in the place of one, and a put
elsewhere changes nothing. An erased entry takes all below it along.
-/

namespace SodiumDecl

/-- The names that lead to an entry from the root. -/
abbrev Location := List String

/-- A directory, or a file with its contents. -/
inductive Entry
  | directory
  | file (contents : ByteArray)

/-- Whether a directory is found can be decided. -/
instance : (o : Option Entry) → Decidable (o = some Entry.directory)
  | none => isFalse (by simp)
  | some (.file _) => isFalse (by simp)
  | some .directory => isTrue rfl

/-- Entries by location, and the location of the working directory. -/
structure FileTree where
  entries : List (Location × Entry)
  home : Location
  nodup : (entries.map Prod.fst).Nodup
  rooted : ∀ e ∈ entries,
    e.1 ≠ [] ∧ (e.1.dropLast = [] ∨ (e.1.dropLast, Entry.directory) ∈ entries)
  named : ∀ e ∈ entries, ∀ n ∈ e.1, Path.IsName n

namespace FileTree

/-- The tree of nothing but the root. -/
def bare (home : Location) : FileTree := ⟨[], home, by simp, by simp, by simp⟩

/-! ## The view -/

/-- The entry at a location. The root is a directory. -/
def find? (t : FileTree) (l : Location) : Option Entry :=
  if l = [] then some .directory else (t.entries.find? fun e => e.1 = l).map Prod.snd

@[simp] theorem find?_nil (t : FileTree) : t.find? [] = some .directory := by simp [find?]

theorem mem_of_find? {t : FileTree} {l : Location} {e : Entry} (h : t.find? l = some e)
    (hl : l ≠ []) : (l, e) ∈ t.entries := by
  rw [find?, if_neg hl] at h
  obtain ⟨x, hx, rfl⟩ := Option.map_eq_some_iff.mp h
  have hk : x.1 = l := by simpa using List.find?_some hx
  exact hk ▸ List.mem_of_find?_eq_some hx

theorem find?_of_mem_aux {k : Location} {e : Entry} :
    ∀ {es : List (Location × Entry)}, (es.map Prod.fst).Nodup → (k, e) ∈ es →
      es.find? (fun x => x.1 = k) = some (k, e)
  | x :: es, hn, he => by
    rw [List.map_cons, List.nodup_cons] at hn
    rcases List.mem_cons.mp he with rfl | he
    · simp
    · have hx : x.1 ≠ k := fun hk => hn.1 (hk ▸ List.mem_map_of_mem he)
      rw [List.find?_cons_of_neg (by simpa using hx)]
      exact find?_of_mem_aux hn.2 he

theorem find?_of_mem {t : FileTree} {l : Location} {e : Entry} (h : (l, e) ∈ t.entries) :
    t.find? l = some e := by
  rw [find?, if_neg (t.rooted _ h).1, find?_of_mem_aux t.nodup h]
  rfl

/-- Every entry stands in a directory. -/
theorem find?_dropLast {t : FileTree} {l : Location} (h : (t.find? l).isSome) :
    t.find? l.dropLast = some .directory := by
  by_cases hl : l = []
  · simp [hl]
  · obtain ⟨e, he⟩ := Option.isSome_iff_exists.mp h
    rcases (t.rooted _ (mem_of_find? he hl)).2 with hp | hp
    · simp_all
    · exact find?_of_mem hp

/-- The names that lead to an entry are names. -/
theorem isName_of_find? {t : FileTree} {l : Location} (h : (t.find? l).isSome) :
    ∀ n ∈ l, Path.IsName n := by
  by_cases hl : l = []
  · simp [hl]
  · obtain ⟨e, he⟩ := Option.isSome_iff_exists.mp h
    exact t.named _ (mem_of_find? he hl)

/-! ## Changes -/

/-- An entry can be put at a location: in a directory, not in the place of one, and under a
name. -/
def CanHold (t : FileTree) (l : Location) : Prop :=
  l ≠ [] ∧ t.find? l.dropLast = some .directory ∧ t.find? l ≠ some .directory
    ∧ ∀ n ∈ l, Path.IsName n

instance (t : FileTree) (l : Location) : Decidable (t.CanHold l) :=
  inferInstanceAs (Decidable (_ ∧ _ ∧ _ ∧ _))

/-- The tree with an entry at a location, if one can be put there. -/
def put (t : FileTree) (l : Location) (e : Entry) : FileTree :=
  if h : t.CanHold l then
    { entries := (l, e) :: t.entries.filter fun x => x.1 ≠ l
      home := t.home
      nodup := by
        rw [List.map_cons, List.nodup_cons]
        exact ⟨by simp, t.nodup.sublist ((List.filter_sublist).map Prod.fst)⟩
      rooted := by
        intro x hx
        rcases List.mem_cons.mp hx with rfl | hx
        · refine ⟨h.1, ?_⟩
          by_cases hp : l.dropLast = []
          · exact Or.inl hp
          · refine Or.inr (List.mem_cons_of_mem _ (List.mem_filter.mpr ?_))
            refine ⟨mem_of_find? h.2.1 hp, ?_⟩
            have hne : l.dropLast ≠ l := fun heq => by
              have hlen := congrArg List.length heq
              have hpos := List.length_pos_iff.mpr h.1
              rw [List.length_dropLast] at hlen
              omega
            simpa using hne
        · have hx := List.mem_filter.mp hx
          refine ⟨(t.rooted x hx.1).1, ?_⟩
          rcases (t.rooted x hx.1).2 with hp | hp
          · exact Or.inl hp
          · refine Or.inr (List.mem_cons_of_mem _ (List.mem_filter.mpr ⟨hp, ?_⟩))
            have hne : x.1.dropLast ≠ l := fun heq => h.2.2.1 (heq ▸ find?_of_mem hp)
            simpa using hne
      named := by
        intro x hx
        rcases List.mem_cons.mp hx with rfl | hx
        · exact h.2.2.2
        · exact t.named x (List.mem_filter.mp hx).1 }
  else t

theorem find?_put {t : FileTree} {l : Location} (h : t.CanHold l) (e : Entry) (x : Location) :
    (t.put l e).find? x = if x = l then some e else t.find? x := by
  rw [put, dif_pos h]
  by_cases hx : x = l
  · subst hx
    simp [find?, h.1]
  · have hl : ¬ l = x := fun heq => hx heq.symm
    by_cases hn : x = []
    · simp [find?, hn, h.1.symm]
    · simp only [find?, hn, hx, if_false, List.find?_cons, hl, decide_false, List.find?_filter]
      congr 2
      funext y
      by_cases hy : y.1 = x <;> simp [hy, hx]

@[simp] theorem put_home (t : FileTree) (l : Location) (e : Entry) :
    (t.put l e).home = t.home := by
  unfold put
  split <;> rfl

/-- The tree without the entry at a location and all below it. -/
def erase (t : FileTree) (l : Location) : FileTree where
  entries := t.entries.filter fun e => ¬ l <+: e.1
  home := t.home
  nodup := t.nodup.sublist ((List.filter_sublist).map Prod.fst)
  rooted := by
    intro x hx
    have hx := List.mem_filter.mp hx
    refine ⟨(t.rooted x hx.1).1, ?_⟩
    rcases (t.rooted x hx.1).2 with hp | hp
    · exact Or.inl hp
    · refine Or.inr (List.mem_filter.mpr ⟨hp, ?_⟩)
      have hn : ¬ l <+: x.1 := by simpa using hx.2
      have hn : ¬ l <+: x.1.dropLast := fun hl => hn (hl.trans (List.dropLast_prefix x.1))
      simpa using hn
  named := fun x hx => t.named x (List.mem_filter.mp hx).1

theorem find?_erase (t : FileTree) (l x : Location) :
    (t.erase l).find? x = if l <+: x ∧ x ≠ [] then none else t.find? x := by
  by_cases hn : x = []
  · simp [hn]
  · simp only [find?, erase, hn, if_false, List.find?_filter, ne_eq, not_false_eq_true, and_true]
    by_cases hl : l <+: x
    · rw [if_pos hl, Option.map_eq_none_iff, List.find?_eq_none]
      rintro y - hy
      simp only [decide_not, Bool.not_eq_true', decide_eq_false_iff_not, decide_eq_true_eq] at hy
      exact hy.1 (hy.2 ▸ hl)
    · rw [if_neg hl]
      congr 2
      funext y
      by_cases hy : y.1 = x
      · simpa [hy] using hl
      · simp [hy]

@[simp] theorem erase_home (t : FileTree) (l : Location) : (t.erase l).home = t.home := rfl

/-! ## Listings -/

/-- The name of a location just inside the directory at `dir`. -/
def nameIn? (dir l : Location) : Option String := if l.dropLast = dir then l.getLast? else none

/-- The names of the entries just inside a location. -/
def namesIn (t : FileTree) (dir : Location) : List String :=
  t.entries.filterMap fun e => nameIn? dir e.1

theorem nameIn?_eq_some {dir l : Location} {n : String} :
    nameIn? dir l = some n ↔ l = dir ++ [n] := by
  constructor
  · intro h
    unfold nameIn? at h
    split at h
    case isTrue hd =>
      obtain ⟨ys, rfl⟩ := List.getLast?_eq_some_iff.mp h
      simpa using hd
    case isFalse => simp at h
  · rintro rfl
    simp [nameIn?]

theorem mem_namesIn {t : FileTree} {dir : Location} {n : String} :
    n ∈ t.namesIn dir ↔ (t.find? (dir ++ [n])).isSome := by
  simp only [namesIn, List.mem_filterMap, nameIn?_eq_some]
  constructor
  · rintro ⟨⟨l, e⟩, he, rfl⟩
    rw [find?_of_mem he]
    rfl
  · intro h
    obtain ⟨e, he⟩ := Option.isSome_iff_exists.mp h
    exact ⟨_, mem_of_find? he (by simp), rfl⟩

/-- The entries below a location, by the names that lead on from it. -/
def below (t : FileTree) (dir : Location) : List (Location × Entry) :=
  t.entries.filterMap fun e =>
    if dir <+: e.1 ∧ dir ≠ e.1 then some (e.1.drop dir.length, e.2) else none

end FileTree

end SodiumDecl
