import SodiumDecl.Proofs.Contents

/-!
# The order of a listing

A directory is listed in any order, and its files may be read in any schedule: `Gathered f xs r`
says that `r` is what reading `xs` can give, the values in the order of `xs` or the failure of any
one that fails. `Loads t c root r` says so of a corpus, for some order of its directory of symbols.

`Corpus.load` is one of these results, in every tree with the same entries (`loads_load`), and they
are all alike (`load_order_independent`): one corpus, or one error, unless several files cannot be
read, when each error is that of one of them.
-/

namespace SodiumDecl

/-! ## Trees with the same entries -/

namespace FileTree

variable {t u : FileTree}

namespace Same

theorem enter (h : t.Same u) : u.enter = t.enter := by
  funext b n
  rw [FileTree.enter, FileTree.enter, h.2]

theorem locate (h : t.Same u) (p : Path) : u.locate p = t.locate p := by
  rw [FileTree.locate, FileTree.locate, h.enter, h.1]

theorem entry (h : t.Same u) (p : Path) : u.entry p = t.entry p := by
  have hfind : u.find? = t.find? := funext h.2
  rw [FileTree.entry, FileTree.entry, h.locate, hfind]

theorem isFile (h : t.Same u) : u.isFile = t.isFile := by
  funext p
  rw [FileTree.isFile, FileTree.isFile, h.entry]

theorem readText (h : t.Same u) (p : Path) : u.readText p = t.readText p := by
  rw [FileTree.readText, FileTree.readText, FileTree.readBytes, FileTree.readBytes, h.entry]

end Same

theorem nodup_namesIn (t : FileTree) (dir : Location) : (t.namesIn dir).Nodup := by
  have hnames : t.namesIn dir = (t.entries.map Prod.fst).filterMap (nameIn? dir) := by
    rw [List.filterMap_map]
    rfl
  rw [hnames]
  refine t.nodup.filterMap fun l l' n hl hl' => ?_
  rw [nameIn?_eq_some.mp hl, nameIn?_eq_some.mp hl']

theorem Same.namesIn (h : t.Same u) (dir : Location) : (u.namesIn dir).Perm (t.namesIn dir) := by
  refine (List.perm_ext_iff_of_nodup (u.nodup_namesIn dir) (t.nodup_namesIn dir)).mpr fun n => ?_
  rw [mem_namesIn, mem_namesIn, h.2]

/-- A directory can be listed in both trees, in two orders, or in none. -/
theorem Same.list (h : t.Same u) (p : Path) :
    (∃ e, t.list p = .error e ∧ u.list p = .error e) ∨
      ∃ names names', t.list p = .ok names ∧ u.list p = .ok names' ∧ names'.Perm names := by
  rw [FileTree.list, FileTree.list, h.entry, h.locate]
  cases t.entry p with
  | error e => exact Or.inl ⟨e, rfl, rfl⟩
  | ok entry =>
    cases entry with
    | file contents => exact Or.inl ⟨.notDirectory, rfl, rfl⟩
    | directory =>
      cases t.locate p with
      | error e => exact Or.inl ⟨e, rfl, rfl⟩
      | ok l => exact Or.inr ⟨_, _, rfl, rfl, h.namesIn l⟩

end FileTree

/-! ## Reading in any schedule -/

section Gathered

variable {ε α β : Type} {f : α → Except ε β} {xs ys : List α} {r r' : Except ε (List β)}

/-- What reading things can give: all values, or the failure of any one that fails. -/
inductive Gathered (f : α → Except ε β) (xs : List α) : Except ε (List β) → Prop
  | ok {bs : List β} (h : xs.map f = bs.map .ok) : Gathered f xs (.ok bs)
  | error {x : α} {e : ε} (hx : x ∈ xs) (h : f x = .error e) : Gathered f xs (.error e)

/-- Reading one after another gives the first failure. -/
theorem gathered_mapM (f : α → Except ε β) (xs : List α) : Gathered f xs (xs.mapM f) := by
  cases h : xs.mapM f with
  | ok bs => exact .ok (forall₂_ok_iff.mp (mapM_eq_ok.mp h))
  | error e =>
    obtain ⟨before, x, after, -, rfl, -, hx⟩ := mapM_eq_error.mp h
    exact .error (by simp) hx

theorem ne_error_of_map {bs : List β} (h : xs.map f = bs.map .ok) :
    ∀ x ∈ xs, ∀ e, f x ≠ .error e := by
  intro x hx e he
  have hmem : f x ∈ bs.map Except.ok := h ▸ List.mem_map_of_mem hx
  simp [he] at hmem

/-- In two orders all values are read, the same ones, or in each of them one fails. -/
theorem Gathered.perm (h : Gathered f xs r) (h' : Gathered f ys r') (hp : xs.Perm ys) :
    ((∀ x ∈ xs, ∀ e, f x ≠ .error e) ∧ ∃ bs bs', r = .ok bs ∧ r' = .ok bs' ∧ bs.Perm bs') ∨
      ∃ x ∈ xs, ∃ y ∈ xs, ∃ e e', f x = .error e ∧ f y = .error e' ∧ r = .error e ∧
        r' = .error e' := by
  cases h with
  | ok h =>
    cases h' with
    | ok h' =>
      have hinj : Function.Injective (.ok : β → Except ε β) := fun _ _ => Except.ok.inj
      refine Or.inl ⟨ne_error_of_map h, _, _, rfl, rfl, (List.map_perm_map_iff hinj).mp ?_⟩
      rw [← h, ← h']
      exact hp.map f
    | error hy he => exact absurd he (ne_error_of_map h _ (hp.mem_iff.mpr hy) _)
  | error hx he =>
    cases h' with
    | ok h' => exact absurd he (ne_error_of_map h' _ (hp.mem_iff.mp hx) _)
    | error hy he' => exact Or.inr ⟨_, hx, _, hp.mem_iff.mpr hy, _, _, he, he', rfl, rfl⟩

end Gathered

/-! ## Loading -/

section Loads

variable {t u : FileTree} {c : Catalog} {root : Path}

/-- Load a corpus, given what reading its symbols gives. -/
def Corpus.loadWith (t : FileTree) (c : Catalog) (root : Path)
    (read : Except Error (List Wrapper.Symbol)) : Except Error Corpus := do
  let symbols ← read
  let functions := sortByName (·.name) (symbols ++ c.auxiliarySymbols)
  match duplicate? (functions.map (·.name)) with
  | some n => throw (.integrity (symbolsDirectory root) (.duplicateSymbol n))
  | none =>
    let constants ← readConstants t (constantsFile root)
    return { functions, constants := sortByName (·.name) (constants ++ [c.ready]) }

theorem load_eq_loadWith (t : FileTree) (c : Catalog) (root : Path) :
    Corpus.load t c root = Corpus.loadWith t c root (readSymbols t (symbolsDirectory root)) := by
  rw [Corpus.load, Corpus.loadFunctions, Corpus.loadWith]
  cases readSymbols t (symbolsDirectory root) with
  | error e => rfl
  | ok symbols =>
    simp only [ok_bind]
    generalize duplicate? _ = duplicate
    cases duplicate <;> rfl

/-- Loading does not depend on the order of the symbols. -/
theorem loadWith_perm {symbols symbols' : List Wrapper.Symbol} (h : symbols.Perm symbols') :
    Corpus.loadWith t c root (.ok symbols) = Corpus.loadWith t c root (.ok symbols') := by
  have hperm := h.append_right c.auxiliarySymbols
  simp only [Corpus.loadWith, ok_bind]
  rw [← map_sortByName_of_perm hperm]
  split
  case h_1 => rfl
  case h_2 hd => rw [sortByName_eq_of_perm hperm hd]

/-- A file of the directory of symbols cannot be read as a symbol. -/
def UnreadableSymbol (t : FileTree) (root path : Path) : Prop :=
  ∃ names, t.list (symbolsDirectory root) = .ok names ∧
    path ∈ regularFiles t (symbolsDirectory root) names ∧ ∃ e, readSymbol t path = .error e

/-- What loading a corpus can give, for some order in which its directory of symbols is listed and
some schedule in which its files are read. -/
inductive Loads (t : FileTree) (c : Catalog) (root : Path) : Except Error Corpus → Prop
  | missing {e : FileError} (h : t.list (symbolsDirectory root) = .error e) :
    Loads t c root (.error (.integrity (symbolsDirectory root) .noSymbols))
  | listed {names order : List String} {read : Except Error (List Wrapper.Symbol)}
    (h : t.list (symbolsDirectory root) = .ok names) (ho : order.Perm names)
    (hr : Gathered (readSymbol t) (regularFiles t (symbolsDirectory root) order) read) :
    Loads t c root (Corpus.loadWith t c root read)

/-- An error names a file of the directory of symbols that cannot be read as a symbol. -/
def NamesUnreadable (t : FileTree) (root : Path) (e : Error) : Prop :=
  ∃ path, UnreadableSymbol t root path ∧ ∃ fault, e = .descriptor path fault

theorem readSymbol_eq_error {p : Path} {e : Error} (h : readSymbol t p = .error e) :
    ∃ fault, e = .descriptor p fault := by
  unfold readSymbol at h
  split at h
  case h_1 f hf => exact ⟨_, (Except.error.inj h).symm⟩
  case h_2 text ht =>
    cases hs : Wrapper.Symbol.parse text with
    | ok s => simp [hs] at h
    | error f =>
      rw [hs] at h
      exact ⟨_, (Except.error.inj h).symm⟩

theorem regularFiles_perm {names names' : List String} (h : names.Perm names') (dir : Path) :
    (regularFiles t dir names).Perm (regularFiles t dir names') :=
  (h.map _).filter _

theorem unreadableSymbol_iff {names order : List String}
    (h : t.list (symbolsDirectory root) = .ok names) (ho : order.Perm names) {path : Path} :
    UnreadableSymbol t root path ↔
      path ∈ regularFiles t (symbolsDirectory root) order ∧ ∃ e, readSymbol t path = .error e := by
  rw [(regularFiles_perm ho _).mem_iff]
  constructor
  · rintro ⟨names', h', hpath⟩
    obtain rfl := Except.ok.inj (h.symm.trans h')
    exact hpath
  · exact fun hpath => ⟨names, h, hpath⟩

/-- In a tree with the same entries, a corpus loads as it can load for some order. -/
theorem loads_load (h : t.Same u) (c : Catalog) (root : Path) :
    Loads t c root (Corpus.load u c root) := by
  have hread : readSymbol u = readSymbol t := by
    funext p
    rw [readSymbol, readSymbol, h.readText]
  have hconstants : readConstants u = readConstants t := by
    funext p
    rw [readConstants, readConstants, h.readText]
  have hwith (read : Except Error (List Wrapper.Symbol)) :
      Corpus.loadWith u c root read = Corpus.loadWith t c root read := by
    rw [Corpus.loadWith, Corpus.loadWith, hconstants]
  rw [load_eq_loadWith, hwith, readSymbols_eq]
  rcases h.list (symbolsDirectory root) with ⟨e, ht, hu⟩ | ⟨names, names', ht, hu, hp⟩
  · rw [hu]
    exact .missing ht
  · rw [hu, h.isFile, hread]
    exact .listed ht hp (gathered_mapM _ _)

/-- A directory is listed in whatever order, and its files are read in whatever schedule: a corpus
loads as the same corpus, or it fails. It fails with the same error as long as no two files of the
directory of symbols cannot be read as symbols, and otherwise with an error that names one of those
that cannot. -/
theorem load_order_independent (t : FileTree) (c : Catalog) (root : Path) :
    (∀ u, t.Same u → Loads t c root (Corpus.load u c root)) ∧
      ∀ x y, Loads t c root x → Loads t c root y →
        (∃ corpus, x = .ok corpus ∧ y = .ok corpus) ∨
          ∃ e e', x = .error e ∧ y = .error e' ∧
            ((∀ p q, UnreadableSymbol t root p → UnreadableSymbol t root q → p = q) → e = e') ∧
            ((∃ p q, UnreadableSymbol t root p ∧ UnreadableSymbol t root q ∧ p ≠ q) →
              NamesUnreadable t root e ∧ NamesUnreadable t root e') := by
  refine ⟨fun u h => loads_load h c root, fun x y hx hy => ?_⟩
  cases hx with
  | missing ht =>
    cases hy with
    | missing _ =>
      refine Or.inr ⟨_, _, rfl, rfl, fun _ => rfl, ?_⟩
      rintro ⟨p, -, ⟨names, hnames, -⟩, -⟩
      simp [ht] at hnames
    | listed ht' _ _ => simp [ht] at ht'
  | listed ht ho hr =>
    cases hy with
    | missing ht' => simp [ht] at ht'
    | listed ht' ho' hr' =>
      obtain rfl := Except.ok.inj (ht.symm.trans ht')
      rcases hr.perm hr' (regularFiles_perm (ho.trans ho'.symm) _) with
        ⟨hall, symbols, symbols', rfl, rfl, hp⟩ | ⟨p, hp, q, hq, e, e', he, he', rfl, rfl⟩
      · -- All files are read, so the two results are the same.
        rw [← loadWith_perm hp]
        cases Corpus.loadWith t c root (.ok symbols) with
        | ok corpus => exact Or.inl ⟨corpus, rfl, rfl⟩
        | error e =>
          refine Or.inr ⟨e, e, rfl, rfl, fun _ => rfl, ?_⟩
          rintro ⟨p, -, hp, -⟩
          obtain ⟨hp, f, hf⟩ := (unreadableSymbol_iff ht ho).mp hp
          exact absurd hf (hall p hp f)
      · have hp := (unreadableSymbol_iff ht ho).mpr ⟨hp, e, he⟩
        have hq := (unreadableSymbol_iff ht ho).mpr ⟨hq, e', he'⟩
        refine Or.inr ⟨e, e', rfl, rfl, fun hone => ?_, fun _ => ?_⟩
        · obtain rfl := hone p q hp hq
          exact Except.error.inj (he.symm.trans he')
        · exact ⟨⟨p, hp, readSymbol_eq_error he⟩, ⟨q, hq, readSymbol_eq_error he'⟩⟩

end Loads

end SodiumDecl
