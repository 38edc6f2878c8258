import SodiumDecl.Proofs.Paths

/-!
# The entries of a directory

`entryPaths` takes the paths of all entries, or fails for the first one that cannot be read and
names the directory (`entryPaths_eq_ok`, `entryPaths_eq_error`).

In a tree a directory is listed when it is there (`list_eq_ok`), and every entry of it can be
read. So the steps that list the symbols of a corpus go on with the names of the entries
(`readSymbols_eq`, `checkSource_eq`).
-/

namespace SodiumDecl

variable {t : FileTree} {dir : Path} {names : List String}

/-! ## Entries that cannot be read -/

variable {entries : List (Except FileError Path)}

/-- All entries have to be read. -/
theorem entryPaths_eq_ok {paths : List Path} :
    entryPaths dir entries = .ok paths ↔ entries = paths.map .ok := by
  simp only [entryPaths, mapM_eq_ok, mapError_eq_ok]
  rw [← List.forall₂_map_right_iff, List.forall₂_eq_eq_eq]

theorem entryPaths_map_ok (dir : Path) (paths : List Path) :
    entryPaths dir (paths.map .ok) = .ok paths := entryPaths_eq_ok.mpr rfl

/-- The first entry that cannot be read is why a listing fails, and the directory is named. -/
theorem entryPaths_eq_error {e : Error} :
    entryPaths dir entries = .error e ↔ ∃ (before : List Path) (f : FileError) (after : _),
      entries = before.map .ok ++ .error f :: after ∧ e = .descriptor dir (.unreadable f) := by
  constructor
  · intro h
    obtain ⟨before, entry, after, paths, rfl, hbefore, hentry⟩ := mapM_eq_error.mp h
    obtain ⟨f, rfl, rfl⟩ := mapError_eq_error.mp hentry
    exact ⟨paths, f, after, by rw [entryPaths_eq_ok.mp hbefore], rfl⟩
  · rintro ⟨before, f, after, rfl, rfl⟩
    exact mapM_eq_error.mpr ⟨_, _, after, before, rfl, entryPaths_map_ok dir before, rfl⟩

example : entryPaths ⟨"symbols"⟩
    [.ok ⟨"symbols/a.json"⟩, .error (.device "permission denied"), .ok ⟨"symbols/b.json"⟩] =
      .error (.descriptor ⟨"symbols"⟩ (.unreadable (.device "permission denied"))) := rfl

/-! ## Directories in a tree -/

theorem list_eq_ok : t.list dir = .ok names ↔
    ∃ l, t.locate dir = .ok l ∧ t.find? l = some .directory ∧ names = t.namesIn l := by
  rw [FileTree.list, FileTree.entry]
  cases t.locate dir with
  | error e => simp
  | ok l =>
    rcases h : t.find? l with _ | _ | _
    · simp [h]
    · simp [h, eq_comm (a := names)]
    · by_cases hs : dir.endsInSlash <;> simp [h, hs]

theorem isName_of_list (hl : t.list dir = .ok names) {n : String} (hn : n ∈ names) :
    Path.IsName n := by
  obtain ⟨l, -, -, rfl⟩ := list_eq_ok.mp hl
  exact FileTree.isName_of_find? (FileTree.mem_namesIn.mp hn) n (by simp)

theorem readDirectory_eq (t : FileTree) (dir : Path) :
    t.readDirectory dir = (t.list dir).map fun names => (names.map (dir / ·)).map .ok := by
  rw [FileTree.readDirectory]
  cases t.list dir <;> simp

/-- The symbols of a directory are read from the files among its entries. -/
theorem readSymbols_eq (t : FileTree) (dir : Path) :
    readSymbols t dir =
      match t.list dir with
      | .error _ => .error (.integrity dir .noSymbols)
      | .ok names => ((names.map (dir / ·)).filter t.isFile).mapM (readSymbol t) := by
  rw [readSymbols, readDirectory_eq]
  cases t.list dir with
  | error e => rfl
  | ok names => rw [map_ok, mapError_ok, ok_bind, entryPaths_map_ok, ok_bind]

/-- Whether there is a description in a directory is judged by the names of its entries. -/
theorem any_isDescriptorName (hl : t.list dir = .ok names) :
    (names.map (dir / ·)).any (fun path => path.fileName?.any isDescriptorName) =
      names.any isDescriptorName := by
  rw [List.any_map, Bool.eq_iff_iff, List.any_eq_true, List.any_eq_true]
  refine exists_congr fun n => and_congr_right fun hn => ?_
  rw [Function.comp_apply, Path.fileName?_join dir (isName_of_list hl hn), Option.any_some]

theorem checkSource_eq (t : FileTree) (root : Path) :
    checkSource t root =
      match t.list (symbolsDirectory root) with
      | .error _ => .error (.integrity (symbolsDirectory root) .noSymbols)
      | .ok names =>
        match t.readBytes (constantsFile root) with
        | .error _ => .error (.integrity (constantsFile root) .noConstants)
        | .ok _ =>
          if names.any isDescriptorName then packageVersion t root
          else .error (.integrity (symbolsDirectory root) .noDescriptors) := by
  rw [checkSource, readDirectory_eq]
  cases hl : t.list (symbolsDirectory root) with
  | error e => rfl
  | ok names =>
    rw [map_ok, mapError_ok, ok_bind]
    cases t.readBytes (constantsFile root) with
    | error e => rfl
    | ok contents =>
      rw [mapError_ok, ok_bind, entryPaths_map_ok, ok_bind, any_isDescriptorName hl,
        throw_eq_error]

end SodiumDecl
