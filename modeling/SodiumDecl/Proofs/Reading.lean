import SodiumDecl.Proofs.Contents

/-!
# What a run reads

`Alike key x y` says that two results are the same, or are failures that `key` does not tell
apart. It goes through sequences of steps (`Alike.bind`, `Alike.mapM`).

`SameCorpus base t u` says that two trees are the same wherever a run on the corpus at `base`
looks: their directories are, and so are the package, the constants and the entries of the
directory of symbols. Then the corpus is accepted in both or in none (`SameCorpus.acceptAt`) and
loads alike (`SameCorpus.load`).
-/

namespace SodiumDecl

/-! ## Results that are alike -/

section Alike

variable {ε κ α β : Type} {key : ε → κ} {x y : Except ε α}

/-- Two results are the same, or failures with one key. -/
inductive Alike (key : ε → κ) : Except ε α → Except ε α → Prop
  | ok (a : α) : Alike key (.ok a) (.ok a)
  | error {e e' : ε} (h : key e = key e') : Alike key (.error e) (.error e')

theorem Alike.refl (x : Except ε α) : Alike key x x := by
  cases x with
  | ok a => exact .ok a
  | error e => exact .error rfl

theorem Alike.elim (h : Alike key x y) : (∃ a, x = .ok a ∧ y = .ok a) ∨
    ∃ e e', x = .error e ∧ y = .error e' ∧ key e = key e' := by
  cases h with
  | ok a => exact Or.inl ⟨a, rfl, rfl⟩
  | error h => exact Or.inr ⟨_, _, rfl, rfl, h⟩

theorem Alike.ok_iff (h : Alike key x y) (a : α) : x = .ok a ↔ y = .ok a := by
  cases h with
  | ok => rfl
  | error => simp

theorem Alike.bind (h : Alike key x y) {f g : α → Except ε β}
    (hfg : ∀ a, x = .ok a → Alike key (f a) (g a)) : Alike key (x >>= f) (y >>= g) := by
  cases h with
  | ok a => exact hfg a rfl
  | error h => exact .error h

theorem Alike.mapM {f g : α → Except ε β} {as : List α} (h : ∀ a ∈ as, Alike key (f a) (g a)) :
    Alike key (as.mapM f) (as.mapM g) := by
  induction as with
  | nil => exact .ok []
  | cons a as ih =>
    rw [List.mapM_cons, List.mapM_cons]
    refine (h a List.mem_cons_self).bind fun b _ => ?_
    exact (ih fun c hc => h c (List.mem_cons_of_mem _ hc)).bind fun bs _ => .ok (b :: bs)

end Alike

/-- Failures of the file system are not told apart. -/
abbrev SameRead {α : Type} : Except FileError α → Except FileError α → Prop :=
  Alike fun _ => ()

/-- Failures of a run are told apart by their kinds. -/
abbrev SameKind {α : Type} : Except Error α → Except Error α → Prop := Alike Error.kind

/-! ## Reading files -/

variable {t u : FileTree} {p base : Path}

/-- Two trees have the same entry where a path leads in the first one. -/
def SameAt (t u : FileTree) (p : Path) : Prop := ∀ x, t.locate p = .ok x → u.find? x = t.find? x

theorem sameRead_locate (h : FileTree.SameDirectories t u) (p : Path) :
    SameRead (t.locate p) (u.locate p) := by
  cases ht : t.locate p with
  | ok l =>
    rw [h.locate.mpr ht]
    exact .ok l
  | error e =>
    cases hu : u.locate p with
    | ok l => simp [h.locate.mp hu] at ht
    | error e' => exact .error rfl

theorem sameRead_entry (h : FileTree.SameDirectories t u) (hp : SameAt t u p) :
    SameRead (t.entry p) (u.entry p) :=
  (sameRead_locate h p).bind fun l hl => by
    rw [hp l hl]
    exact .refl _

theorem sameRead_readBytes (h : FileTree.SameDirectories t u) (hp : SameAt t u p) :
    SameRead (t.readBytes p) (u.readBytes p) :=
  (sameRead_entry h hp).bind fun _ _ => .refl _

theorem sameRead_readText (h : FileTree.SameDirectories t u) (hp : SameAt t u p) :
    SameRead (t.readText p) (u.readText p) :=
  (sameRead_readBytes h hp).bind fun _ _ => .refl _

theorem isFile_eq (h : FileTree.SameDirectories t u) (hp : SameAt t u p) :
    u.isFile p = t.isFile p := by
  rw [FileTree.isFile, FileTree.isFile]
  rcases (sameRead_entry h hp).elim with ⟨e, ht, hu⟩ | ⟨e, e', ht, hu, -⟩ <;> rw [ht, hu]

/-! ## Reading a corpus -/

/-- Two trees are the same wherever a run on a corpus looks. -/
structure SameCorpus (base : Path) (t u : FileTree) : Prop where
  directories : FileTree.SameDirectories t u
  package : SameAt t u (packageFile base)
  constants : SameAt t u (constantsFile base)
  names : ∀ s, t.locate (symbolsDirectory base) = .ok s → u.namesIn s = t.namesIn s
  symbols : ∀ s n, t.locate (symbolsDirectory base) = .ok s →
    u.find? (s ++ [n]) = t.find? (s ++ [n])

theorem SameCorpus.list (h : SameCorpus base t u) :
    SameRead (t.list (symbolsDirectory base)) (u.list (symbolsDirectory base)) := by
  have hiff : ∀ names, t.list (symbolsDirectory base) = .ok names ↔
      u.list (symbolsDirectory base) = .ok names := by
    intro names
    rw [list_eq_ok, list_eq_ok]
    refine exists_congr fun l => ?_
    rw [h.directories.locate, h.directories.2]
    refine and_congr_right fun hl => ?_
    rw [h.names l hl]
  cases ht : t.list (symbolsDirectory base) with
  | ok names =>
    rw [(hiff names).mp ht]
    exact .ok names
  | error e =>
    cases hu : u.list (symbolsDirectory base) with
    | ok names => simp [(hiff names).mpr hu] at ht
    | error e' => exact .error rfl

/-- The entries of the directory of symbols are the same. -/
theorem SameCorpus.sameAt_symbol (h : SameCorpus base t u) {names : List String}
    (hl : t.list (symbolsDirectory base) = .ok names) {n : String} (hn : n ∈ names) :
    SameAt t u (symbolsDirectory base / n) := by
  intro x hx
  obtain ⟨s, hs, -, rfl⟩ := list_eq_ok.mp hl
  obtain ⟨b, hb, -, rfl⟩ :=
    FileTree.locate_join (Path.text_join_ne_empty _ (by decide)) (isName_of_list hl hn) hx
  exact h.symbols b n hb

theorem SameCorpus.readSymbols (h : SameCorpus base t u) :
    SameKind (readSymbols t (symbolsDirectory base)) (readSymbols u (symbolsDirectory base)) := by
  rw [readSymbols_eq, readSymbols_eq]
  rcases h.list.elim with ⟨names, ht, hu⟩ | ⟨e, e', ht, hu, -⟩
  · rw [ht, hu]
    dsimp only
    have hat : ∀ path ∈ names.map (symbolsDirectory base / ·), SameAt t u path := by
      intro path hpath
      obtain ⟨n, hn, rfl⟩ := List.mem_map.mp hpath
      exact h.sameAt_symbol ht hn
    have hfilter : (names.map (symbolsDirectory base / ·)).filter u.isFile =
        (names.map (symbolsDirectory base / ·)).filter t.isFile :=
      List.filter_congr fun path hpath => isFile_eq h.directories (hat path hpath)
    rw [hfilter]
    refine Alike.mapM fun path hpath => ?_
    have hread := sameRead_readText h.directories (hat path (List.mem_of_mem_filter hpath))
    rw [readSymbol, readSymbol]
    rcases hread.elim with ⟨text, ht, hu⟩ | ⟨e, e', ht, hu, -⟩
    · rw [ht, hu]
      exact .refl _
    · rw [ht, hu]
      exact .error rfl
  · rw [ht, hu]
    exact .refl _

theorem SameCorpus.readConstants (h : SameCorpus base t u) :
    SameKind (readConstants t (constantsFile base)) (readConstants u (constantsFile base)) := by
  rw [SodiumDecl.readConstants, SodiumDecl.readConstants]
  rcases (sameRead_readText h.directories h.constants).elim with
    ⟨text, ht, hu⟩ | ⟨e, e', ht, hu, -⟩
  · rw [ht, hu]
    exact .refl _
  · rw [ht, hu]
    exact .error rfl

/-- A corpus loads alike in both trees. -/
theorem SameCorpus.load (h : SameCorpus base t u) (c : Catalog) :
    SameKind (Corpus.load t c base) (Corpus.load u c base) := by
  refine Alike.bind ?_ fun functions _ => h.readConstants.bind fun read _ => .refl _
  exact h.readSymbols.bind fun read _ => .refl _

theorem SameCorpus.packageVersion (h : SameCorpus base t u) :
    SameKind (packageVersion t base) (packageVersion u base) := by
  rw [SodiumDecl.packageVersion, SodiumDecl.packageVersion]
  rcases (sameRead_readText h.directories h.package).elim with
    ⟨text, ht, hu⟩ | ⟨e, e', ht, hu, -⟩
  · rw [ht, hu]
    exact .refl _
  · rw [ht, hu]
    exact .error rfl

theorem SameCorpus.checkSource (h : SameCorpus base t u) :
    SameKind (checkSource t base) (checkSource u base) := by
  rw [checkSource_eq, checkSource_eq]
  rcases h.list.elim with ⟨names, ht, hu⟩ | ⟨e, e', ht, hu, -⟩
  · rw [ht, hu]
    dsimp only
    rcases (sameRead_readBytes h.directories h.constants).elim with
      ⟨text, ht, hu⟩ | ⟨e, e', ht, hu, -⟩
    · rw [ht, hu]
      dsimp only
      split
      · exact h.packageVersion
      · exact .refl _
    · rw [ht, hu]
      exact .refl _
  · rw [ht, hu]
    exact .refl _

/-- A corpus is accepted in both trees or in none. -/
theorem SameCorpus.acceptAt (h : SameCorpus base t u) (s : Settings) (scratch : Option Path) :
    SameKind (acceptAt t s base scratch) (acceptAt u s base scratch) :=
  h.checkSource.bind fun _ _ => .refl _

end SodiumDecl
