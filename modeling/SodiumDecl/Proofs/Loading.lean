import SodiumDecl.Proofs.Listing
import SodiumDecl.Proofs.Reading

/-!
# When a corpus loads

`Loadable t c root` says what loading needs: the directory of symbols can be listed, every regular
file directly inside it describes a symbol, no name is repeated among these symbols and the
hand-written ones, and the file of constants lists constants. `LoadFault t c root` holds the errors
of what is wrong first, in the order in which these are looked at.

Whatever the order of the listing and the schedule of the reading, loading succeeds exactly when
nothing is wrong, and otherwise fails with one of these errors (`load_outcome`). A file counts as
directly inside a directory when it can be reached there (`FileIn`), which a name or a path beyond
the limits of the file system prevents.
-/

namespace SodiumDecl

variable {t : FileTree} {c : Catalog} {root dir path : Path} {e : Error}

/-! ## The files of a directory -/

/-- A regular file directly inside a directory. Its name and its path are within the limits of the
file system, so that it can be read. -/
def FileIn (t : FileTree) (dir path : Path) : Prop :=
  ∃ l n contents, t.locate dir = .ok l ∧ t.find? (l ++ [n]) = some (.file contents) ∧
    path = dir / n ∧ n.utf8ByteSize ≤ FileTree.nameLimit ∧
    path.text.utf8ByteSize < FileTree.pathLimit

theorem Path.endsInSlash_join (p : Path) {n : String} (hn : IsName n) :
    (p / n).endsInSlash = false := by
  obtain ⟨cs, x, hx⟩ := List.eq_nil_or_concat n.toList |>.resolve_left (by simpa using hn.1)
  have hs : x ≠ '/' := fun h => hn.2.2.2.1 (by simp [hx, h])
  simpa [endsInSlash, toList_join p hn, hx] using hs

theorem FileTree.locate_join_iff (hp : dir.text ≠ "") {n : String} (hn : Path.IsName n)
    {l : Location} (hl : t.locate dir = .ok l) (hd : t.find? l = some .directory) (x : Location) :
    t.locate (dir / n) = .ok x ↔ x = l ++ [n] ∧ n.utf8ByteSize ≤ nameLimit ∧
      (dir / n).text.utf8ByteSize < pathLimit := by
  obtain ⟨h0, -, -, hw⟩ := locate_eq_ok.mp hl
  rw [locate_eq_ok, Path.hasNull_join hn, Path.names_join dir hn, Path.isAbsolute_join hn hp,
    List.foldlM_append, hw, ok_bind, List.foldlM_cons]
  have henter : (t.enter l n >>= fun b => [].foldlM t.enter b) = .ok x ↔
      x = l ++ [n] ∧ n.utf8ByteSize ≤ nameLimit := by
    rw [bind_eq_ok]
    constructor
    · rintro ⟨b, hb, hx⟩
      obtain rfl : b = x := by simpa using hx
      obtain ⟨-, ⟨h, -⟩ | ⟨h, -⟩ | ⟨-, -, hlimit, rfl⟩⟩ := enter_eq_ok.mp hb
      · exact absurd h hn.2.1
      · exact absurd h hn.2.2.1
      · exact ⟨rfl, hlimit⟩
    · rintro ⟨rfl, hlimit⟩
      exact ⟨_, enter_eq_ok.mpr ⟨hd, Or.inr (Or.inr ⟨hn.2.1, hn.2.2.1, hlimit, rfl⟩)⟩, rfl⟩
  rw [henter]
  have hne := Path.text_join_ne_empty dir hn
  tauto

theorem isFile_iff (hs : path.endsInSlash = false) : t.isFile path = true ↔
    ∃ l contents, t.locate path = .ok l ∧ t.find? l = some (.file contents) := by
  rw [FileTree.isFile, FileTree.entry, hs]
  cases t.locate path with
  | error e => simp
  | ok l => rcases h : t.find? l with _ | _ | _ <;> simp [h]

section Directory

variable {names : List String} (hp : dir.text ≠ "") (hl : t.list dir = .ok names)

include hp hl in
theorem mem_regularFiles : path ∈ regularFiles t dir names ↔ FileIn t dir path := by
  obtain ⟨l, hloc, hdir, hnames⟩ := list_eq_ok.mp hl
  rw [regularFiles, List.mem_filter, List.mem_map]
  constructor
  · rintro ⟨⟨n, hn, rfl⟩, hfile⟩
    have hname := isName_of_list hl hn
    obtain ⟨x, contents, hx, hfind⟩ := (isFile_iff (Path.endsInSlash_join dir hname)).mp hfile
    obtain ⟨rfl, hlimits⟩ := (FileTree.locate_join_iff hp hname hloc hdir x).mp hx
    exact ⟨l, n, contents, hloc, hfind, rfl, hlimits⟩
  · rintro ⟨l', n, contents, hloc', hfind, rfl, hlimits⟩
    obtain rfl := Except.ok.inj (hloc.symm.trans hloc')
    have hn : n ∈ names := by
      rw [hnames, FileTree.mem_namesIn, hfind]
      rfl
    have hname := isName_of_list hl hn
    refine ⟨⟨n, hn, rfl⟩, (isFile_iff (Path.endsInSlash_join dir hname)).mpr ?_⟩
    exact ⟨_, contents, (FileTree.locate_join_iff hp hname hloc hdir _).mpr ⟨rfl, hlimits⟩, hfind⟩

include hl in
/-- Each file of a directory is read once. -/
theorem nodup_regularFiles : (regularFiles t dir names).Nodup := by
  obtain ⟨l, -, -, hnames⟩ := list_eq_ok.mp hl
  have hnodup : names.Nodup := hnames ▸ FileTree.nodup_namesIn t l
  refine (List.Nodup.map_on (fun n hn m hm h => ?_) hnodup).filter _
  have hname := congrArg Path.fileName? h
  rw [Path.fileName?_join dir (isName_of_list hl hn),
    Path.fileName?_join dir (isName_of_list hl hm)] at hname
  exact Option.some.inj hname

end Directory

/-! ## What is wrong -/

/-- Why a file gives nothing that a parser reads. -/
inductive FaultIn {α : Type} (t : FileTree) (parse : String → Except Json.Fault α) (path : Path) :
    DescriptorFault → Prop
  | unreadable {f : FileError} (h : t.readText path = .error f) :
    FaultIn t parse path (.unreadable f)
  | invalid {text : String} {f : Json.Fault} (h : t.readText path = .ok text)
    (hf : parse text = .error f) : FaultIn t parse path (.invalid f)

/-- Read a file with a parser. -/
def readWith {α : Type} (t : FileTree) (parse : String → Except Json.Fault α) (path : Path) :
    Except Error α :=
  match t.readText path with
  | .error f => .error (.descriptor path (.unreadable f))
  | .ok text => (parse text).mapError fun f => .descriptor path (.invalid f)

theorem readWith_eq_error {α : Type} {parse : String → Except Json.Fault α} :
    readWith t parse path = .error e ↔ ∃ f, FaultIn t parse path f ∧ e = .descriptor path f := by
  unfold readWith
  cases ht : t.readText path with
  | error f =>
    constructor
    · intro h
      exact ⟨_, .unreadable ht, (Except.error.inj h).symm⟩
    · rintro ⟨_, ⟨h⟩ | ⟨h, -⟩, rfl⟩
      · obtain rfl := Except.error.inj (ht.symm.trans h)
        rfl
      · simp [ht] at h
  | ok text =>
    refine mapError_eq_error.trans ⟨?_, ?_⟩
    · rintro ⟨f, hf, rfl⟩
      exact ⟨_, .invalid ht hf, rfl⟩
    · rintro ⟨_, ⟨h⟩ | ⟨h, hf⟩, rfl⟩
      · simp [ht] at h
      · obtain rfl := Except.ok.inj (ht.symm.trans h)
        exact ⟨_, hf, rfl⟩

theorem readSymbol_eq_error_iff : readSymbol t path = .error e ↔
    ∃ f, FaultIn t Wrapper.Symbol.parse path f ∧ e = .descriptor path f := readWith_eq_error

theorem readConstants_eq_error_iff : readConstants t path = .error e ↔
    ∃ f, FaultIn t Wrapper.Constant.parseList path f ∧ e = .descriptor path f := readWith_eq_error

/-- The symbols that the files of the directory of symbols describe, one for each file. -/
def SymbolsOf (t : FileTree) (root : Path) (symbols : List Wrapper.Symbol) : Prop :=
  ∃ paths, paths.Nodup ∧ (∀ path, path ∈ paths ↔ FileIn t (symbolsDirectory root) path) ∧
    List.Forall₂ (Describes t) paths symbols

/-- The names of some symbols and of the hand-written ones. -/
def Catalog.allNames (c : Catalog) (symbols : List Wrapper.Symbol) : List String :=
  (symbols ++ c.auxiliarySymbols).map (·.name)

/-- Nothing is wrong with a corpus. -/
structure Loadable (t : FileTree) (c : Catalog) (root : Path) : Prop where
  listed : ∃ names, t.list (symbolsDirectory root) = .ok names
  symbols : ∃ symbols, SymbolsOf t root symbols ∧ (c.allNames symbols).Nodup
  constants : ∃ text constants, t.readText (constantsFile root) = .ok text ∧
    Wrapper.Constant.parseList text = .ok constants

/-- The errors of what is wrong with a corpus and is looked at before anything else that is wrong:
its directory of symbols, the files in it, the names of the symbols, and the constants. -/
inductive LoadFault (t : FileTree) (c : Catalog) (root : Path) : Error → Prop
  | unlisted {f : FileError} (h : t.list (symbolsDirectory root) = .error f) :
    LoadFault t c root (.integrity (symbolsDirectory root) .noSymbols)
  | symbol {path : Path} {f : DescriptorFault} (hp : FileIn t (symbolsDirectory root) path)
    (h : FaultIn t Wrapper.Symbol.parse path f) : LoadFault t c root (.descriptor path f)
  | repeated {names : List String} {symbols : List Wrapper.Symbol} {n : String}
    (hl : t.list (symbolsDirectory root) = .ok names) (hs : SymbolsOf t root symbols)
    (h : FirstRepeated n (c.allNames symbols)) :
    LoadFault t c root (.integrity (symbolsDirectory root) (.duplicateSymbol n))
  | constants {names : List String} {symbols : List Wrapper.Symbol} {f : DescriptorFault}
    (hl : t.list (symbolsDirectory root) = .ok names) (hs : SymbolsOf t root symbols)
    (hd : (c.allNames symbols).Nodup)
    (h : FaultIn t Wrapper.Constant.parseList (constantsFile root) f) :
    LoadFault t c root (.descriptor (constantsFile root) f)

/-! ## The symbols of the files -/

theorem text_symbolsDirectory_ne_empty (root : Path) : (symbolsDirectory root).text ≠ "" :=
  Path.text_join_ne_empty _ (by decide)

/-- All files describe symbols when reading them gives symbols, in their order. -/
theorem gathered_ok_iff {paths : List Path} {symbols : List Wrapper.Symbol} :
    Gathered (readSymbol t) paths (.ok symbols) ↔ List.Forall₂ (Describes t) paths symbols := by
  have hread : List.Forall₂ (Describes t) paths symbols ↔
      paths.map (readSymbol t) = symbols.map .ok := by
    simp only [← forall₂_ok_iff, readSymbol_eq_ok]
  rw [hread]
  constructor
  · rintro ⟨h⟩
    exact h
  · exact .ok

/-- The symbols of the files are the same in every order. -/
theorem SymbolsOf.perm {symbols symbols' : List Wrapper.Symbol} (h : SymbolsOf t root symbols)
    (h' : SymbolsOf t root symbols') : symbols.Perm symbols' := by
  obtain ⟨paths, hnodup, hmem, hs⟩ := h
  obtain ⟨paths', hnodup', hmem', hs'⟩ := h'
  have hp : paths.Perm paths' :=
    (List.perm_ext_iff_of_nodup hnodup hnodup').mpr fun p => (hmem p).trans (hmem' p).symm
  rcases (gathered_ok_iff.mpr hs).perm (gathered_ok_iff.mpr hs') hp with
    ⟨-, _, _, h, h', hp⟩ | ⟨_, -, _, -, _, _, -, -, h, -⟩
  · obtain rfl := Except.ok.inj h
    obtain rfl := Except.ok.inj h'
    exact hp
  · simp at h

theorem SymbolsOf.names_perm {symbols symbols' : List Wrapper.Symbol}
    (h : SymbolsOf t root symbols) (h' : SymbolsOf t root symbols') :
    (c.allNames symbols).Perm (c.allNames symbols') :=
  ((h.perm h').append_right _).map _

/-- None of the files is at fault when all of them describe symbols. -/
theorem SymbolsOf.ne_error {symbols : List Wrapper.Symbol} (h : SymbolsOf t root symbols)
    (hp : FileIn t (symbolsDirectory root) path) : readSymbol t path ≠ .error e := by
  obtain ⟨paths, -, hmem, hs⟩ := h
  obtain ⟨hmap⟩ := gathered_ok_iff.mpr hs
  exact ne_error_of_map hmap path ((hmem path).mpr hp) e

section Listed

variable {names order : List String} (hl : t.list (symbolsDirectory root) = .ok names)
  (ho : order.Perm names)

include hl ho in
theorem mem_regularFiles_order :
    path ∈ regularFiles t (symbolsDirectory root) order ↔
      FileIn t (symbolsDirectory root) path := by
  rw [(regularFiles_perm ho _).mem_iff]
  exact mem_regularFiles (text_symbolsDirectory_ne_empty root) hl

include hl ho in
theorem symbolsOf_of_gathered {symbols : List Wrapper.Symbol}
    (h : Gathered (readSymbol t) (regularFiles t (symbolsDirectory root) order) (.ok symbols)) :
    SymbolsOf t root symbols :=
  ⟨_, (regularFiles_perm ho _).nodup_iff.mpr (nodup_regularFiles hl),
    fun _ => mem_regularFiles_order hl ho, gathered_ok_iff.mp h⟩

include hl in
/-- When all files describe symbols, reading them gives those. -/
theorem exists_gathered {symbols : List Wrapper.Symbol} (h : SymbolsOf t root symbols) :
    ∃ read, Gathered (readSymbol t) (regularFiles t (symbolsDirectory root) names) (.ok read) ∧
      SymbolsOf t root read := by
  have hg := gathered_mapM (readSymbol t) (regularFiles t (symbolsDirectory root) names)
  generalize (regularFiles t (symbolsDirectory root) names).mapM (readSymbol t) = r at hg
  cases hg with
  | ok hg => exact ⟨_, .ok hg, symbolsOf_of_gathered hl (.refl _) (.ok hg)⟩
  | error hmem herror =>
    exact absurd herror (h.ne_error ((mem_regularFiles_order hl (.refl _)).mp hmem))

end Listed

/-! ## Loading -/

theorem loadWith_eq_ok {symbols : List Wrapper.Symbol} {corpus : Corpus}
    (h : Corpus.loadWith t c root (.ok symbols) = .ok corpus) :
    (c.allNames symbols).Nodup ∧ ∃ text constants, t.readText (constantsFile root) = .ok text ∧
      Wrapper.Constant.parseList text = .ok constants := by
  unfold Corpus.loadWith at h
  rw [ok_bind] at h
  dsimp only at h
  split at h
  case h_1 => simp at h
  case h_2 hd =>
    obtain ⟨constants, hk, -⟩ := bind_eq_ok.mp h
    obtain ⟨text, htext, hparse⟩ := readConstants_eq_ok.mp hk
    exact ⟨duplicate?_sortByName_eq_none.mp hd, text, constants, htext, hparse⟩

/-- What is wrong once all files are read. -/
theorem loadWith_eq_error {symbols : List Wrapper.Symbol} :
    Corpus.loadWith t c root (.ok symbols) = .error e ↔
      (∃ n, FirstRepeated n (c.allNames symbols) ∧
        e = .integrity (symbolsDirectory root) (.duplicateSymbol n)) ∨
      (c.allNames symbols).Nodup ∧ ∃ f,
        FaultIn t Wrapper.Constant.parseList (constantsFile root) f ∧
        e = .descriptor (constantsFile root) f := by
  unfold Corpus.loadWith
  rw [ok_bind]
  dsimp only
  split
  case h_1 n hd =>
    have hn : FirstRepeated n (c.allNames symbols) := duplicate?_sortByName_eq_some.mp hd
    constructor
    · intro h
      exact Or.inl ⟨n, hn, (Except.error.inj h).symm⟩
    · rintro (⟨m, hm, rfl⟩ | ⟨hnodup, -⟩)
      · rw [hn.unique hm]
        rfl
      · exact absurd hnodup hn.not_nodup
  case h_2 hd =>
    have hnodup : (c.allNames symbols).Nodup := duplicate?_sortByName_eq_none.mp hd
    have hread : ∀ x : Except Error (List Wrapper.Constant), (x >>= fun constants => pure
        { functions := sortByName (·.name) (symbols ++ c.auxiliarySymbols)
          constants := sortByName (·.name) (constants ++ [c.ready]) : Corpus }) = .error e ↔
        x = .error e := by
      intro x
      cases x <;> simp
    rw [hread, readConstants_eq_error_iff]
    constructor
    · exact fun h => Or.inr ⟨hnodup, h⟩
    · rintro (⟨m, hm, -⟩ | ⟨-, h⟩)
      · exact absurd hnodup hm.not_nodup
      · exact h

theorem Loadable.of_loads {corpus : Corpus} (h : Loads t c root (.ok corpus)) :
    Loadable t c root := by
  generalize hx : Except.ok corpus = x at h
  cases h with
  | missing _ => simp at hx
  | listed hl ho hr =>
    cases hr with
    | error _ _ => simp [Corpus.loadWith] at hx
    | ok hr =>
      obtain ⟨hnodup, hconstants⟩ := loadWith_eq_ok hx.symm
      exact ⟨⟨_, hl⟩, ⟨_, symbolsOf_of_gathered hl ho (.ok hr), hnodup⟩, hconstants⟩

theorem LoadFault.of_loads (h : Loads t c root (.error e)) : LoadFault t c root e := by
  generalize hx : Except.error e = x at h
  cases h with
  | missing hl =>
    obtain rfl := Except.error.inj hx
    exact .unlisted hl
  | listed hl ho hr =>
    cases hr with
    | error hmem herror =>
      obtain rfl := Except.error.inj hx
      obtain ⟨f, hf, rfl⟩ := readSymbol_eq_error_iff.mp herror
      exact .symbol ((mem_regularFiles_order hl ho).mp hmem) hf
    | ok hr =>
      have hs := symbolsOf_of_gathered hl ho (.ok hr)
      rcases loadWith_eq_error.mp hx.symm with ⟨n, hn, rfl⟩ | ⟨hnodup, f, hf, rfl⟩
      · exact .repeated hl hs hn
      · exact .constants hl hs hnodup hf

/-- A directory with files in it can be listed. -/
theorem FileIn.listed (h : FileIn t dir path) : ∃ names, t.list dir = .ok names := by
  obtain ⟨l, n, contents, hloc, hfind, -⟩ := h
  have hd := FileTree.find?_dropLast (t := t) (l := l ++ [n]) (by simp [hfind])
  rw [List.dropLast_concat] at hd
  exact ⟨_, list_eq_ok.mpr ⟨l, hloc, hd, rfl⟩⟩

theorem LoadFault.loads (h : LoadFault t c root e) : Loads t c root (.error e) := by
  cases h with
  | unlisted hl => exact .missing hl
  | symbol hp hf =>
    obtain ⟨names, hl⟩ := hp.listed
    have hmem := (mem_regularFiles_order hl (.refl _)).mpr hp
    exact .listed hl (.refl _) (.error hmem (readSymbol_eq_error_iff.mpr ⟨_, hf, rfl⟩))
  | repeated hl hs hn =>
    obtain ⟨read, hg, hread⟩ := exists_gathered hl hs
    rw [← loadWith_eq_error.mpr (Or.inl ⟨_, hn.perm (hs.names_perm hread), rfl⟩)]
    exact .listed hl (.refl _) hg
  | constants hl hs hnodup hf =>
    obtain ⟨read, hg, hread⟩ := exists_gathered hl hs
    have hnodup := (hs.names_perm hread).nodup_iff.mp hnodup
    rw [← loadWith_eq_error.mpr (Or.inr ⟨hnodup, _, hf, rfl⟩)]
    exact .listed hl (.refl _) hg

/-- Where nothing is wrong, nothing is wrong first. -/
theorem Loadable.not_loadFault (h : Loadable t c root) : ¬ LoadFault t c root e := by
  obtain ⟨⟨names, hl⟩, ⟨symbols, hs, hnodup⟩, text, constants, htext, hparse⟩ := h
  rintro (⟨hf⟩ | ⟨hp, hf⟩ | ⟨-, hs', hn⟩ | ⟨-, -, -, hf⟩)
  · simp [hl] at hf
  · exact hs.ne_error hp (readSymbol_eq_error_iff.mpr ⟨_, hf, rfl⟩)
  · exact hn.not_nodup ((hs.names_perm hs').nodup_iff.mp hnodup)
  · have hread := readConstants_eq_error_iff.mpr ⟨_, hf, rfl⟩
    simp [readConstants_eq_ok.mpr ⟨text, htext, hparse⟩] at hread

/-- After the layout was checked, what is wrong is in a file or in the names of the symbols. -/
theorem LoadFault.of_checkSource {version : String} (hv : checkSource t root = .ok version)
    (h : LoadFault t c root e) :
    (∃ path f, e = .descriptor path f ∧
      (FileIn t (symbolsDirectory root) path ∨ path = constantsFile root)) ∨
      ∃ n, e = .integrity (symbolsDirectory root) (.duplicateSymbol n) := by
  cases h with
  | unlisted hl => simp [checkSource_eq, hl] at hv
  | symbol hp _ => exact Or.inl ⟨_, _, rfl, Or.inl hp⟩
  | repeated _ _ _ => exact Or.inr ⟨_, rfl⟩
  | constants _ _ _ _ => exact Or.inl ⟨_, _, rfl, Or.inr rfl⟩

/-- In whatever order its directory of symbols is listed and in whatever schedule its files are
read, a corpus loads when nothing is wrong with it, and otherwise loading fails with an error of
what is wrong first. If the layout was checked before, that is a file of the directory of symbols,
the file of constants, or a repeated name. -/
theorem load_outcome (t : FileTree) (c : Catalog) (root : Path) :
    Loads t c root (Corpus.load t c root) ∧
      (∀ x, Loads t c root x → ((∃ corpus, x = .ok corpus) ↔ Loadable t c root)) ∧
      (∀ e, Loads t c root (.error e) ↔ LoadFault t c root e) ∧
      ∀ version, checkSource t root = .ok version → ∀ e, Loads t c root (.error e) →
        (∃ path f, e = .descriptor path f ∧
          (FileIn t (symbolsDirectory root) path ∨ path = constantsFile root)) ∨
          ∃ n, e = .integrity (symbolsDirectory root) (.duplicateSymbol n) := by
  refine ⟨loads_load (.refl t) c root, fun x hx => ?_, fun e => ⟨.of_loads, LoadFault.loads⟩, ?_⟩
  · constructor
    · rintro ⟨corpus, rfl⟩
      exact .of_loads hx
    · intro h
      cases x with
      | ok corpus => exact ⟨corpus, rfl⟩
      | error e => exact absurd (LoadFault.of_loads hx) h.not_loadFault
  · exact fun version hv e he => (LoadFault.of_loads he).of_checkSource hv

end SodiumDecl
