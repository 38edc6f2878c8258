import SodiumDecl.Proofs.Language
import SodiumDecl.Proofs.Loading
import SodiumDecl.Proofs.Reading

/-!
# When a corpus is accepted

`requirements` lists what a corpus at a path needs to be used, in the order in which it is looked
at, each with the errors that say that it is missing. `Decides rs x` says that a result is decided
by such a list: it is there exactly when all requirements are met, and otherwise its error is one
of the first requirement that is not met (`FirstUnmet`). It is proved requirement by requirement
(`Decides.pass`, `Decides.fail`).

So a corpus that is there already is used, or refused for the first thing that it lacks, and the
version that is asked for plays no part in it (`resolve_local_outcome`).

Of the symbols the check asks only for an entry with the right name, while loading reads the regular
files and does not look at their names. A corpus that passes both has a symbol of its own exactly
when one of the entries is a regular file (`load_of_checkSource`); a directory with the right name
passes the check and gives no symbol (`checkSource_directory_only`).
-/

namespace SodiumDecl

/-! ## Requirements in order -/

/-- Something that has to hold, and the errors that say that it does not. -/
structure Requirement where
  holds : Prop
  blame : Error → Prop

/-- The errors of the first requirement that does not hold. -/
inductive FirstUnmet : List Requirement → Error → Prop
  | here {r rs e} : ¬r.holds → r.blame e → FirstUnmet (r :: rs) e
  | later {r rs e} : r.holds → FirstUnmet rs e → FirstUnmet (r :: rs) e

theorem firstUnmet_append {rs rs' : List Requirement} {e : Error} :
    FirstUnmet (rs ++ rs') e ↔ FirstUnmet rs e ∨ (∀ r ∈ rs, r.holds) ∧ FirstUnmet rs' e := by
  induction rs with
  | nil =>
    have hnil : ¬FirstUnmet [] e := fun h => nomatch h
    simp [hnil]
  | cons r rs ih =>
    constructor
    · intro h
      cases h with
      | here hr hb => exact Or.inl (.here hr hb)
      | later hr h =>
        rcases ih.mp h with h | ⟨hrs, h⟩
        · exact Or.inl (.later hr h)
        · exact Or.inr ⟨List.forall_mem_cons.mpr ⟨hr, hrs⟩, h⟩
    · rintro (h | ⟨hrs, h⟩)
      · cases h with
        | here hr hb => exact .here hr hb
        | later hr h => exact .later hr (ih.mpr (Or.inl h))
      · obtain ⟨hr, hrs⟩ := List.forall_mem_cons.mp hrs
        exact .later hr (ih.mpr (Or.inr ⟨hrs, h⟩))

/-- Requirements decide whether there is a result, and which error there is otherwise. -/
structure Decides {α : Type} (rs : List Requirement) (x : Except Error α) : Prop where
  ok_iff : (∃ a, x = .ok a) ↔ ∀ r ∈ rs, r.holds
  error_iff : ∀ e, x = .error e ↔ FirstUnmet rs e

namespace Decides

variable {α : Type} {r : Requirement} {rs : List Requirement} {x : Except Error α} {e : Error}

theorem nil (a : α) : Decides [] (.ok a : Except Error α) where
  ok_iff := by simp
  error_iff e := ⟨fun h => (nomatch h), fun h => (nomatch h)⟩

theorem pass (h : r.holds) (hx : Decides rs x) : Decides (r :: rs) x where
  ok_iff := hx.ok_iff.trans ⟨fun hrs => List.forall_mem_cons.mpr ⟨h, hrs⟩,
    fun hrs => (List.forall_mem_cons.mp hrs).2⟩
  error_iff e := by
    rw [hx.error_iff]
    refine ⟨.later h, fun he => ?_⟩
    cases he with
    | here hn _ => exact absurd h hn
    | later _ he => exact he

theorem fail (h : ¬r.holds) (hr : ∀ e', r.blame e' ↔ e' = e) :
    Decides (r :: rs) (.error e : Except Error α) where
  ok_iff := ⟨fun ⟨a, ha⟩ => (nomatch ha), fun hrs => absurd (hrs r List.mem_cons_self) h⟩
  error_iff e' := by
    constructor
    · intro he
      exact .here h ((hr e').mpr (Except.error.inj he).symm)
    · intro he
      cases he with
      | here _ hb => rw [(hr e').mp hb]
      | later hr _ => exact absurd hr h

/-- A result does not leave a requirement unmet. -/
theorem not_firstUnmet {a : α} (h : Decides rs x) (ha : x = .ok a) : ¬FirstUnmet rs e := by
  rw [← h.error_iff, ha]
  exact fun he => nomatch he

/-- The requirements of a sequence of two steps, where those of the second step may be stated with
the result of the first. -/
theorem bind {β : Type} {f : α → Except Error β} {rs' : List Requirement} (hx : Decides rs x)
    (hf : ∀ a, x = .ok a → Decides rs' (f a)) : Decides (rs ++ rs') (x >>= f) := by
  cases x with
  | error e =>
    have hrs : ¬∀ r ∈ rs, r.holds := fun hrs => by simpa using hx.ok_iff.mpr hrs
    refine ⟨⟨fun ⟨b, hb⟩ => (nomatch hb), fun h => ?_⟩, fun e' => ?_⟩
    · exact absurd (List.forall_mem_append.mp h).1 hrs
    · rw [error_bind, firstUnmet_append, ← hx.error_iff]
      simp [hrs]
  | ok a =>
    have hrs : ∀ r ∈ rs, r.holds := hx.ok_iff.mp ⟨a, rfl⟩
    refine ⟨?_, fun e => ?_⟩
    · rw [ok_bind, (hf a rfl).ok_iff, List.forall_mem_append]
      exact ⟨fun h => ⟨hrs, h⟩, And.right⟩
    · rw [ok_bind, (hf a rfl).error_iff, firstUnmet_append]
      exact ⟨fun h => Or.inr ⟨hrs, h⟩, fun h => (h.resolve_left (hx.not_firstUnmet rfl)).2⟩

end Decides

/-! ## What a corpus needs -/

variable {t : FileTree} {root : Path}

/-- Some entry of the directory of symbols is named like a description. -/
def HasDescriptorName (t : FileTree) (root : Path) : Prop :=
  ∃ names, t.list (symbolsDirectory root) = .ok names ∧ ∃ n ∈ names, "json".toList <:+: n.toList

/-- Why the package of a corpus does not name a version. -/
inductive PackageFault (t : FileTree) (root : Path) : MetadataFault → Prop
  | unreadable {f : FileError} (h : t.readText (packageFile root) = .error f) :
    PackageFault t root (.unreadable f)
  | malformed {text : String} (h : t.readText (packageFile root) = .ok text)
    (hv : Json.value? text = none) : PackageFault t root .malformed
  | noVersion {text : String} {v : Json.Value} (h : t.readText (packageFile root) = .ok text)
    (hv : Json.value? text = some v) (hs : ∀ s, v.member? "version" ≠ some (.string s)) :
    PackageFault t root .noVersion

/-- What has to be found at a path for a corpus to be there, in the order in which it is looked
at. -/
def sourceRequirements (t : FileTree) (root : Path) : List Requirement := [
  ⟨t.isDirectory (symbolsDirectory root) = true,
    (· = .integrity (symbolsDirectory root) .noSymbols)⟩,
  ⟨t.isFile (constantsFile root) = true, (· = .integrity (constantsFile root) .noConstants)⟩,
  ⟨HasDescriptorName t root, (· = .integrity (symbolsDirectory root) .noDescriptors)⟩,
  ⟨∃ v, PackageNames t root v,
    fun e => ∃ f, PackageFault t root f ∧ e = .metadata (packageFile root) f⟩]

/-- What has to hold of the version that a corpus names, in the order in which it is looked at. -/
def gateRequirements (t : FileTree) (s : Settings) (root : Path) : List Requirement := [
  ⟨∃ v, PackageNames t root v ∧ Version.isWellFormed v = true,
    fun e => ∃ v, PackageNames t root v ∧ e = .version (.malformed v)⟩,
  ⟨Version.isWellFormed s.minimumVersion = true, (· = .version (.malformed s.minimumVersion))⟩,
  ⟨∃ v, PackageNames t root v ∧ Version.compare? v s.minimumVersion ≠ some .lt,
    fun e => ∃ v, PackageNames t root v ∧ e = .version (.belowMinimum v s.minimumVersion)⟩]

/-- What a corpus needs to be used, in the order in which it is looked at. -/
def requirements (t : FileTree) (s : Settings) (root : Path) : List Requirement :=
  sourceRequirements t root ++ gateRequirements t s root

theorem exists_list_iff {p : Path} : (∃ names, t.list p = .ok names) ↔ t.isDirectory p = true := by
  rw [FileTree.isDirectory_iff]
  constructor
  · rintro ⟨names, h⟩
    obtain ⟨l, hl, hd, -⟩ := list_eq_ok.mp h
    exact ⟨l, hl, hd⟩
  · rintro ⟨l, hl, hd⟩
    exact ⟨_, list_eq_ok.mpr ⟨l, hl, hd, rfl⟩⟩

theorem exists_readBytes_iff {p : Path} :
    (∃ contents, t.readBytes p = .ok contents) ↔ t.isFile p = true := by
  rw [FileTree.readBytes, FileTree.isFile]
  rcases t.entry p with _ | _ | _ <;> simp

theorem hasDescriptorName_iff {names : List String}
    (h : t.list (symbolsDirectory root) = .ok names) :
    HasDescriptorName t root ↔ names.any isDescriptorName = true := by
  simp only [HasDescriptorName, h, Except.ok.injEq, exists_eq_left', List.any_eq_true,
    isDescriptorName, Text.contains_iff]

theorem packageNames_iff {v : String} :
    PackageNames t root v ↔ packageVersion t root = .ok v := packageVersion_eq_ok.symm

theorem PackageFault.packageVersion_eq {f : MetadataFault} (h : PackageFault t root f) :
    packageVersion t root = .error (.metadata (packageFile root) f) := by
  cases h with
  | unreadable h => simp [packageVersion, h]
  | malformed h hv => simp [packageVersion, h, hv]
  | @noVersion text v h hv hs =>
    have hnone : (v.member? "version").bind Json.Value.string? = none := by
      rw [Option.bind_eq_none_iff]
      intro w hw
      cases w with
      | string s => exact absurd hw (hs s)
      | _ => rfl
    simp [packageVersion, h, hv, hnone]

theorem exists_packageFault {e : Error} (h : packageVersion t root = .error e) :
    ∃ f, PackageFault t root f ∧ e = .metadata (packageFile root) f := by
  unfold packageVersion at h
  dsimp only at h
  split at h
  case h_1 f hf => exact ⟨_, .unreadable hf, (Except.error.inj h).symm⟩
  case h_2 text htext =>
    split at h
    case h_1 hv => exact ⟨_, .malformed htext hv, (Except.error.inj h).symm⟩
    case h_2 v hv =>
      split at h
      case h_1 => exact nomatch h
      case h_2 hs =>
        refine ⟨_, .noVersion htext hv fun s hstring => ?_, (Except.error.inj h).symm⟩
        simp [hstring, Json.Value.string?] at hs

/-! ## The order of the checks -/

theorem decides_checkSource (t : FileTree) (root : Path) :
    Decides (sourceRequirements t root) (checkSource t root) := by
  rw [checkSource_eq, sourceRequirements]
  cases hl : t.list (symbolsDirectory root) with
  | error f =>
    refine .fail (fun h => ?_) fun _ => Iff.rfl
    obtain ⟨names, hn⟩ := exists_list_iff.mpr h
    exact nomatch hl.symm.trans hn
  | ok names =>
    refine .pass (exists_list_iff.mp ⟨names, hl⟩) ?_
    cases hc : t.readBytes (constantsFile root) with
    | error f =>
      refine .fail (fun h => ?_) fun _ => Iff.rfl
      obtain ⟨contents, hn⟩ := exists_readBytes_iff.mpr h
      exact nomatch hc.symm.trans hn
    | ok contents =>
      refine .pass (exists_readBytes_iff.mp ⟨contents, hc⟩) ?_
      have hnames := hasDescriptorName_iff hl
      dsimp only
      cases hd : names.any isDescriptorName with
      | false => exact .fail (by simp [hnames, hd]) fun _ => Iff.rfl
      | true =>
        refine .pass (hnames.mpr hd) ?_
        rw [if_pos rfl]
        cases hp : packageVersion t root with
        | error e =>
          refine .fail (fun ⟨v, hv⟩ => ?_) fun e' => ?_
          · exact nomatch hp.symm.trans (packageNames_iff.mp hv)
          · obtain ⟨f, hf, rfl⟩ := exists_packageFault hp
            constructor
            · rintro ⟨f', hf', rfl⟩
              exact Except.error.inj (hf'.packageVersion_eq.symm.trans hp)
            · rintro rfl
              exact ⟨f, hf, rfl⟩
        | ok v => exact .pass ⟨v, packageNames_iff.mpr hp⟩ (.nil v)

theorem decides_check {v : String} (h : PackageNames t root v) (s : Settings) :
    Decides (gateRequirements t s root)
      ((Version.check v s.minimumVersion).mapError Error.version) := by
  have hnames (v' : String) : PackageNames t root v' ↔ v' = v := by
    rw [packageNames_iff, packageNames_iff.mp h, Except.ok.injEq, eq_comm]
  simp only [gateRequirements, hnames, exists_eq_left, ← Version.mem_language_iff]
  generalize hr : Version.check v s.minimumVersion = r
  cases Version.check_eq_iff.mp hr with
  | malformed hv => exact .fail hv fun _ => Iff.rfl
  | malformedMinimum hv hm => exact .pass hv (.fail hm fun _ => Iff.rfl)
  | belowMinimum hv hm h => exact .pass hv (.pass hm (.fail (fun hge => hge h) fun _ => Iff.rfl))
  | accepted hv hm h => exact .pass hv (.pass hm (.pass h (.nil ())))

theorem decides_acceptAt (t : FileTree) (s : Settings) (root : Path) (scratch : Option Path) :
    Decides (requirements t s root) (acceptAt t s root scratch) := by
  refine (decides_checkSource t root).bind fun v hv => ?_
  have hnames : PackageNames t root v :=
    packageNames_iff.mpr (packageVersion_of_checkSource hv)
  have hcheck := (decides_check hnames s).bind fun _ _ => .nil (⟨root, v, scratch⟩ : CorpusRoot)
  rwa [List.append_nil] at hcheck

/-- A corpus that is there already is used exactly when it has all that it needs, and then with the
version that it names. Otherwise it is refused for the first thing that it lacks. Which version is
asked for does not matter. -/
theorem resolve_local_outcome (p : Provider) (base : Path) (version : Option String) (w : World) :
    ((∃ root, ((resolve p (some base) version).outcome w).1 = .ok root) ↔
        ∀ r ∈ requirements w.files p.settings base, r.holds) ∧
      (∀ root, ((resolve p (some base) version).outcome w).1 = .ok root →
        root.path = base ∧ PackageNames w.files base root.version ∧ root.scratch = none) ∧
      ∀ e, ((resolve p (some base) version).outcome w).1 = .error e ↔
        FirstUnmet (requirements w.files p.settings base) e := by
  rw [(outcome_resolve_local p base version w).1]
  have hdecides := decides_acceptAt w.files p.settings base none
  refine ⟨hdecides.ok_iff, fun root h => ?_, hdecides.error_iff⟩
  obtain ⟨hsource, -, hroot⟩ := acceptAt_eq_ok.mp h
  refine ⟨by rw [hroot], ?_, by rw [hroot]⟩
  exact packageNames_iff.mpr (packageVersion_of_checkSource hsource)

/-! ## The symbols of a corpus that passes the check -/

variable {c : Catalog} {corpus : Corpus}

/-- The functions of a corpus are the symbols of its files and the hand-written ones. -/
theorem symbolsOf_of_load (h : Corpus.load t c root = .ok corpus) :
    ∃ symbols, SymbolsOf t root symbols ∧
      corpus.functions.Perm (symbols ++ c.auxiliarySymbols) := by
  obtain ⟨symbols, -, hs, -, hf, -, -⟩ := load_eq_ok.mp h
  obtain ⟨names, hl, hd⟩ := readSymbols_eq_ok.mp hs
  refine ⟨symbols, symbolsOf_of_gathered hl (.refl _) (gathered_ok_iff.mpr hd), ?_⟩
  rw [hf]
  exact (byName_sortByName _ _).perm

/-- There is a symbol among those of the files when there is a file. -/
theorem SymbolsOf.ne_nil_iff {symbols : List Wrapper.Symbol} (h : SymbolsOf t root symbols) :
    symbols ≠ [] ↔ ∃ path, FileIn t (symbolsDirectory root) path := by
  obtain ⟨paths, -, hmem, hs⟩ := h
  have hnil : symbols = [] ↔ paths = [] := by
    rw [← List.length_eq_zero_iff, ← hs.length_eq, List.length_eq_zero_iff]
  rw [← exists_congr hmem, Ne, hnil, List.eq_nil_iff_forall_not_mem, not_forall]
  exact exists_congr fun _ => not_not

/-- A corpus that passes the check has an entry with the name of a description. Once it is loaded,
it has a symbol that was read, and more symbols than the hand-written ones, exactly when there is a
regular file in its directory of symbols, whatever the name of that file. The files meant are those
of `FileIn`: their names and paths are within the limits of the file system. -/
theorem load_of_checkSource {version : String} (hv : checkSource t root = .ok version)
    (hl : Corpus.load t c root = .ok corpus) :
    HasDescriptorName t root ∧
      ((∃ s ∈ corpus.functions, ∃ path, FileIn t (symbolsDirectory root) path ∧
        Describes t path s) ↔ ∃ path, FileIn t (symbolsDirectory root) path) ∧
      (c.auxiliarySymbols.length < corpus.functions.length ↔
        ∃ path, FileIn t (symbolsDirectory root) path) := by
  obtain ⟨symbols, hs, hperm⟩ := symbolsOf_of_load hl
  refine ⟨?_, ⟨?_, ?_⟩, ?_⟩
  · have hall := (decides_checkSource t root).ok_iff.mp ⟨version, hv⟩
    simp only [sourceRequirements, List.forall_mem_cons] at hall
    exact hall.2.2.1
  · rintro ⟨-, -, path, hpath, -⟩
    exact ⟨path, hpath⟩
  · rintro ⟨path, hpath⟩
    obtain ⟨paths, -, hmem, hdescribes⟩ := hs
    obtain ⟨s, hsymbol, hd⟩ := exists_of_forall₂ hdescribes.flip ((hmem path).mpr hpath)
    exact ⟨s, hperm.mem_iff.mpr (List.mem_append_left _ hsymbol), path, hpath, hd⟩
  · rw [← hs.ne_nil_iff, hperm.length_eq, List.length_append, ← List.length_pos_iff]
    omega

theorem load_of_checkSource_sample :
    ∃ corpus, checkSource sampleTree ⟨"/"⟩ = .ok "0.7.3" ∧
      Corpus.load sampleTree sampleCatalog ⟨"/"⟩ = .ok corpus ∧ corpus.functions.length = 3 ∧
      ∃ path, FileIn sampleTree (symbolsDirectory ⟨"/"⟩) path := by
  have hv : checkSource sampleTree ⟨"/"⟩ = .ok "0.7.3" := by decide +kernel
  have hload : (Corpus.load sampleTree sampleCatalog ⟨"/"⟩).map (·.functions.length) = .ok 3 := by
    decide +kernel
  obtain ⟨corpus, hl, hlength⟩ := map_eq_ok.mp hload
  obtain ⟨-, -, hfile⟩ := load_of_checkSource hv hl
  refine ⟨corpus, hv, hl, hlength, hfile.mp ?_⟩
  rw [hlength]
  decide

/-- A corpus whose directory of symbols holds a directory with the name of a description, and
nothing else. -/
def directoryOnlyTree : FileTree :=
  [(["c"], .directory),
    (["c", "package.json"], .file "\x7b\"version\": \"0.7.6\"\x7d".toUTF8),
    (["c", "wrapper"], .directory),
    (["c", "wrapper", "constants.json"], .file "[]".toUTF8),
    (["c", "wrapper", "symbols"], .directory),
    (["c", "wrapper", "symbols", "x.json"], .directory)].foldl (fun t e => t.put e.1 e.2) (.bare [])

/-- That corpus passes the check and is loaded, without a symbol besides the hand-written one. -/
theorem checkSource_directory_only :
    ∃ corpus, checkSource directoryOnlyTree ⟨"c"⟩ = .ok "0.7.6" ∧
      Corpus.load directoryOnlyTree sampleCatalog ⟨"c"⟩ = .ok corpus ∧
      ¬sampleCatalog.auxiliarySymbols.length < corpus.functions.length := by
  have hv : checkSource directoryOnlyTree ⟨"c"⟩ = .ok "0.7.6" := by decide +kernel
  have hload : (Corpus.load directoryOnlyTree sampleCatalog ⟨"c"⟩).map (·.functions.length) =
      .ok 1 := by
    decide +kernel
  obtain ⟨corpus, hl, hlength⟩ := map_eq_ok.mp hload
  refine ⟨corpus, hv, hl, ?_⟩
  rw [hlength]
  decide

end SodiumDecl
