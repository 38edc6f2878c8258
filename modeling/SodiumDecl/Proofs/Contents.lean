import Mathlib.Data.List.Forall2
import SodiumDecl.Proofs.ByName
import SodiumDecl.Proofs.Declaring
import SodiumDecl.Proofs.Entries

/-!
# The contents of a document

`Holds t base version symbols constants` says what is in the files of a corpus, and
`Declares c p xs ys` which of it a profile declares and in which order. A run on a corpus that
is there already declares what the corpus and the catalog hold, nothing else and nothing twice
(`generate_declares`).
-/

namespace SodiumDecl

/-! ## What a corpus holds -/

/-- The file at a path describes a symbol. -/
def Describes (t : FileTree) (path : Path) (s : Wrapper.Symbol) : Prop :=
  ∃ text, t.readText path = .ok text ∧ Wrapper.Symbol.parse text = .ok s

/-- The regular files directly inside a directory. A file is left out whose name or path is beyond
the limits of the file system: no look at it succeeds. -/
def regularFiles (t : FileTree) (dir : Path) (names : List String) : List Path :=
  (names.map (dir / ·)).filter t.isFile

/-- What is in the files of a corpus: the version that its package names, the symbols of the
regular files in its directory of symbols, and the constants that its file of constants lists. -/
structure Holds (t : FileTree) (base : Path) (version : String) (symbols : List Wrapper.Symbol)
    (constants : List Wrapper.Constant) : Prop where
  version : ∃ text v, t.readText (packageFile base) = .ok text ∧ Json.value? text = some v ∧
    (v.member? "version").bind Json.Value.string? = some version
  symbols : ∃ names, t.list (symbolsDirectory base) = .ok names ∧
    List.Forall₂ (Describes t) (regularFiles t (symbolsDirectory base) names) symbols
  constants : ∃ text, t.readText (constantsFile base) = .ok text ∧
    Wrapper.Constant.parseList text = .ok constants

theorem readSymbol_eq_ok {t : FileTree} {path : Path} {s : Wrapper.Symbol} :
    readSymbol t path = .ok s ↔ Describes t path s := by
  rw [readSymbol, Describes]
  cases t.readText path with
  | error e => simp
  | ok text => simp [mapError_eq_ok]

theorem readSymbols_eq_ok {t : FileTree} {dir : Path} {symbols : List Wrapper.Symbol} :
    readSymbols t dir = .ok symbols ↔ ∃ names, t.list dir = .ok names ∧
      List.Forall₂ (Describes t) (regularFiles t dir names) symbols := by
  rw [readSymbols_eq]
  cases t.list dir with
  | error e => simp
  | ok names => simp [mapM_eq_ok, readSymbol_eq_ok, regularFiles]

theorem readConstants_eq_ok {t : FileTree} {path : Path} {constants : List Wrapper.Constant} :
    readConstants t path = .ok constants ↔ ∃ text, t.readText path = .ok text ∧
      Wrapper.Constant.parseList text = .ok constants := by
  unfold readConstants
  cases t.readText path with
  | error e => simp
  | ok text => simp [mapError_eq_ok]

theorem packageVersion_eq_ok {t : FileTree} {base : Path} {version : String} :
    packageVersion t base = .ok version ↔
      ∃ text v, t.readText (packageFile base) = .ok text ∧ Json.value? text = some v ∧
        (v.member? "version").bind Json.Value.string? = some version := by
  cases ht : t.readText (packageFile base) with
  | error e => simp [packageVersion, ht]
  | ok text =>
    cases hv : Json.value? text with
    | none => simp [packageVersion, ht, hv]
    | some v =>
      cases hs : (v.member? "version").bind Json.Value.string? <;>
        simp [packageVersion, ht, hv, hs]

theorem packageVersion_of_checkSource {t : FileTree} {base : Path} {version : String}
    (h : checkSource t base = .ok version) : packageVersion t base = .ok version := by
  rw [checkSource_eq] at h
  split at h
  · simp at h
  split at h
  · simp at h
  split at h
  · exact h
  · simp at h

theorem loadFunctions_eq_ok {t : FileTree} {c : Catalog} {base : Path}
    {functions : List Wrapper.Symbol} : Corpus.loadFunctions t c base = .ok functions ↔
      ∃ symbols, readSymbols t (symbolsDirectory base) = .ok symbols ∧
        functions = sortByName (·.name) (symbols ++ c.auxiliarySymbols) ∧
        duplicate? (functions.map (·.name)) = none := by
  unfold Corpus.loadFunctions
  cases readSymbols t (symbolsDirectory base) with
  | error e => simp
  | ok symbols =>
    cases hd : duplicate? ((sortByName (·.name) (symbols ++ c.auxiliarySymbols)).map (·.name)) with
    | none =>
      simp only [ok_bind, hd, pure_eq_ok, Except.ok.injEq]
      constructor
      · rintro rfl
        exact ⟨symbols, rfl, rfl, hd⟩
      · rintro ⟨_, rfl, rfl, -⟩
        rfl
    | some n =>
      simp only [ok_bind, hd, throw_eq_error, reduceCtorEq, false_iff]
      rintro ⟨_, hs, rfl, hn⟩
      obtain rfl := Except.ok.inj hs
      simp [hd] at hn

theorem load_eq_ok {t : FileTree} {c : Catalog} {base : Path} {corpus : Corpus} :
    Corpus.load t c base = .ok corpus ↔ ∃ symbols constants,
      readSymbols t (symbolsDirectory base) = .ok symbols ∧
      readConstants t (constantsFile base) = .ok constants ∧
      corpus.functions = sortByName (·.name) (symbols ++ c.auxiliarySymbols) ∧
      corpus.constants = sortByName (·.name) (constants ++ [c.ready]) ∧
      duplicate? (corpus.functions.map (·.name)) = none := by
  simp only [Corpus.load, bind_eq_ok, loadFunctions_eq_ok, pure_eq_ok, Except.ok.injEq]
  constructor
  · rintro ⟨_, ⟨symbols, hs, rfl, hd⟩, constants, hk, rfl⟩
    exact ⟨symbols, constants, hs, hk, rfl, rfl, hd⟩
  · rintro ⟨symbols, constants, hs, hk, hf, hc, hd⟩
    refine ⟨corpus.functions, ⟨symbols, hs, hf, hd⟩, constants, hk, ?_⟩
    rw [← hc]

/-! ## What a profile declares -/

/-- A profile declares a name: the extended one every name, the standard one those whose lower
case is not on the list of names that only the extended build has. -/
def Catalog.Declares (c : Catalog) (p : Profile) (name : String) : Prop :=
  p = .extended ∨ Text.lowercase name ∉ c.extendedOnly

instance (c : Catalog) (p : Profile) (name : String) : Decidable (c.Declares p name) :=
  inferInstanceAs (Decidable (_ ∨ _))

theorem includes_eq (c : Catalog) (p : Profile) (name : String) :
    c.includes name p = decide (c.Declares p name) := by
  cases p <;> simp [Catalog.includes, Catalog.isExtendedOnly, Catalog.Declares,
    Profile.isExtended]

/-- The functions and constants of a document are those of some symbols and constants that a
profile declares, sorted by name, and its other declarations are those of the catalog. -/
structure DocumentOf (c : Catalog) (p : Profile) (version : String)
    (symbols functions : List Wrapper.Symbol) (constants kept : List Wrapper.Constant)
    (d : Document) : Prop where
  functionsByName : ByName (·.name) (symbols.filter fun s => c.Declares p s.name) functions
  functionsStrict : functions.Pairwise fun a b => utf8Bytes a.name < utf8Bytes b.name
  constantsByName : ByName (·.name) (constants.filter fun k => c.Declares p k.name) kept
  document : d = {
    module := p.moduleName
    version
    aliases := c.aliases
    enumerations := c.enumerations
    records := c.records
    constants := kept.map fun k => ⟨k.name, tokenType k.type⟩
    functions := functions.map fun s => ⟨s.name, c.overloads s⟩ }

/-- What is assembled from a corpus is the document of its symbols and constants. -/
theorem documentOf_assemble {t : FileTree} {c : Catalog} {base : Path} {corpus : Corpus}
    (h : Corpus.load t c base = .ok corpus) (p : Profile) (version : String) :
    ∃ symbols constants functions kept,
      readSymbols t (symbolsDirectory base) = .ok symbols ∧
      readConstants t (constantsFile base) = .ok constants ∧
      DocumentOf c p version (symbols ++ c.auxiliarySymbols) functions (constants ++ [c.ready])
        kept (c.assemble corpus p version) := by
  obtain ⟨symbols, constants, hs, hk, hf, hc, hd⟩ := load_eq_ok.mp h
  refine ⟨symbols, constants, corpus.functions.filter fun s => c.Declares p s.name,
    corpus.constants.filter fun k => c.Declares p k.name, hs, hk, ?_, ?_, ?_, ?_⟩
  · rw [hf]
    exact (byName_sortByName _ _).filter _
  · have hordered := pairwise_sortByName (·.name) (symbols ++ c.auxiliarySymbols)
    rw [← hf] at hordered
    have hstrict := pairwise_lt_of_duplicate? (List.pairwise_map.mpr hordered) hd
    simp only [utf8Bytes_lt_iff]
    exact (List.pairwise_map.mp hstrict).filter _
  · rw [hc]
    exact (byName_sortByName _ _).filter _
  · simp only [Catalog.assemble, includes_eq]
    rfl

/-- A run on a corpus that is there already declares what the corpus and the catalog hold,
nothing else and nothing twice. The document is written to the file that the report names, and
the report counts what is in it. -/
theorem generate_declares {p : Provider} {c : Catalog} {o : Options} {w : World} {base : Path}
    {r : Report} (hb : o.base = some base) (h : ((generate p c o).outcome w).1 = .ok r) :
    ∃ version symbols constants functions kept d,
      Holds w.files base version symbols constants ∧
      DocumentOf c o.profile version (symbols ++ c.auxiliarySymbols) functions
        (constants ++ [c.ready]) kept d ∧
      (c.Declares o.profile c.ready.name →
        (kept.filter (·.name = c.ready.name)).getLast? = some c.ready) ∧
      ((generate p c o).outcome w).2.files.readBytes r.output = .ok d.render.toUTF8 ∧
      r = {
        output := outputPath w.files o.output o.profile
        version
        profile := o.profile
        constants := kept.length
        functions := functions.length
        overloads := (functions.flatMap c.overloads).length } := by
  have hx := (outcome_generate_local p c o base hb w).of_ok h
  obtain ⟨root, hroot, hdeclare⟩ := declareAt_eq_ok.mp hx
  obtain ⟨hsource, -, hroot⟩ := acceptAt_eq_ok.mp hroot
  obtain ⟨corpus, hcorpus, hreport, hwrite⟩ := declare_eq_ok.mp hdeclare
  rw [hroot] at hcorpus
  obtain ⟨symbols, constants, functions, kept, hs, hk, hd⟩ :=
    documentOf_assemble hcorpus o.profile root.version
  refine ⟨root.version, symbols, constants, functions, kept, _, ?_, hd, ?_,
    FileTree.readBytes_of_writeFile hwrite, ?_⟩
  · exact ⟨packageVersion_eq_ok.mp (packageVersion_of_checkSource hsource),
      readSymbols_eq_ok.mp hs, readConstants_eq_ok.mp hk⟩
  · intro hready
    rw [hd.constantsByName.stable]
    simp [List.filter_append, hready]
  · rw [hreport, hd.document]
    simp [Document.report, List.flatMap_map]

/-! ## A small corpus -/

/-- A corpus of two symbols and two constants in the root, beside a directory for output. -/
def sampleTree : FileTree :=
  let text (s : String) : Entry := .file s.toUTF8
  [(["out"], .directory),
    (["package.json"], text "\x7b\"version\": \"0.7.3\"\x7d"),
    (["wrapper"], .directory),
    (["wrapper", "constants.json"], text
      ("[\x7b\"name\": \"ready\", \"type\": \"uint\"\x7d, " ++
        "\x7b\"name\": \"SIZE\", \"type\": \"uint\"\x7d]")),
    (["wrapper", "symbols"], .directory),
    (["wrapper", "symbols", "old"], .directory),
    (["wrapper", "symbols", "b.json"], text "\x7b\"name\": \"b\"\x7d"),
    (["wrapper", "symbols", "a.json"], text "\x7b\"name\": \"A\"\x7d")].foldl
      (fun t e => t.put e.1 e.2) (.bare [])

/-- A catalog with one helper, and one name that only the extended build has. -/
def sampleCatalog : Catalog where
  aliases := []
  enumerations := []
  shapes := []
  handles := []
  auxiliarySymbols := [.helper "to_hex" [("input", "Uint8Array")] (some "string")]
  ready := ⟨"ready", "Promise<void>"⟩
  extendedOnly := ["a"]

/-- The usual settings, and a fetcher that delivers nothing. -/
def sampleProvider : Provider where
  settings := {}
  fetcher := fun _ => { progress := [], outcome := .nothing }
  temporary := ⟨"/"⟩

/-- The standard build of the small corpus. -/
def sampleOptions : Options where
  output := ⟨"/out"⟩
  base := some ⟨"/"⟩

theorem generate_declares_sample :
    ((generate sampleProvider sampleCatalog sampleOptions).outcome { files := sampleTree }).1 =
        .ok ⟨⟨"/out/libsodium-wrappers.d.ts"⟩, "0.7.3", .standard, 3, 2, 2⟩ ∧
      ∃ version symbols constants functions kept d,
        Holds sampleTree ⟨"/"⟩ version symbols constants ∧
        DocumentOf sampleCatalog .standard version (symbols ++ sampleCatalog.auxiliarySymbols)
          functions (constants ++ [sampleCatalog.ready]) kept d ∧
        functions.length = 2 ∧ kept.length = 3 := by
  have h : ((generate sampleProvider sampleCatalog sampleOptions).outcome
      { files := sampleTree }).1 =
        .ok ⟨⟨"/out/libsodium-wrappers.d.ts"⟩, "0.7.3", .standard, 3, 2, 2⟩ := by
    decide +kernel
  obtain ⟨version, symbols, constants, functions, kept, d, hholds, hd, -, -, hr⟩ :=
    generate_declares rfl h
  exact ⟨h, version, symbols, constants, functions, kept, d, hholds, hd,
    (congrArg Report.functions hr).symm, (congrArg Report.constants hr).symm⟩

end SodiumDecl
