import SodiumDecl.Proofs.Contents

/-!
# What declarations depend on

A symbol says more than is declared of it: outputs, a target, dependencies, checks, and the size
and the optional flag of each parameter. `Wrapper.Signature` is the rest. The overloads of a symbol
are those of its signature (`overloads_signature`), and so a document is one of the signatures of a
corpus (`assemble_congr`).

Sorting by name can be done on signatures (`map_sortByName`), where it does not depend on the order
of the files. Two corpora with one version, one list of constants and the same signatures therefore
have one text (`generate_signatures`).
-/

namespace SodiumDecl

/-! ## Signatures -/

namespace Wrapper

/-- What is declared of a symbol: its name, the names and types of its inputs, what it returns, and
whether its callers can choose the output format. -/
structure Signature where
  name : String
  inputs : List (String × String)
  returns : Option String
  noOutputFormat : Bool
  deriving DecidableEq

/-- The signature of a symbol. -/
def Symbol.signature (s : Symbol) : Signature where
  name := s.name
  inputs := s.inputs.map fun p => (p.name, p.type)
  returns := s.returns
  noOutputFormat := s.noOutputFormat

/-- A symbol of which nothing but the signature is known. -/
def Signature.symbol (g : Signature) : Symbol where
  name := g.name
  inputs := g.inputs.map fun p => { name := p.1, type := p.2 }
  returns := g.returns
  noOutputFormat := g.noOutputFormat

end Wrapper

section Signatures

variable {c : Catalog} {p : Profile} {version : String} {corpus corpus' : Corpus}

theorem overloads_signature (c : Catalog) (s : Wrapper.Symbol) :
    c.overloads s = c.overloads s.signature.symbol := by
  have hparams : s.inputs.map Catalog.param = s.signature.symbol.inputs.map Catalog.param := by
    simp [Wrapper.Symbol.signature, Wrapper.Signature.symbol, Catalog.param]
  rw [Catalog.overloads, Catalog.overloads, ← hparams]
  rfl

/-- The functions that a profile declares are read off the signatures. -/
theorem functions_assemble (c : Catalog) (corpus : Corpus) (p : Profile) (version : String) :
    (c.assemble corpus p version).functions =
      ((corpus.functions.map (·.signature)).filter fun g => c.includes g.name p).map
        fun g => ⟨g.name, c.overloads g.symbol⟩ := by
  rw [List.filter_map, List.map_map]
  refine List.map_congr_left fun s _ => ?_
  rw [Catalog.functionDecl, overloads_signature]
  rfl

/-- Of the symbols of a corpus, a document depends on the signatures alone. -/
theorem assemble_congr
    (hf : corpus.functions.map (·.signature) = corpus'.functions.map (·.signature))
    (hk : corpus.constants = corpus'.constants) :
    c.assemble corpus p version = c.assemble corpus' p version := by
  have hfunctions : (c.assemble corpus p version).functions =
      (c.assemble corpus' p version).functions := by
    rw [functions_assemble, hf, ← functions_assemble]
  simp only [Catalog.assemble, hk] at hfunctions ⊢
  rw [hfunctions]

end Signatures

/-! ## Sorting signatures -/

section Sorting

variable {α β : Type} (name : β → String) (f : α → β)

theorem map_insertByName (x : α) (ys : List α) :
    (insertByName (fun a => name (f a)) x ys).map f = insertByName name (f x) (ys.map f) := by
  induction ys with
  | nil => rfl
  | cons y ys ih =>
    rw [insertByName, List.map_cons, insertByName]
    split
    · rfl
    · rw [List.map_cons, ih]

/-- Sorting looks at the names alone. -/
theorem map_sortByName (xs : List α) :
    (sortByName (fun a => name (f a)) xs).map f = sortByName name (xs.map f) := by
  induction xs with
  | nil => rfl
  | cons x xs ih =>
    exact (map_insertByName name f x _).trans (congrArg (insertByName name (f x)) ih)

end Sorting

/-- In whatever order the symbols come, the signatures of a corpus are sorted to one list. -/
theorem signatures_eq_of_perm {t t' : FileTree} {c : Catalog} {base base' : Path}
    {corpus corpus' : Corpus} {symbols symbols' : List Wrapper.Symbol}
    (h : Corpus.load t c base = .ok corpus) (h' : Corpus.load t' c base' = .ok corpus')
    (hs : readSymbols t (symbolsDirectory base) = .ok symbols)
    (hs' : readSymbols t' (symbolsDirectory base') = .ok symbols')
    (hp : (symbols.map (·.signature)).Perm (symbols'.map (·.signature))) :
    corpus.functions.map (·.signature) = corpus'.functions.map (·.signature) := by
  obtain ⟨_, _, hread, -, hf, -, hd⟩ := load_eq_ok.mp h
  obtain ⟨_, _, hread', -, hf', -, -⟩ := load_eq_ok.mp h'
  obtain rfl := Except.ok.inj (hs.symm.trans hread)
  obtain rfl := Except.ok.inj (hs'.symm.trans hread')
  have hsort (xs : List Wrapper.Symbol) : (sortByName (·.name) xs).map (·.signature) =
      sortByName Wrapper.Signature.name (xs.map (·.signature)) :=
    map_sortByName Wrapper.Signature.name Wrapper.Symbol.signature xs
  have hnames : corpus.functions.map (·.name) =
      (corpus.functions.map (·.signature)).map Wrapper.Signature.name := by
    rw [List.map_map]
    rfl
  rw [hnames, hf, hsort] at hd
  rw [hf, hf', hsort, hsort]
  refine sortByName_eq_of_perm ?_ hd
  rw [List.map_append, List.map_append]
  exact hp.append_right _

/-! ## Two runs -/

/-- A run on a corpus that is there already leaves the text of its document, and its report is the
one on this document. -/
theorem written_of_generate {p : Provider} {c : Catalog} {o : Options} {w : World} {base : Path}
    {r : Report} (hb : o.base = some base) (h : ((generate p c o).outcome w).1 = .ok r) :
    ∃ version corpus, packageVersion w.files base = .ok version ∧
      Corpus.load w.files c base = .ok corpus ∧
      r = (c.assemble corpus o.profile version).report r.output o.profile ∧
      ((generate p c o).outcome w).2.files.readBytes r.output =
        .ok (c.assemble corpus o.profile version).render.toUTF8 := by
  have hx := (outcome_generate_local p c o base hb w).of_ok h
  obtain ⟨root, hroot, hdeclare⟩ := declareAt_eq_ok.mp hx
  obtain ⟨hsource, -, hroot⟩ := acceptAt_eq_ok.mp hroot
  obtain ⟨corpus, hcorpus, hreport, hwrite⟩ := declare_eq_ok.mp hdeclare
  rw [hroot] at hcorpus
  refine ⟨root.version, corpus, packageVersion_of_checkSource hsource, hcorpus, ?_,
    FileTree.readBytes_of_writeFile hwrite⟩
  rw [hreport]
  rfl

/-- Two corpora that are there already, with one version, one list of constants, and symbols with
the same signatures, in whatever order and in files of whatever names: runs that succeed for one
profile write the same text, and their reports differ at most in the file that was written. -/
theorem generate_signatures {p p' : Provider} {c : Catalog} {o o' : Options} {w w' : World}
    {base base' : Path} {r r' : Report} {version : String}
    {symbols symbols' : List Wrapper.Symbol} {constants : List Wrapper.Constant}
    (hb : o.base = some base) (hb' : o'.base = some base') (ho : o'.profile = o.profile)
    (hw : Holds w.files base version symbols constants)
    (hw' : Holds w'.files base' version symbols' constants)
    (hs : (symbols.map (·.signature)).Perm (symbols'.map (·.signature)))
    (h : ((generate p c o).outcome w).1 = .ok r)
    (h' : ((generate p' c o').outcome w').1 = .ok r') :
    r' = { r with output := r'.output } ∧
      ∃ text, ((generate p c o).outcome w).2.files.readBytes r.output = .ok text ∧
        ((generate p' c o').outcome w').2.files.readBytes r'.output = .ok text := by
  obtain ⟨v, corpus, hv, hc, hr, ht⟩ := written_of_generate hb h
  obtain ⟨v', corpus', hv', hc', hr', ht'⟩ := written_of_generate hb' h'
  obtain rfl : v = version := Except.ok.inj (hv.symm.trans (packageVersion_eq_ok.mpr hw.version))
  obtain rfl : v' = v := Except.ok.inj (hv'.symm.trans (packageVersion_eq_ok.mpr hw'.version))
  have hfunctions := signatures_eq_of_perm hc hc' (readSymbols_eq_ok.mpr hw.symbols)
    (readSymbols_eq_ok.mpr hw'.symbols) hs
  have hconstants : corpus.constants = corpus'.constants := by
    obtain ⟨_, _, -, hk, -, hsort, -⟩ := load_eq_ok.mp hc
    obtain ⟨_, _, -, hk', -, hsort', -⟩ := load_eq_ok.mp hc'
    obtain rfl := Except.ok.inj ((readConstants_eq_ok.mpr hw.constants).symm.trans hk)
    obtain rfl := Except.ok.inj ((readConstants_eq_ok.mpr hw'.constants).symm.trans hk')
    rw [hsort, hsort']
  have hdocument : c.assemble corpus o.profile v' = c.assemble corpus' o.profile v' :=
    assemble_congr hfunctions hconstants
  rw [ho, ← hdocument] at hr' ht'
  refine ⟨?_, _, ht, ht'⟩
  rw [hr', hr]
  rfl

/-! ## Two corpora with the same signatures -/

/-- A corpus in the root with some files in its directory of symbols, beside a directory for
output. -/
def treeOfSymbols (symbols : List (String × String)) : FileTree :=
  let text (s : String) : Entry := .file s.toUTF8
  ([(["out"], .directory),
    (["package.json"], text "\x7b\"version\":\"0.7.3\"\x7d"),
    (["wrapper"], .directory),
    (["wrapper", "constants.json"], text "[[\"SIZE\",\"uint\"]]"),
    (["wrapper", "symbols"], .directory)]
      ++ symbols.map fun s => (["wrapper", "symbols", s.1], text s.2)).foldl
    (fun t e => t.put e.1 e.2) (.bare [])

/-- Two symbols. -/
def plainTree : FileTree := treeOfSymbols [
  ("a.json", "\x7b\"name\":\"a\",\"inputs\":[\x7b\"name\":\"m\",\"type\":\"buf\"\x7d]\x7d"),
  ("b.json", "\x7b\"name\":\"b\"\x7d")]

/-- The same two symbols in other files, with more that is not declared. -/
def annotatedTree : FileTree := treeOfSymbols [
  ("0.json", "[\"b\",[],[[\"o\",\"\"]],null,false,\"t\"]"),
  ("1", "\x7b\"kind\":1,\"inputs\":[[\"m\",\"buf\",32,true]],\"name\":\"a\"\x7d")]

/-- The signatures of the two symbols. -/
def twoSignatures : List Wrapper.Signature :=
  [⟨"b", [], none, false⟩, ⟨"a", [("m", "buf")], none, false⟩]

/-- The extended build of a corpus in the root. -/
def extendedOptions : Options where
  output := ⟨"/out"⟩
  base := some ⟨"/"⟩
  profile := .extended

theorem exists_holds (t : FileTree) (base : Path) (version : String)
    (signatures : List Wrapper.Signature) (constants : List Wrapper.Constant)
    (hv : packageVersion t base = .ok version)
    (hs : (readSymbols t (symbolsDirectory base)).map (·.map (·.signature)) = .ok signatures)
    (hk : readConstants t (constantsFile base) = .ok constants) :
    ∃ symbols, Holds t base version symbols constants ∧
      symbols.map (·.signature) = signatures := by
  cases hr : readSymbols t (symbolsDirectory base) with
  | error e => simp [hr] at hs
  | ok symbols =>
    refine ⟨symbols, ⟨packageVersion_eq_ok.mp hv, readSymbols_eq_ok.mp hr,
      readConstants_eq_ok.mp hk⟩, ?_⟩
    simpa [hr] using hs

theorem generate_signatures_sample :
    ∃ symbols symbols', Holds plainTree ⟨"/"⟩ "0.7.3" symbols [⟨"SIZE", "uint"⟩] ∧
      Holds annotatedTree ⟨"/"⟩ "0.7.3" symbols' [⟨"SIZE", "uint"⟩] ∧
      (symbols.map (·.signature)).Perm (symbols'.map (·.signature)) ∧
      ∃ r text, ((generate sampleProvider sampleCatalog extendedOptions).outcome
          { files := plainTree }).2.files.readBytes r = .ok text ∧
        ((generate sampleProvider sampleCatalog extendedOptions).outcome
          { files := annotatedTree }).2.files.readBytes r = .ok text := by
  obtain ⟨symbols, hw, hs⟩ := exists_holds plainTree ⟨"/"⟩ "0.7.3" twoSignatures
    [⟨"SIZE", "uint"⟩] (by decide +kernel) (by decide +kernel) (by decide +kernel)
  obtain ⟨symbols', hw', hs'⟩ := exists_holds annotatedTree ⟨"/"⟩ "0.7.3"
    twoSignatures.reverse [⟨"SIZE", "uint"⟩] (by decide +kernel) (by decide +kernel)
    (by decide +kernel)
  have hp : (symbols.map (·.signature)).Perm (symbols'.map (·.signature)) := by
    rw [hs, hs']
    exact (List.reverse_perm _).symm
  have h : ((generate sampleProvider sampleCatalog extendedOptions).outcome
      { files := plainTree }).1 =
        .ok ⟨⟨"/out/libsodium-wrappers-sumo.d.ts"⟩, "0.7.3", .extended, 2, 3, 3⟩ := by
    decide +kernel
  have h' : ((generate sampleProvider sampleCatalog extendedOptions).outcome
      { files := annotatedTree }).1 =
        .ok ⟨⟨"/out/libsodium-wrappers-sumo.d.ts"⟩, "0.7.3", .extended, 2, 3, 3⟩ := by
    decide +kernel
  obtain ⟨-, text, ht, ht'⟩ := generate_signatures rfl rfl rfl hw hw' hp h h'
  exact ⟨symbols, symbols', hw, hw', hp, _, text, ht, ht'⟩

end SodiumDecl
