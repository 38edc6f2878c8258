import SodiumDecl.Proofs.Writing

/-!
# Runs without a download

`declare` and `declareAt` are the two runs that need no download as functions of the files:
writing the declarations of a corpus that was found (`outcome_generateFrom`), and a whole run
on a corpus that is there already (`outcome_generate_local`). Neither changes the device.
-/

namespace SodiumDecl

/-- The files after a step that either gives new ones or fails and leaves them alone. -/
def filesAfter {α : Type} (t : FileTree) : Except Error (α × FileTree) → FileTree
  | .ok (_, t') => t'
  | .error _ => t

/-- Write the declarations of a corpus that was found. The result is the report and the files
with the text in place. -/
def declare (t : FileTree) (device : Device) (c : Catalog) (root : CorpusRoot) (o : Options) :
    Except Error (Report × FileTree) := do
  let corpus ← Corpus.load t c root.path
  let d := c.assemble corpus o.profile root.version
  let path := outputPath t o.output o.profile
  let text := d.render.toUTF8
  let t' ← (t.writeFile (device path text) path text).mapError (.output path)
  return (d.report path o.profile, t')

theorem declare_eq_ok {t u : FileTree} {device : Device} {c : Catalog} {root : CorpusRoot}
    {o : Options} {r : Report} : declare t device c root o = .ok (r, u) ↔
      ∃ corpus, Corpus.load t c root.path = .ok corpus ∧
        r = (c.assemble corpus o.profile root.version).report (outputPath t o.output o.profile)
          o.profile ∧
        let text := (c.assemble corpus o.profile root.version).render.toUTF8
        t.writeFile (device r.output text) r.output text = .ok u := by
  simp only [declare, bind_eq_ok, mapError_eq_ok, pure_eq_ok, Except.ok.injEq, Prod.mk.injEq]
  constructor
  · rintro ⟨corpus, hc, v, hv, rfl, rfl⟩
    exact ⟨corpus, hc, rfl, hv⟩
  · rintro ⟨corpus, hc, rfl, hv⟩
    exact ⟨corpus, hc, u, hv, rfl, rfl⟩

/-- Accept the corpus at a path. -/
def acceptAt (t : FileTree) (s : Settings) (path : Path) (scratch : Option Path) :
    Except Error CorpusRoot := do
  let version ← checkSource t path
  (Version.check version s.minimumVersion).mapError .version
  return ⟨path, version, scratch⟩

theorem acceptAt_eq_ok {t : FileTree} {s : Settings} {path : Path} {scratch : Option Path}
    {root : CorpusRoot} : acceptAt t s path scratch = .ok root ↔
      checkSource t path = .ok root.version ∧
        Version.check root.version s.minimumVersion = .ok () ∧
        root = ⟨path, root.version, scratch⟩ := by
  simp only [acceptAt, bind_eq_ok, mapError_eq_ok, pure_eq_ok, Except.ok.injEq]
  constructor
  · rintro ⟨v, hv, u, hu, rfl⟩
    exact ⟨hv, hu, rfl⟩
  · rintro ⟨hv, hu, hroot⟩
    exact ⟨root.version, hv, (), hu, hroot.symm⟩

theorem scratch_of_acceptAt {t : FileTree} {s : Settings} {path : Path} {scratch : Option Path}
    {root : CorpusRoot} (h : acceptAt t s path scratch = .ok root) : root.scratch = scratch := by
  rw [(acceptAt_eq_ok.mp h).2.2]

/-- Write the declarations of the corpus at a path, after the checks. -/
def declareAt (t : FileTree) (device : Device) (s : Settings) (c : Catalog) (base : Path)
    (o : Options) : Except Error (Report × FileTree) := do
  declare t device c (← acceptAt t s base none) o

theorem declareAt_eq_ok {t u : FileTree} {device : Device} {s : Settings} {c : Catalog}
    {base : Path} {o : Options} {r : Report} : declareAt t device s c base o = .ok (r, u) ↔
      ∃ root, acceptAt t s base none = .ok root ∧ declare t device c root o = .ok (r, u) := by
  rw [declareAt, bind_eq_ok]

section Follows

variable {α : Type} {x : Except Error α × World} {w : World} {y : Except Error (α × FileTree)}

/-- A run gives the result of a step on the files, and leaves the files of that step. -/
structure Follows (x : Except Error α × World) (w : World) (y : Except Error (α × FileTree)) :
    Prop where
  result : x.1 = y.map Prod.fst
  files : x.2.files = filesAfter w.files y
  device : x.2.device = w.device

theorem Follows.of_ok (h : Follows x w y) {a : α} (ha : x.1 = .ok a) :
    y = .ok (a, x.2.files) := by
  obtain ⟨hr, hw, -⟩ := h
  rw [ha] at hr
  obtain ⟨⟨b, u⟩, rfl, rfl⟩ := map_eq_ok.mp hr.symm
  rw [hw]
  rfl

theorem Follows.of_error (h : Follows x w y) {e : Error} (he : x.1 = .error e) :
    y = .error e ∧ x.2.files = w.files := by
  obtain ⟨hr, hw, -⟩ := h
  rw [he] at hr
  obtain rfl := map_eq_error.mp hr.symm
  exact ⟨rfl, hw⟩

end Follows

theorem outcome_generateFrom (c : Catalog) (root : CorpusRoot) (o : Options) (w : World) :
    Follows ((generateFrom c root o).outcome w) w (declare w.files w.device c root o) := by
  simp only [generateFrom, loadCorpus, assembleDocument, writeDocument, declare,
    Run.outcome_bind, Run.outcome_files, Run.outcome_ofExcept]
  cases Corpus.load w.files c root.path with
  | error e => exact ⟨rfl, rfl, rfl⟩
  | ok corpus =>
    simp only [Run.outcome_log, Run.outcome_pure, outcome_writeAtomically, ok_bind]
    generalize (c.assemble corpus o.profile root.version).render.toUTF8 = text
    generalize outputPath w.files o.output o.profile = path
    cases w.files.writeFile (w.device path text) path text with
    | error e => exact ⟨rfl, rfl, rfl⟩
    | ok t => exact ⟨rfl, rfl, rfl⟩

/-- A run gives a result, and leaves the files as they are. -/
structure OnlyReads {α : Type} (x : Except Error α × World) (w : World) (y : Except Error α) :
    Prop where
  result : x.1 = y
  files : x.2.files = w.files
  device : x.2.device = w.device

/-- Accepting a corpus changes no files. -/
theorem outcome_accept (s : Settings) (path : Path) (scratch : Option Path) (w : World) :
    OnlyReads ((accept s path scratch).outcome w) w (acceptAt w.files s path scratch) := by
  simp only [accept, checkVersion, acceptAt, Run.outcome_bind, Run.outcome_files,
    Run.outcome_ofExcept]
  cases checkSource w.files path with
  | error e => exact ⟨rfl, rfl, rfl⟩
  | ok v =>
    dsimp only
    rw [ok_bind]
    cases Version.check v s.minimumVersion with
    | error e => exact ⟨rfl, rfl, rfl⟩
    | ok u => exact ⟨rfl, rfl, rfl⟩

/-- Using a corpus that is there already changes no files. -/
theorem outcome_resolve_local (p : Provider) (base : Path) (version : Option String) (w : World) :
    OnlyReads ((resolve p (some base) version).outcome w) w
      (acceptAt w.files p.settings base none) := by
  cases version with
  | none => exact outcome_accept p.settings base none w
  | some v =>
    have hlog : (resolve p (some base) (some v)).outcome w =
        (accept p.settings base none).outcome
          { w with events := w.events ++ [.versionIgnored v] } :=
      Run.outcome_bind_ok (Run.outcome_log (.versionIgnored v) w)
    rw [hlog]
    obtain ⟨hr, hw, hdevice⟩ := outcome_accept p.settings base none
      { w with events := w.events ++ [.versionIgnored v] }
    exact ⟨hr, hw, hdevice⟩

/-- A run on a corpus that is there already. -/
theorem outcome_generate_local (p : Provider) (c : Catalog) (o : Options) (base : Path)
    (h : o.base = some base) (w : World) :
    Follows ((generate p c o).outcome w) w
      (declareAt w.files w.device p.settings c base o) := by
  obtain ⟨hr, hw, hdevice⟩ := outcome_resolve_local p base o.version w
  rw [generate, h, Run.outcome_bind, declareAt]
  cases ho : (resolve p (some base) o.version).outcome w with
  | mk r found =>
    rw [ho] at hr hw hdevice
    dsimp only at hr hw hdevice
    rw [← hr]
    cases r with
    | error e => exact ⟨rfl, hw, hdevice⟩
    | ok root =>
      have hs : root.scratch = none := scratch_of_acceptAt hr.symm
      simp only [CorpusRoot.release, hs, Run.outcome_andThen_pure, ok_bind]
      obtain ⟨hr', hw', hdevice'⟩ := outcome_generateFrom c root o found
      rw [hw, hdevice] at hr' hw'
      exact ⟨hr', hw', hdevice'.trans hdevice⟩

end SodiumDecl
