import SodiumDecl.Proofs.Declaring
import SodiumDecl.Proofs.Scratch

/-!
# What is found

`outcome_resolve_remote` is a run that needs a download as a function of the world up to the point
where it has a scratch directory. From there it either gives a corpus that is in the directory
(`Downloaded`) or leaves nothing (`leaves_useScratch`).

`leaves_resolve` is the result for the whole: a run that finds no corpus leaves every entry as it
was, and one that finds a corpus leaves what `Resolved` says.
-/

namespace SodiumDecl

variable {p : Provider} {t u : FileTree} {root : CorpusRoot}

/-- The version that a run downloads. -/
def Provider.downloadVersion (p : Provider) (version : Option String) : String :=
  version.getD p.settings.defaultVersion

/-- The path of a scratch directory that is to be made. -/
def Provider.scratchPath (p : Provider) (t : FileTree) : Path :=
  t.freshPath p.temporary scratchStem

/-- What a run does in its scratch directory. -/
def useScratch (p : Provider) (version : String) (sp : Path) : Run CorpusRoot :=
  Run.onFailure (removeScratch sp) do
    let path ← download p version (p.settings.archiveUrl version) sp
    accept p.settings path (some sp)

/-- The world after a download was announced. -/
def World.announced (w : World) (p : Provider) (version : String) : World :=
  { w with events :=
      w.events ++ [.downloading p.settings.library (p.settings.archiveUrl version)] }

/-! ## The start of a download -/

/-- The version is checked first, then a scratch directory is made, and the rest happens there. -/
theorem outcome_resolve_remote (p : Provider) (version : Option String) (w : World) :
    (resolve p none version).outcome w =
      match Version.check (p.downloadVersion version) p.settings.minimumVersion with
      | .error e => (.error (.version e), w)
      | .ok () =>
        match w.files.create (p.scratchPath w.files) .directory with
        | .error e =>
          (.error (.fetch (p.settings.archiveUrl (p.downloadVersion version)) (.scratch e)),
            w.announced p (p.downloadVersion version))
        | .ok t => (useScratch p (p.downloadVersion version) (p.scratchPath w.files)).outcome
            { w.announced p (p.downloadVersion version) with files := t } := by
  unfold resolve Provider.downloadVersion
  generalize version.getD p.settings.defaultVersion = v
  dsimp only
  rw [Run.outcome_bind, checkVersion, Run.outcome_ofExcept]
  cases Version.check v p.settings.minimumVersion with
  | error e => rfl
  | ok _ =>
    rw [mapError_ok]
    dsimp only
    rw [Run.outcome_bind_ok (Run.outcome_log _ w), Run.outcome_bind, makeScratch,
      Run.outcome_bind_ok (Run.outcome_files _)]
    simp only [World.announced, Provider.scratchPath, useScratch]
    cases w.files.create (w.files.freshPath p.temporary scratchStem) .directory with
    | error e => rfl
    | ok t => rfl

section Start

variable (p) {version : Option String} {w : World}

theorem outcome_resolve_refused {e : VersionError}
    (hv : Version.check (p.downloadVersion version) p.settings.minimumVersion = .error e) :
    (resolve p none version).outcome w = (.error (.version e), w) := by
  rw [outcome_resolve_remote, hv]

theorem outcome_resolve_unplaced {e : FileError}
    (hv : Version.check (p.downloadVersion version) p.settings.minimumVersion = .ok ())
    (hc : w.files.create (p.scratchPath w.files) .directory = .error e) :
    (resolve p none version).outcome w =
      (.error (.fetch (p.settings.archiveUrl (p.downloadVersion version)) (.scratch e)),
        w.announced p (p.downloadVersion version)) := by
  rw [outcome_resolve_remote, hv]
  dsimp only
  rw [hc]

theorem outcome_resolve_placed {t : FileTree}
    (hv : Version.check (p.downloadVersion version) p.settings.minimumVersion = .ok ())
    (hc : w.files.create (p.scratchPath w.files) .directory = .ok t) :
    (resolve p none version).outcome w =
      (useScratch p (p.downloadVersion version) (p.scratchPath w.files)).outcome
        { w.announced p (p.downloadVersion version) with files := t } := by
  rw [outcome_resolve_remote, hv]
  dsimp only
  rw [hc]

end Start

/-! ## A download -/

/-- A corpus was downloaded to a location at which nothing was: all that is new is below it, the
corpus is there and was accepted, and the archive is not left. -/
structure Downloaded (p : Provider) (version : String) (t : FileTree) (s : Location)
    (root : CorpusRoot) (u : FileTree) : Prop where
  gate : Version.check version p.settings.minimumVersion = .ok ()
  free : t.Free (p.scratchPath t) s
  within : WithScratch t s u
  archive : u.find? (s ++ [archiveName]) = none
  accepted : acceptAt u p.settings (p.scratchPath t / p.settings.archiveRoot version)
    (some (p.scratchPath t)) = .ok root

theorem Downloaded.scratch {version : String} {s : Location} (h : Downloaded p version t s root u) :
    root.scratch = some (p.scratchPath t) := scratch_of_acceptAt h.accepted

/-- Accepting a corpus changes nothing. -/
theorem leaves_accept (s : Settings) (path : Path) (scratch : Option Path) (w : World) :
    Run.Leaves ((accept s path scratch).outcome w) (fun u => u = w.files)
      fun root u => acceptAt u s path scratch = .ok root ∧ u = w.files := by
  obtain ⟨hr, hw, -⟩ := outcome_accept s path scratch w
  refine ⟨fun e w' h => ?_, fun root w' h => ?_⟩
  · rwa [h] at hw
  · rw [h] at hr hw
    exact ⟨hw ▸ hr.symm, hw⟩

/-- Once there is a scratch directory, a corpus is found in it or it is removed again. -/
theorem leaves_useScratch {version : String} {s : Location}
    (hv : Version.check version p.settings.minimumVersion = .ok ())
    (hf : t.Free (p.scratchPath t) s) (w : World) (hw : WithScratch t s w.files) :
    Run.Leaves ((useScratch p version (p.scratchPath t)).outcome w) t.Same
      (Downloaded p version t s) := by
  have hbody : Run.Leaves ((do
      let path ← download p version (p.settings.archiveUrl version) (p.scratchPath t)
      accept p.settings path (some (p.scratchPath t)) : Run CorpusRoot).outcome w)
      (WithScratch t s) (Downloaded p version t s) := by
    refine (leaves_download hf p version _ w hw).bind fun path w₁ h₁ => ?_
    obtain ⟨rfl, hin, hgone⟩ := h₁
    refine (leaves_accept _ _ _ w₁).mono (fun u hu => hu ▸ hin) fun root u hu => ?_
    exact ⟨hv, hf, hu.2 ▸ hin, hu.2 ▸ hgone, hu.1⟩
  refine hbody.onFailure fun w₁ h₁ => ?_
  obtain ⟨w₂, hr, h₂⟩ := outcome_removeScratch (p.scratchPath t) w₁
  rw [hr, h₂]
  exact h₁.remove hf

/-! ## A run -/

/-- What a corpus that was found leaves: a corpus that is there already changes nothing. -/
def Resolved (p : Provider) (base : Option Path) (version : Option String) (t : FileTree)
    (root : CorpusRoot) (u : FileTree) : Prop :=
  match base with
  | some path => acceptAt t p.settings path none = .ok root ∧ u = t
  | none => ∃ s, Downloaded p (p.downloadVersion version) t s root u

/-- A corpus is found, or nothing is left of the attempt. -/
theorem leaves_resolve (p : Provider) (base : Option Path) (version : Option String) (w : World) :
    Run.Leaves ((resolve p base version).outcome w) w.files.Same
      (Resolved p base version w.files) := by
  cases base with
  | some path =>
    obtain ⟨hr, hw⟩ := outcome_resolve_local p path version w
    refine ⟨fun e w' h => ?_, fun root w' h => ?_⟩
    · rw [h] at hw
      exact hw ▸ FileTree.Same.refl w.files
    · rw [h] at hr hw
      exact ⟨hr.symm, hw⟩
  | none =>
    cases hv : Version.check (p.downloadVersion version) p.settings.minimumVersion with
    | error e =>
      rw [outcome_resolve_refused p hv]
      exact Run.leaves_error.mpr (FileTree.Same.refl w.files)
    | ok _ =>
      cases hc : w.files.create (p.scratchPath w.files) .directory with
      | error e =>
        rw [outcome_resolve_unplaced p hv hc]
        exact Run.leaves_error.mpr (FileTree.Same.refl w.files)
      | ok t =>
        rw [outcome_resolve_placed p hv hc]
        obtain ⟨s, hf, rfl⟩ := FileTree.create_eq_ok.mp hc
        exact (leaves_useScratch hv hf _ hf.withScratch).mono (fun _ h => h) fun _ _ h => ⟨s, h⟩

end SodiumDecl
