import SodiumDecl.Proofs.Contents
import SodiumDecl.Proofs.Precedence
import SodiumDecl.Proofs.Resolving

/-!
# The gate

A version passes the gate if it and the minimum are well-formed and it is not below the minimum
(`Version.check_eq_ok`). A run that looks for a corpus passes it twice: with the version that is to
be downloaded before anything is requested, and with the version that the corpus names before the
corpus is used (`resolve_gated`).

`Run.Asks m rs` says that `m` makes the requests `rs`, whether it fails or not. Only `fetch` makes
one (`asks_fetch`), and nothing else in a run looks at the fetcher, so what a run does depends on
no more of it than its answer to that request (`useScratch_congr`).
-/

namespace SodiumDecl

/-! ## Versions -/

/-- A well-formed version has digits and dots alone. -/
theorem Version.isDigit_or_dot {v : String} (h : Version.isWellFormed v = true) {c : Char}
    (hc : c ∈ v.toList) : c.isDigit = true ∨ c = '.' := by
  by_cases hdot : c = '.'
  · exact Or.inr hdot
  · obtain ⟨w, hw, hmem⟩ := Path.exists_mem_splitOn hc hdot
    have hcomponent : Version.isComponent w = true := List.all_eq_true.mp h w hw
    have hdigits : ∀ x ∈ w, x.isDigit = true := by
      simpa using (Bool.and_eq_true_iff.mp hcomponent).2
    exact Or.inl (hdigits c hmem)

theorem Version.toList_ne_nil {v : String} (h : Version.isWellFormed v = true) :
    v.toList ≠ [] := by
  intro hv
  rw [Version.isWellFormed, Version.components, hv] at h
  exact absurd h (by decide)

/-- A version and a minimum between which there is an order, the version not below. -/
structure Version.Passes (v minimum : String) : Prop where
  wellFormed : Version.isWellFormed v = true
  minimum_wellFormed : Version.isWellFormed minimum = true
  not_below : Version.compare? v minimum ≠ some .lt

theorem Version.check_eq_ok {v minimum : String} :
    Version.check v minimum = .ok () ↔ Version.Passes v minimum := by
  unfold Version.check
  cases hc : Version.compare? v minimum with
  | none =>
    have hfail : ¬ Version.Passes v minimum := by
      intro h
      rcases Version.compare?_eq_none_iff.mp hc with hv | hm
      · exact absurd h.wellFormed (by simp [hv])
      · exact absurd h.minimum_wellFormed (by simp [hm])
    simpa using hfail
  | some o =>
    obtain ⟨hv, hm⟩ := Version.wellFormed_of_compare? hc
    cases o with
    | lt => simpa using fun h : Version.Passes v minimum => h.not_below hc
    | eq => simpa using (⟨hv, hm, by simp [hc]⟩ : Version.Passes v minimum)
    | gt => simpa using (⟨hv, hm, by simp [hc]⟩ : Version.Passes v minimum)

/-! ## Requests -/

namespace Run

variable {α β : Type} {m : Run α} {rs : List Request}

/-- A run makes requests, whether it fails or not. -/
def Asks (m : Run α) (rs : List Request) : Prop :=
  ∀ w, (m.outcome w).2.requests = w.requests ++ rs

theorem Asks.modify {f : World → World} (h : ∀ w, (f w).requests = w.requests ++ rs) :
    Asks (modify f : Run PUnit) rs := h

theorem Asks.pure (a : α) : Asks (pure a : Run α) [] := fun w => by simp

theorem Asks.throw (e : Error) : Asks (throw e : Run α) [] := fun w => by simp

theorem Asks.log (e : Event) : Asks (log e) [] := Asks.modify (by simp)

theorem Asks.setFiles (t : FileTree) : Asks (setFiles t) [] := Asks.modify (by simp)

theorem Asks.files : Asks files [] := fun w => by simp

theorem Asks.ofExcept (r : Except Error α) : Asks (ofExcept r) [] := fun w => by simp

/-- The requests of a sequence are made by its first step. -/
theorem Asks.bind {f : α → Run β} (hm : Asks m rs) (hf : ∀ a, Asks (f a) []) :
    Asks (m >>= f) rs := by
  intro w
  have hw := hm w
  rw [outcome_bind]
  cases ho : m.outcome w with
  | mk r w' =>
    rw [ho] at hw
    cases r with
    | ok a => exact (hf a w').trans (by simpa using hw)
    | error e => exact hw

theorem Asks.forM {f : α → Run PUnit} (hf : ∀ a, Asks (f a) []) (as : List α) :
    Asks (as.forM f) [] := by
  induction as with
  | nil => exact Asks.pure _
  | cons a as ih => exact (hf a).bind fun _ => ih

theorem Asks.onFailure {cleanup : Run Unit} (hm : Asks m rs) (hc : Asks cleanup []) :
    Asks (onFailure cleanup m) rs := by
  intro w
  have hw := hm w
  rw [outcome_onFailure]
  cases ho : m.outcome w with
  | mk r w' =>
    rw [ho] at hw
    cases r with
    | ok a => exact hw
    | error e => exact (hc.bind fun _ => Asks.throw e) w' |>.trans (by simpa using hw)

end Run

open Run

namespace Archive

variable (archive : Path)

theorem asks_part {α : Type} (o : Option α) : Asks (part archive o) [] := by
  cases o with
  | none => exact Asks.throw _
  | some a => exact Asks.pure a

theorem asks_bytes : Asks (bytes archive) [] :=
  Asks.files.bind fun _ => (asks_part archive _).bind fun _ => Asks.pure _

theorem asks_reach (p : Path) (ns : Location) : Asks (reach archive p ns) [] := by
  induction ns generalizing p with
  | nil => exact Asks.pure p
  | cons n ns ih =>
    refine Asks.files.bind fun _ => (asks_part archive _).bind fun _ => ?_
    dsimp only
    split
    · exact (Asks.setFiles _).bind fun _ => ih _
    · exact ih _

theorem asks_makeDirectory (p : Path) : Asks (makeDirectory archive p) [] := by
  refine Asks.files.bind fun _ => (asks_part archive _).bind fun _ => ?_
  split
  · exact Asks.pure _
  · exact Asks.throw _
  · exact Asks.setFiles _

theorem asks_clearFile (p : Path) : Asks (clearFile archive p) [] := by
  refine Asks.files.bind fun _ => (asks_part archive _).bind fun _ => ?_
  split
  · exact Asks.throw _
  · exact (Asks.setFiles _).bind fun _ => Asks.pure _

theorem asks_extractMember (base : Path) (e : Zip.PackedMember) :
    Asks (extractMember archive base e) [] := by
  refine (asks_part archive _).bind fun _ => (asks_part archive _).bind fun _ => ?_
  refine (asks_reach archive _ _).bind fun path => ?_
  split
  · exact asks_makeDirectory archive path
  · refine (asks_clearFile archive path).bind fun _ => (asks_bytes archive).bind fun _ => ?_
    refine (asks_part archive _).bind fun _ => Asks.files.bind fun _ => ?_
    exact (Asks.setFiles _).bind fun _ => asks_part archive _

theorem asks_destinationPath (p : Path) : Asks (destinationPath archive p) [] := by
  refine Asks.files.bind fun _ => (asks_part archive _).bind fun _ => ?_
  exact (Asks.setFiles _).bind fun _ => (asks_part archive _).bind fun _ => Asks.pure _

theorem asks_extract (p : Path) : Asks (extract archive p) [] := by
  refine (asks_bytes archive).bind fun _ => (asks_part archive _).bind fun members => ?_
  refine (asks_destinationPath archive p).bind fun base => ?_
  exact (Asks.forM (asks_extractMember archive base) members).bind fun _ => Asks.log _

end Archive

/-- The request is made first, and it is the only one. -/
theorem asks_fetch (fetcher : Fetcher) (url : String) (sp : Path) :
    Asks (fetch fetcher url sp) [⟨url, sp / archiveName⟩] := by
  refine Asks.bind (Asks.modify fun _ => rfl) fun _ => Asks.files.bind fun _ => ?_
  refine (Asks.setFiles _).bind fun _ => ?_
  split
  · exact Asks.throw _
  · exact Asks.pure _
  · refine Asks.files.bind fun _ => ?_
    split
    · exact Asks.throw _
    · exact Asks.setFiles _

theorem asks_accept (s : Settings) (path : Path) (scratch : Option Path) :
    Asks (accept s path scratch) [] := by
  refine Asks.files.bind fun _ => (Asks.ofExcept _).bind fun _ => ?_
  exact (Asks.ofExcept _).bind fun _ => (Asks.log _).bind fun _ => Asks.pure _

theorem asks_removeScratch (sp : Path) : Asks (removeScratch sp) [] :=
  Asks.files.bind fun _ => (Asks.setFiles _).bind fun _ => Asks.log _

theorem asks_useScratch (p : Provider) (version : String) (sp : Path) :
    Asks (useScratch p version sp) [⟨p.settings.archiveUrl version, sp / archiveName⟩] := by
  refine Asks.onFailure (Asks.bind ?_ fun _ => asks_accept _ _ _) (asks_removeScratch sp)
  refine (asks_fetch _ _ _).bind fun _ => (Archive.asks_extract _ _).bind fun _ => ?_
  exact Asks.files.bind fun _ => (Asks.setFiles _).bind fun _ => Asks.pure _

/-- Fetchers that answer the request alike are alike. -/
theorem useScratch_congr {p : Provider} {version : String} {f : Fetcher}
    (h : f (p.settings.archiveUrl version) = p.fetcher (p.settings.archiveUrl version))
    (sp : Path) : useScratch { p with fetcher := f } version sp = useScratch p version sp := by
  simp only [useScratch, download, fetch, h]

/-! ## Looking for a corpus -/

/-- The request of a run: no corpus is there already, the version has passed the gate, and the
archive is to come into a directory that is not there before. -/
structure Requested (p : Provider) (base : Option Path) (version : Option String) (t : FileTree)
    (r : Request) : Prop where
  remote : base = none
  passes : Version.Passes (p.downloadVersion version) p.settings.minimumVersion
  url : r.url = p.settings.archiveUrl (p.downloadVersion version)
  free : ∃ s, t.Free (p.scratchPath t) s
  destination : r.destination = p.scratchPath t / archiveName

/-- The package of a corpus names a version. -/
def PackageNames (t : FileTree) (root : Path) (version : String) : Prop :=
  ∃ text v, t.readText (packageFile root) = .ok text ∧ Json.value? text = some v ∧
    (v.member? "version").bind Json.Value.string? = some version

theorem packageNames_of_acceptAt {t : FileTree} {s : Settings} {path : Path}
    {scratch : Option Path} {root : CorpusRoot} (h : acceptAt t s path scratch = .ok root) :
    PackageNames t root.path root.version ∧ Version.Passes root.version s.minimumVersion := by
  obtain ⟨hsource, hcheck, hroot⟩ := acceptAt_eq_ok.mp h
  have hpath : root.path = path := by rw [hroot]
  refine ⟨?_, Version.check_eq_ok.mp hcheck⟩
  rw [hpath]
  exact packageVersion_eq_ok.mp (packageVersion_of_checkSource hsource)

theorem Resolved.packageNames {p : Provider} {base : Option Path} {version : Option String}
    {t u : FileTree} {root : CorpusRoot} (h : Resolved p base version t root u) :
    PackageNames u root.path root.version ∧
      Version.Passes root.version p.settings.minimumVersion := by
  cases base with
  | some path =>
    obtain ⟨h, rfl⟩ := h
    exact packageNames_of_acceptAt h
  | none =>
    obtain ⟨s, h⟩ := h
    exact packageNames_of_acceptAt h.accepted

/-- A run makes the one request that is due, or none, and depends on no more of the fetcher than
its answer. -/
def AsksOnce (p : Provider) (base : Option Path) (version : Option String) (w : World) : Prop :=
  (∃ r, Requested p base version w.files r ∧
    ((resolve p base version).outcome w).2.requests = w.requests ++ [r] ∧
    ∀ f : Fetcher, f r.url = p.fetcher r.url →
      (resolve { p with fetcher := f } base version).outcome w =
        (resolve p base version).outcome w) ∨
  (∀ r, ¬ Requested p base version w.files r) ∧
    ((resolve p base version).outcome w).2.requests = w.requests ∧
    ∀ f : Fetcher, (resolve { p with fetcher := f } base version).outcome w =
      (resolve p base version).outcome w

theorem asksOnce_local (p : Provider) (base : Path) (version : Option String) (w : World) :
    AsksOnce p (some base) version w := by
  have hasks : Asks (resolve p (some base) version) [] := by
    cases version with
    | none => exact asks_accept _ _ _
    | some v => exact (Asks.log _).bind fun _ => asks_accept _ _ _
  exact Or.inr ⟨fun r hr => by simpa using hr.remote, by simpa using hasks w, fun f => rfl⟩

theorem asksOnce_remote (p : Provider) (version : Option String) (w : World) :
    AsksOnce p none version w := by
  cases hv : Version.check (p.downloadVersion version) p.settings.minimumVersion with
  | error e =>
    refine Or.inr ⟨fun r hr => ?_, ?_, fun f => ?_⟩
    · simp [Version.check_eq_ok.mpr hr.passes] at hv
    · rw [outcome_resolve_refused p hv]
    · exact (outcome_resolve_refused { p with fetcher := f } hv).trans
        (outcome_resolve_refused p hv).symm
  | ok _ =>
    cases hc : w.files.create (p.scratchPath w.files) .directory with
    | error e =>
      refine Or.inr ⟨fun r hr => ?_, ?_, fun f => ?_⟩
      · obtain ⟨s, hs⟩ := hr.free
        simp [FileTree.create_eq_ok.mpr ⟨s, hs, rfl⟩] at hc
      · rw [outcome_resolve_unplaced p hv hc]
        rfl
      · exact (outcome_resolve_unplaced { p with fetcher := f } hv hc).trans
          (outcome_resolve_unplaced p hv hc).symm
    | ok t =>
      obtain ⟨s, hf, -⟩ := FileTree.create_eq_ok.mp hc
      refine Or.inl ⟨⟨_, _⟩, ⟨rfl, Version.check_eq_ok.mp hv, rfl, ⟨s, hf⟩, rfl⟩, ?_, fun f h => ?_⟩
      · rw [outcome_resolve_placed p hv hc]
        exact asks_useScratch p _ _ _
      · rw [outcome_resolve_placed p hv hc, ← useScratch_congr h]
        exact outcome_resolve_placed { p with fetcher := f } hv hc

/-- A run requests the archive of the version it is to download at most once, and only if the
version passes the gate. A corpus that is there already is used whatever version is asked for. In
either case the corpus names its version itself, and that version passes the gate too. -/
theorem resolve_gated (p : Provider) (base : Option Path) (version : Option String) (w : World) :
    AsksOnce p base version w ∧
      (∀ path, base = some path → ∀ version',
        ((resolve p base version').outcome w).1 = ((resolve p base version).outcome w).1) ∧
      ∀ root w', (resolve p base version).outcome w = (.ok root, w') →
        PackageNames w'.files root.path root.version ∧
          Version.Passes root.version p.settings.minimumVersion := by
  refine ⟨?_, ?_, fun root w' h => ?_⟩
  · cases base with
    | some path => exact asksOnce_local p path version w
    | none => exact asksOnce_remote p version w
  · rintro path rfl version'
    rw [(outcome_resolve_local p path version' w).1, (outcome_resolve_local p path version w).1]
  · exact ((leaves_resolve p base version w).ok root w' h).packageNames

example : ((resolve sampleProvider none none).outcome { files := .bare [] }).2.requests =
    [⟨"https://github.com/jedisct1/libsodium.js/archive/0.7.3.zip",
      ⟨"/sodium-typegen-000000/libsodium.zip"⟩⟩] := by
  decide +kernel

end SodiumDecl
