import Mathlib.Logic.Relation
import SodiumDecl.Proofs.Language

/-!
# The life of a scratch directory

A corpus that was downloaded has a scratch directory until it is released. In between other
corpora are found and released and declarations are written, each a `Moment.Step`, and a whole run
is made of such steps (`steps_generate`).

No step takes a directory away that was there when the corpus was found, and none brings the archive
back (`Intact.step`). So the scratch directory stands for as long as the corpus is in use, and when
the corpus is released all of it goes (`scratch_lifecycle`).
-/

namespace SodiumDecl

variable {p : Provider} {t u v : FileTree} {root : CorpusRoot} {s : Location} {version : String}

/-! ## The directory of a release -/

theorem Version.not_slash {a : String} (h : Version.isWellFormed a = true) : '/' ∉ a.toList :=
  fun hs => Version.not_mem_reserved (Version.mem_language_iff.mpr h) hs (by decide)

theorem mem_archiveRoot (settings : Settings) (version : String) :
    '-' ∈ (settings.archiveRoot version).toList := by
  simp [Settings.archiveRoot]

theorem isName_archiveRoot {settings : Settings} (hl : '/' ∉ settings.library.toList)
    (hv : Version.isWellFormed version = true)
    (h0 : Char.ofNat 0 ∉ (settings.archiveRoot version).toList) :
    Path.IsName (settings.archiveRoot version) := by
  refine Path.isName_of_mem (mem_archiveRoot settings version) (by decide) ?_ h0
  simp [Settings.archiveRoot, hl, Version.not_slash hv]

/-- A corpus is a directory. -/
theorem directory_of_checkSource {path : Path} (hp : path.text ≠ "")
    (h : checkSource t path = .ok version) :
    ∃ b, t.locate path = .ok b ∧ t.find? b = some .directory := by
  have hlist : ∃ names, t.list (symbolsDirectory path) = .ok names := by
    rw [checkSource_eq] at h
    split at h
    case h_1 => simp at h
    case h_2 names hn => exact ⟨names, hn⟩
  obtain ⟨names, hn⟩ := hlist
  obtain ⟨l, hl, -⟩ := list_eq_ok.mp hn
  have hw : Path.IsName "wrapper" := by decide
  obtain ⟨b, hb, -, -⟩ := FileTree.locate_join (Path.text_join_ne_empty path hw) (by decide) hl
  obtain ⟨b', hb', hd, -⟩ := FileTree.locate_join hp hw hb
  exact ⟨b', hb', hd⟩

/-- A corpus that was downloaded is an entry of its scratch directory, unless the name of the
library leads elsewhere. -/
theorem Downloaded.child (h : Downloaded p version t s root u)
    (hl : '/' ∉ p.settings.library.toList) :
    ∃ n, Path.IsName n ∧ root.path = p.scratchPath t / n ∧
      u.locate root.path = .ok (s ++ [n]) ∧ u.find? (s ++ [n]) = some .directory := by
  obtain ⟨hsource, -, hroot⟩ := acceptAt_eq_ok.mp h.accepted
  have hpath : root.path = p.scratchPath t / p.settings.archiveRoot version := by rw [hroot]
  have hsuffix := (Path.suffix_join (p.scratchPath t) (p.settings.archiveRoot version)).subset
  have htext : (p.scratchPath t / p.settings.archiveRoot version).text ≠ "" := by
    intro he
    simpa [he] using hsuffix (mem_archiveRoot p.settings version)
  obtain ⟨b, hb, hd⟩ := directory_of_checkSource htext hsource
  have hnull : Char.ofNat 0 ∉ (p.scratchPath t / p.settings.archiveRoot version).text.toList := by
    simpa [Path.hasNull] using (FileTree.locate_eq_ok.mp hb).1
  have hn := isName_archiveRoot hl (Version.check_eq_ok.mp h.gate).wellFormed
    fun hmem => hnull (hsuffix hmem)
  obtain ⟨b', hb', -, rfl⟩ := FileTree.locate_join h.free.leadsBelow.1 hn hb
  obtain rfl : s = b' := Except.ok.inj ((h.within.locate h.free h.free.1).symm.trans hb')
  exact ⟨_, hn, hpath, hpath ▸ hb, hd⟩

/-! ## Directories that stay -/

/-- Wherever the path of its scratch directory leads, a corpus has no directory of a tree there. -/
def Apart (t : FileTree) (root : CorpusRoot) : Prop :=
  ∀ sp, root.scratch = some sp → ∀ (u : FileTree) (s : Location), u.home = t.home →
    u.locate sp = .ok s → ∀ x, t.find? x = some .directory → ¬ s <+: x

theorem apart_of_local (hs : root.scratch = none) : Apart t root := by
  intro sp hsp
  simp [hs] at hsp

/-- What is downloaded later is apart from what is there. -/
theorem Downloaded.apart (h : Downloaded p version u s root v) (hu : u.Covers t) :
    Apart t root := by
  intro sp hsp v' s' hhome hl x hx hp
  obtain rfl : p.scratchPath u = sp := Option.some.inj (h.scratch.symm.trans hsp)
  -- The path led to `s` when nothing was there, and it cannot lead elsewhere later.
  obtain rfl := FileTree.locate_unique (hhome.trans hu.1.symm) h.free.1 hl
  simpa [h.free.find?_eq_none hp] using hu.2 x hx

/-- The name of a scratch directory is not the one of an archive. -/
theorem FileTree.Free.ne_archive (hf : t.Free (p.scratchPath t) s) (b : Location) :
    s ≠ b ++ [archiveName] := by
  obtain ⟨taken, hpath⟩ : ∃ taken, p.scratchPath t =
      t.absolute p.temporary / FileTree.freshName taken scratchStem := ⟨_, rfl⟩
  have hl := hf.1
  rw [hpath] at hl
  obtain ⟨b', -, -, rfl⟩ := FileTree.locate_join (t.text_absolute_ne_empty p.temporary)
    (FileTree.isName_freshName taken (by decide) (by decide)) hl
  intro he
  have hname : FileTree.freshName taken scratchStem = archiveName := by
    simpa using congrArg List.getLast? he
  -- The one starts with an `s`, the other with an `l`.
  obtain ⟨-, n, hn⟩ := FileTree.freshName_eq taken scratchStem
  have hhead := congrArg (·.toList.head?) (hn.symm.trans hname)
  simp [archiveName, scratchStem] at hhead

/-- What is downloaded later does not come where an archive was. -/
theorem Downloaded.not_prefix_archive (h : Downloaded p version u s root v) {b : Location}
    (hb : u.find? b = some .directory) : ¬ s <+: b ++ [archiveName] := by
  intro hp
  rcases List.prefix_concat_iff.mp hp with he | hp
  · exact h.free.ne_archive b he
  · simp [h.free.find?_eq_none hp] at hb

theorem released_covers (h : u.Covers t) (ha : Apart t root) : (released root u).Covers t := by
  unfold released
  cases hs : root.scratch with
  | none => exact h
  | some sp =>
    dsimp only
    rw [FileTree.remove]
    cases hl : u.locate sp with
    | error e => exact h
    | ok l =>
      refine ⟨h.1, fun x hx => ?_⟩
      rw [FileTree.find?_erase, if_neg fun hp => ha sp hs u l h.1 hl x hx hp.1]
      exact h.2 x hx

theorem find?_released (root : CorpusRoot) (u : FileTree) (x : Location) :
    (released root u).find? x = none ∨ (released root u).find? x = u.find? x := by
  unfold released
  cases root.scratch with
  | none => exact Or.inr rfl
  | some sp =>
    dsimp only
    rw [FileTree.remove]
    split
    · rw [FileTree.find?_erase]
      split
      · exact Or.inl rfl
      · exact Or.inr rfl
    · exact Or.inr rfl

/-- Declarations are written as one file, or nothing is changed. -/
theorem files_generateFrom (c : Catalog) (root : CorpusRoot) (o : Options) (w : World) :
    ((generateFrom c root o).outcome w).2.files = w.files ∨
      ∃ l, ∃ d : Document, w.files.CanHold l ∧
        ((generateFrom c root o).outcome w).2.files = w.files.put l (.file d.render.toUTF8) := by
  rw [(outcome_generateFrom c root o w).files]
  cases hd : declare w.files w.device c root o with
  | error e => exact Or.inl rfl
  | ok x =>
    obtain ⟨r, u⟩ := x
    obtain ⟨corpus, -, -, hwrite⟩ := declare_eq_ok.mp hd
    obtain ⟨-, l, -, -, hcan, -, rfl⟩ := FileTree.writeFile_eq_ok.mp hwrite
    exact Or.inr ⟨l, _, hcan, rfl⟩

/-! ## What happens while a corpus is in use -/

/-- A world, and the corpora in use that were found since some moment before. -/
structure Moment where
  world : World
  inUse : List CorpusRoot

/-- What may happen next: a corpus is found or not, declarations are written, or a corpus is
released. -/
inductive Moment.Step : Moment → Moment → Prop
  | found {w w' : World} {roots : List CorpusRoot} {root : CorpusRoot} (p : Provider)
      (base : Option Path) (version : Option String)
      (h : (resolve p base version).outcome w = (.ok root, w')) :
      Step ⟨w, roots⟩ ⟨w', root :: roots⟩
  | refused {w w' : World} {roots : List CorpusRoot} {e : Error} (p : Provider)
      (base : Option Path) (version : Option String)
      (h : (resolve p base version).outcome w = (.error e, w')) : Step ⟨w, roots⟩ ⟨w', roots⟩
  | declared (w : World) (roots : List CorpusRoot) (c : Catalog) (root : CorpusRoot) (o : Options) :
      Step ⟨w, roots⟩ ⟨((generateFrom c root o).outcome w).2, roots⟩
  | released (w : World) {roots : List CorpusRoot} {root : CorpusRoot} (h : root ∈ roots) :
      Step ⟨w, roots⟩ ⟨(root.release.outcome w).2, roots.erase root⟩

/-- Any number of steps. -/
abbrev Moment.Steps : Moment → Moment → Prop := Relation.ReflTransGen Moment.Step

/-- A whole run is made of steps. -/
theorem steps_generate (p : Provider) (c : Catalog) (o : Options) (w : World)
    (roots : List CorpusRoot) :
    Moment.Steps ⟨w, roots⟩ ⟨((generate p c o).outcome w).2, roots⟩ := by
  rw [generate, Run.outcome_bind]
  cases ho : (resolve p o.base o.version).outcome w with
  | mk r found =>
    cases r with
    | error e => exact .single (.refused p o.base o.version ho)
    | ok root =>
      dsimp only
      rw [outcome_andThen_release]
      refine .trans (.single (.found p o.base o.version ho)) ?_
      refine .trans (.single (.declared found (root :: roots) c root o)) ?_
      have hrelease := Moment.Step.released ((generateFrom c root o).outcome found).2
        (List.mem_cons_self (a := root) (l := roots))
      rw [List.erase_cons_head] at hrelease
      exact .single hrelease

/-- What stays so from a moment on: the directories that were there are there, what was found since
is apart from them, and at a place where nothing was there is nothing but, it may be, the text of a
document. -/
structure Intact (t : FileTree) (x : Location) (m : Moment) : Prop where
  covers : m.world.files.Covers t
  apart : ∀ root ∈ m.inUse, Apart t root
  place : m.world.files.find? x = none ∨
    ∃ d : Document, m.world.files.find? x = some (.file d.render.toUTF8)

theorem Intact.step {m m' : Moment} (hs : t.find? s = some .directory)
    (h : Intact t (s ++ [archiveName]) m) (hm : m.Step m') :
    Intact t (s ++ [archiveName]) m' := by
  cases hm with
  | found p base version ho =>
    have hr := (leaves_resolve p base version _).ok _ _ ho
    cases base with
    | some path =>
      obtain ⟨hroot, hw⟩ := hr
      have hnew := apart_of_local (t := t) (scratch_of_acceptAt hroot)
      refine ⟨?_, List.forall_mem_cons.mpr ⟨hnew, h.apart⟩, ?_⟩
      · simpa only [hw] using h.covers
      · simpa only [hw] using h.place
    | none =>
      obtain ⟨s', hd⟩ := hr
      -- The directory of the archive is there, so the new scratch directory is not above it.
      have hout := hd.not_prefix_archive (h.covers.2 s hs)
      refine ⟨(hd.within.covers hd.free).trans h.covers,
        List.forall_mem_cons.mpr ⟨hd.apart h.covers, h.apart⟩, ?_⟩
      simpa only [hd.within.outside _ hout] using h.place
  | refused p base version ho =>
    have hsame := (leaves_resolve p base version _).error _ _ ho
    refine ⟨hsame.covers.trans h.covers, h.apart, ?_⟩
    simpa only [hsame.2] using h.place
  | declared w roots c root o =>
    -- Only a document can have come to the place of the archive.
    have hfiles := files_generateFrom c root o w
    generalize ((generateFrom c root o).outcome w).2 = w' at hfiles
    rcases hfiles with hw | ⟨l, d, hl, hw⟩
    · refine ⟨?_, h.apart, ?_⟩
      · simpa only [hw] using h.covers
      · simpa only [hw] using h.place
    · refine ⟨?_, h.apart, ?_⟩
      · simpa only [hw] using (FileTree.SameDirectories.put_file hl _).covers.trans h.covers
      · simp only [hw, FileTree.find?_put hl]
        split
        · exact Or.inr ⟨d, rfl⟩
        · exact h.place
  | released w hroot =>
    obtain ⟨w', hr, hw⟩ := outcome_releaseRoot _ w
    rw [hr]
    refine ⟨?_, fun root h' => h.apart root (List.mem_of_mem_erase h'), ?_⟩
    · simpa only [hw] using released_covers h.covers (h.apart _ hroot)
    · simp only [hw]
      rcases find?_released _ w.files (s ++ [archiveName]) with hx | hx
      · exact Or.inl hx
      · simpa only [hx] using h.place

theorem Intact.steps {m m' : Moment} (hs : t.find? s = some .directory)
    (h : Intact t (s ++ [archiveName]) m) (hm : m.Steps m') :
    Intact t (s ++ [archiveName]) m' := by
  induction hm with
  | refl => exact h
  | tail _ hstep ih => exact ih.step hs hstep

/-! ## From the download to the release -/

/-- A scratch directory is there. The archive is not: where it was there is nothing but, it may be,
the text of a document. -/
structure Stands (sp : Path) (s : Location) (u : FileTree) : Prop where
  located : u.locate sp = .ok s
  directory : u.find? s = some .directory
  archive : u.find? (s ++ [archiveName]) = none ∨
    ∃ d : Document, u.find? (s ++ [archiveName]) = some (.file d.render.toUTF8)

/-- The scratch directory stands for as long as the corpus is in use. -/
theorem Downloaded.stands {found : World} (h : Downloaded p version t s root found.files)
    {m : Moment} (hm : Moment.Steps ⟨found, []⟩ m) : Stands (p.scratchPath t) s m.world.files := by
  have hstart : Intact found.files (s ++ [archiveName]) ⟨found, []⟩ :=
    ⟨FileTree.Covers.refl _, by simp, Or.inl h.archive⟩
  have hend := hstart.steps h.within.scratch hm
  have hl := h.within.locate h.free h.free.1
  exact ⟨hend.covers.locate hl, hend.covers.2 s h.within.scratch, hend.place⟩

/-- Nothing at or below a scratch directory is left when its corpus is released. -/
theorem find?_released_of_stands {sp : Path} (hr : root.scratch = some sp) (hs : s ≠ [])
    (h : Stands sp s u) (x : Location) :
    (released root u).find? x = if s <+: x then none else u.find? x := by
  have hx : s <+: x → x ≠ [] := by
    rintro hp rfl
    exact hs (List.prefix_nil.mp hp)
  simp only [released, hr, FileTree.remove, h.located, FileTree.find?_erase]
  by_cases hp : s <+: x
  · simp [hp, hx hp]
  · simp [hp]

/-- A corpus that was there already: it has no scratch directory, and to release it changes
nothing. -/
structure Borrowed (root : CorpusRoot) : Prop where
  not_ephemeral : root.isEphemeral = false
  released : ∀ w, root.release.outcome w = (.ok (), w)

/-- A corpus that was downloaded. Its scratch directory was not there before, it stands whatever
happens in between, and all of it goes when the corpus is released. The corpus is an entry of it,
unless the name of the library leads elsewhere. -/
structure Owned (p : Provider) (w : World) (root : CorpusRoot) (found : World) (s : Location) :
    Prop where
  ephemeral : root.isEphemeral = true
  scratch : root.scratch = some (p.scratchPath w.files)
  fresh : w.files.Free (p.scratchPath w.files) s
  stands : ∀ m, Moment.Steps ⟨found, []⟩ m → Stands (p.scratchPath w.files) s m.world.files
  released : ∀ m, Moment.Steps ⟨found, []⟩ m → ∀ x,
    (root.release.outcome m.world).2.files.find? x =
      if s <+: x then none else m.world.files.find? x
  child : '/' ∉ p.settings.library.toList → ∃ n, Path.IsName n ∧
    root.path = p.scratchPath w.files / n ∧ found.files.locate root.path = .ok (s ++ [n]) ∧
      found.files.find? (s ++ [n]) = some .directory

theorem borrowed_of_scratch (h : root.scratch = none) : Borrowed root := by
  refine ⟨by simp [CorpusRoot.isEphemeral, h], fun w => ?_⟩
  rw [CorpusRoot.release, h]
  rfl

theorem Downloaded.owned {w found : World} (h : Downloaded p version w.files s root found.files) :
    Owned p w root found s where
  ephemeral := by simp [CorpusRoot.isEphemeral, h.scratch]
  scratch := h.scratch
  fresh := h.free
  stands _ hm := h.stands hm
  released m hm x := by
    obtain ⟨w', hr, hw⟩ := outcome_releaseRoot root m.world
    rw [hr, hw]
    exact find?_released_of_stands h.scratch h.free.canHold.1 (h.stands hm) x
  child := h.child

/-- After a whole run nothing is where its scratch directory may have been. -/
theorem find?_generate_remote {o : Options} (ho : o.base = none) (c : Catalog) {w : World}
    (hf : w.files.Free (p.scratchPath w.files) s) {x : Location} (hx : s <+: x) :
    ((generate p c o).outcome w).2.files.find? x = none := by
  have hresolve := leaves_resolve p o.base o.version w
  rw [generate, Run.outcome_bind]
  cases hr : (resolve p o.base o.version).outcome w with
  | mk r found =>
    cases r with
    | error e => exact ((hresolve.error e found hr).2 x).trans (hf.find?_eq_none hx)
    | ok root =>
      have hfound := hresolve.ok root found hr
      rw [ho] at hfound
      obtain ⟨s', hd⟩ := hfound
      obtain rfl : s' = s := Except.ok.inj (hd.free.1.symm.trans hf.1)
      have hstep := Moment.Step.declared found [] c root o
      dsimp only
      rw [outcome_andThen_release, hd.owned.released _ (.single hstep) x, if_pos hx]

/-- A whole run on a corpus that is there already makes no directory, and changes nothing at all if
it fails. -/
theorem files_generate_local {o : Options} {base : Path} (ho : o.base = some base) (p : Provider)
    (c : Catalog) (w : World) :
    FileTree.SameDirectories w.files ((generate p c o).outcome w).2.files ∧
      ∀ e w', (generate p c o).outcome w = (.error e, w') → w'.files = w.files := by
  have hfollows := outcome_generate_local p c o base ho w
  cases hr : ((generate p c o).outcome w).1 with
  | error e =>
    obtain ⟨-, hw⟩ := hfollows.of_error hr
    refine ⟨hw ▸ FileTree.SameDirectories.refl _, fun e' w' h => ?_⟩
    rwa [h] at hw
  | ok r =>
    refine ⟨?_, fun e w' h => by simp [h] at hr⟩
    obtain ⟨root, -, hroot⟩ := declareAt_eq_ok.mp (hfollows.of_ok hr)
    obtain ⟨corpus, -, -, hwrite⟩ := declare_eq_ok.mp hroot
    obtain ⟨-, l, -, -, hcan, -, hput⟩ := FileTree.writeFile_eq_ok.mp hwrite
    exact hput ▸ FileTree.SameDirectories.put_file hcan _

/-- A scratch directory does not outlive what it was made for. A run that finds no corpus leaves
every entry as it was. A corpus that was there already is not changed by any failure, nor when it is
released. A corpus that was downloaded has a scratch directory that stands until it is released and
then goes, and after a whole run, whether it fails or not, nothing is left where it was. -/
theorem scratch_lifecycle (p : Provider) (c : Catalog) (o : Options) (w : World) :
    (∀ e w', (resolve p o.base o.version).outcome w = (.error e, w') → w.files.Same w'.files) ∧
      (∀ root found, (resolve p o.base o.version).outcome w = (.ok root, found) →
        (o.base ≠ none → Borrowed root) ∧ (o.base = none → ∃ s, Owned p w root found s)) ∧
      (o.base ≠ none → ((resolve p o.base o.version).outcome w).2.files = w.files ∧
        FileTree.SameDirectories w.files ((generate p c o).outcome w).2.files ∧
        ∀ e w', (generate p c o).outcome w = (.error e, w') → w'.files = w.files) ∧
      (o.base = none → ∀ s, w.files.Free (p.scratchPath w.files) s → ∀ x, s <+: x →
        ((generate p c o).outcome w).2.files.find? x = none) := by
  have hresolve := leaves_resolve p o.base o.version w
  refine ⟨fun e w' h => hresolve.error e w' h, fun root found h => ⟨fun hb => ?_, fun hb => ?_⟩,
    fun hb => ?_, fun hb s hf x hx => find?_generate_remote hb c hf hx⟩
  · obtain ⟨base, hb⟩ := Option.ne_none_iff_exists'.mp hb
    have hfound := hresolve.ok root found h
    rw [hb] at hfound
    exact borrowed_of_scratch (scratch_of_acceptAt hfound.1)
  · have hfound := hresolve.ok root found h
    rw [hb] at hfound
    obtain ⟨s, hd⟩ := hfound
    exact ⟨s, hd.owned⟩
  · obtain ⟨base, hb⟩ := Option.ne_none_iff_exists'.mp hb
    refine ⟨?_, files_generate_local hb p c w⟩
    rw [hb]
    exact (outcome_resolve_local p base o.version w).files

end SodiumDecl
