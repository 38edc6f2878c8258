import SodiumDecl.Proofs.Writing
import SodiumDecl.Source

/-!
# Scratch directories

`WithScratch t s u` says that `u` is the tree `t` with a directory at `s`, which `t` does not
have, and anything below it. Putting and erasing below `s` keep it (`WithScratch.put`,
`WithScratch.erase`), and so does whatever works along paths that lead there: what a fetcher
leaves (`keeps_fetch`) and every member of an archive (`keeps_extract`). A download that succeeds
does not leave the archive there (`leaves_download`). When the directory is removed, the tree is as
it was before (`WithScratch.remove`).
-/

namespace SodiumDecl

/-- A path leads to a location of a tree at which nothing is. -/
def FileTree.Free (t : FileTree) (sp : Path) (s : Location) : Prop :=
  t.locate sp = .ok s ∧ t.find? s = none

/-- A tree with a directory at a location, and anything below it. -/
structure WithScratch (t : FileTree) (s : Location) (u : FileTree) : Prop where
  home : u.home = t.home
  scratch : u.find? s = some .directory
  outside : ∀ x, ¬ s <+: x → u.find? x = t.find? x

variable {t u : FileTree} {s : Location} {sp p : Path}

theorem FileTree.Free.canHold (h : t.Free sp s) : t.CanHold s :=
  (FileTree.locate_place h.1).resolve_left (by simp [h.2])

theorem FileTree.Free.withScratch (h : t.Free sp s) : WithScratch t s (t.put s .directory) := by
  refine ⟨FileTree.put_home _ _ _, ?_, fun x hx => ?_⟩
  · simp [FileTree.find?_put h.canHold]
  · have hne : x ≠ s := fun he => hx (he ▸ List.prefix_rfl)
    simp [FileTree.find?_put h.canHold, hne]

/-- An entry is made where nothing is. -/
theorem FileTree.create_eq_ok {e : Entry} :
    t.create p e = .ok u ↔ ∃ l, t.Free p l ∧ u = t.put l e := by
  rw [create, bind_eq_ok]
  refine exists_congr fun l => ?_
  rw [Free]
  cases t.find? l <;> simp [eq_comm]

/-- Nothing is in a directory that is not there. -/
theorem FileTree.Free.find?_eq_none (h : t.Free sp s) {x : Location} (hx : s <+: x) :
    t.find? x = none := by
  by_cases hs : (t.find? x).isSome
  · by_cases hne : s = x
    · exact hne ▸ h.2
    · have := FileTree.find?_above hx hne hs
      simp [h.2] at this
  · simpa using hs

namespace WithScratch

theorem put (h : WithScratch t s u) {l : Location} (hl : s <+: l) (e : Entry) :
    WithScratch t s (u.put l e) := by
  by_cases hc : u.CanHold l
  · refine ⟨by simp [h.home], ?_, fun x hx => ?_⟩
    · have hne : s ≠ l := fun he => hc.2.2.1 (he ▸ h.scratch)
      simp [FileTree.find?_put hc, hne, h.scratch]
    · have hne : x ≠ l := fun he => hx (he ▸ hl)
      simp [FileTree.find?_put hc, hne, h.outside x hx]
  · rwa [FileTree.put, dif_neg hc]

theorem erase (h : WithScratch t s u) {l : Location} (hl : s <+: l) (hne : s ≠ l) :
    WithScratch t s (u.erase l) := by
  refine ⟨by simp [h.home], ?_, fun x hx => ?_⟩
  · have hn : ¬ l <+: s := fun hp => hne (hl.eq_of_length_le hp.length_le)
    simp [FileTree.find?_erase, hn, h.scratch]
  · have hn : ¬ l <+: x := fun hp => hx (hl.trans hp)
    simp [FileTree.find?_erase, hn, h.outside x hx]

theorem directory (h : WithScratch t s u) (hf : t.Free sp s) {x : Location}
    (hx : t.find? x = some .directory) : u.find? x = some .directory := by
  by_cases hp : s <+: x
  · simp [hf.find?_eq_none hp] at hx
  · rw [h.outside x hp, hx]

theorem covers (h : WithScratch t s u) (hf : t.Free sp s) : u.Covers t :=
  ⟨h.home, fun _ => h.directory hf⟩

/-- What a path leads to without the directory, it leads to with it. -/
theorem locate (h : WithScratch t s u) (hf : t.Free sp s) {l : Location}
    (hl : t.locate p = .ok l) : u.locate p = .ok l := (h.covers hf).locate hl

/-- When the directory is removed, nothing of it is left. -/
theorem remove (h : WithScratch t s u) (hf : t.Free sp s) : t.Same (u.remove sp) := by
  rw [FileTree.remove, h.locate hf hf.1]
  refine ⟨h.home, fun x => ?_⟩
  have hs : s ≠ [] := hf.canHold.1
  rw [FileTree.find?_erase]
  split
  case isTrue hx => rw [hf.find?_eq_none hx.1]
  case isFalse hx =>
    refine h.outside x fun hp => hx ⟨hp, fun hn => ?_⟩
    rw [hn] at hp
    exact hs (List.prefix_nil.mp hp)

theorem putBelow (h : WithScratch t s u) (hf : t.Free sp s) (es : List (Location × Entry)) :
    WithScratch t s (u.putBelow sp es) := by
  rw [FileTree.putBelow, h.locate hf hf.1]
  dsimp only
  induction es generalizing u with
  | nil => exact h
  | cons e es ih => exact ih (h.put (List.prefix_append s e.1) e.2)

end WithScratch

/-! ## Paths below a scratch directory -/

/-- A path leads below a location, if anywhere. -/
def LeadsBelow (t : FileTree) (s : Location) (p : Path) : Prop :=
  p.text ≠ "" ∧ ∀ u, WithScratch t s u → ∀ l, u.locate p = .ok l → s <+: l

theorem LeadsBelow.join (h : LeadsBelow t s p) {n : String} (hn : Path.IsName n) :
    LeadsBelow t s (p / n) := by
  refine ⟨Path.text_join_ne_empty p hn, fun u hu l hl => ?_⟩
  obtain ⟨b, hb, -, rfl⟩ := FileTree.locate_join h.1 hn hl
  exact (h.2 u hu b hb).trans (List.prefix_append b [n])

theorem FileTree.Free.leadsBelow (h : t.Free sp s) : LeadsBelow t s sp := by
  refine ⟨(FileTree.locate_eq_ok.mp h.1).2.1, fun u hu l hl => ?_⟩
  obtain rfl : s = l := Except.ok.inj ((hu.locate h h.1).symm.trans hl)
  exact List.prefix_rfl

theorem leadsBelow_ofComponents (hs : ∀ n ∈ s, Path.IsName n) :
    LeadsBelow t s (.ofComponents true s) := by
  refine ⟨by simp [Path.ofComponents], fun u _ l hl => ?_⟩
  obtain rfl := FileTree.locate_ofComponents hs hl
  exact List.prefix_rfl

/-- The archive is an entry of the scratch directory. -/
theorem locate_archive (h : WithScratch t s u) (hf : t.Free sp s) {l : Location}
    (hl : u.locate (sp / archiveName) = .ok l) : l = s ++ [archiveName] := by
  obtain ⟨b, hb, -, rfl⟩ := FileTree.locate_join hf.leadsBelow.1 (by decide) hl
  obtain rfl : s = b := Except.ok.inj ((h.locate hf hf.1).symm.trans hb)
  rfl

/-! ## Extracting -/

namespace Archive

open Run

variable {P : FileTree → Prop} {archive : Path}

theorem keeps_part {α : Type} (o : Option α) : Keeps P (part archive o) fun a => o = some a := by
  cases o with
  | none => exact Keeps.throw _
  | some a => exact Keeps.pure rfl

/-- The path of an archive that is read leads somewhere. -/
theorem keeps_bytes : Keeps P (bytes archive)
    fun _ => ∃ (u : FileTree) (l : Location), u.locate archive = .ok l := by
  refine Keeps.files fun u _ => (keeps_part _).bind fun _ hc => Keeps.pure ⟨u, ?_⟩
  cases hl : u.locate archive with
  | ok l => exact ⟨l, rfl⟩
  | error e => simp [FileTree.readBytes, FileTree.entry, hl, Except.toOption] at hc

theorem isName_of_memberStep {b l : Location} {n : String}
    (hn : n = "." ∨ n = ".." ∨ Path.IsName n) (hb : ∀ m ∈ b, Path.IsName m)
    (h : memberStep b n = some l) : ∀ m ∈ l, Path.IsName m := by
  unfold memberStep at h
  by_cases h1 : n = "."
  · rw [if_pos h1] at h
    exact Option.some.inj h ▸ hb
  by_cases h2 : n = ".."
  · rw [if_neg h1, if_pos h2] at h
    split at h
    · simp at h
    · exact Option.some.inj h ▸ fun m hm => hb m (List.dropLast_subset b hm)
  · rw [if_neg h1, if_neg h2] at h
    obtain rfl := Option.some.inj h
    intro m hm
    rcases List.mem_append.mp hm with hm | hm
    · exact hb m hm
    · obtain rfl := List.mem_singleton.mp hm
      exact (hn.resolve_left h1).resolve_left h2

theorem isName_of_memberWalk {ns : List String}
    (hn : ∀ n ∈ ns, n = "." ∨ n = ".." ∨ Path.IsName n) {b l : Location}
    (hb : ∀ m ∈ b, Path.IsName m) (h : ns.foldlM memberStep b = some l) :
    ∀ m ∈ l, Path.IsName m := by
  induction ns generalizing b with
  | nil =>
    obtain rfl : b = l := by simpa using h
    exact hb
  | cons n ns ih =>
    rw [List.foldlM_cons] at h
    obtain ⟨b', hb', h⟩ := Option.bind_eq_some_iff.mp h
    exact ih (fun m hm => hn m (List.mem_cons_of_mem _ hm))
      (isName_of_memberStep (hn n List.mem_cons_self) hb hb') h

/-- The names that lead to a member are names. -/
theorem isName_of_memberLocation? {name : String} {l : Location}
    (h : memberLocation? name = some l) : ∀ n ∈ l, Path.IsName n := by
  unfold memberLocation? at h
  dsimp only at h
  split at h
  · simp at h
  case isFalse hp =>
    have h0 : (Path.mk name).hasNull = false := by simp_all
    exact isName_of_memberWalk (fun _ => Path.isName_or_dots h0) (by simp) h

theorem locate_of_part {l : Location} (h : (u.locate p).toOption = some l) :
    u.locate p = .ok l := by
  cases hl : u.locate p with
  | error e =>
    rw [hl] at h
    exact absurd h (by simp [Except.toOption])
  | ok l' =>
    rw [hl] at h
    exact congrArg Except.ok (Option.some.inj h)

theorem keeps_reach {ns : List String} (hn : ∀ n ∈ ns, Path.IsName n)
    (hp : LeadsBelow t s p) : Keeps (WithScratch t s) (reach archive p ns) (LeadsBelow t s) := by
  induction ns generalizing p with
  | nil => exact Keeps.pure hp
  | cons n ns ih =>
    have hjoin := hp.join (hn n List.mem_cons_self)
    have hrest := ih (fun m hm => hn m (List.mem_cons_of_mem _ hm)) hjoin
    rw [reach]
    refine Keeps.files fun u hu => (keeps_part _).bind fun l hl => ?_
    have hl := hjoin.2 u hu l (locate_of_part hl)
    dsimp only
    split
    · exact (Keeps.setFiles (hu.put hl _)).bind fun _ _ => hrest
    · exact hrest

theorem keeps_makeDirectory (hp : LeadsBelow t s p) :
    Keeps (WithScratch t s) (makeDirectory archive p) fun _ => True := by
  refine Keeps.files fun u hu => (keeps_part _).bind fun l hl => ?_
  have hl := hp.2 u hu l (locate_of_part hl)
  split
  · exact Keeps.pure trivial
  · exact Keeps.throw _
  · exact Keeps.setFiles (hu.put hl _)

theorem keeps_clearFile (hp : LeadsBelow t s p) :
    Keeps (WithScratch t s) (clearFile archive p) fun l => s <+: l := by
  refine Keeps.files fun u hu => (keeps_part _).bind fun l hl => ?_
  have hl := hp.2 u hu l (locate_of_part hl)
  split
  · exact Keeps.throw _
  · exact (Keeps.setFiles (hu.put hl _)).bind fun _ _ => Keeps.pure hl

theorem keeps_extractMember {base : Path} (hb : LeadsBelow t s base) (e : Zip.PackedMember) :
    Keeps (WithScratch t s) (extractMember archive base e) fun _ => True := by
  refine (keeps_part _).bind fun _ _ => (keeps_part _).bind fun ns hns => ?_
  refine (keeps_reach (isName_of_memberLocation? hns) hb).bind fun path hpath => ?_
  split
  · exact keeps_makeDirectory hpath
  · refine (keeps_clearFile hpath).bind fun l hl => keeps_bytes.bind fun _ _ => ?_
    refine (keeps_part _).bind fun contents _ => Keeps.files fun u hu => ?_
    exact (Keeps.setFiles (hu.put hl _)).bind fun _ _ => (keeps_part _).mono fun _ _ => trivial

/-- No directory is made where all are there. -/
theorem createDirectories_of_walk {ns : List String} {b l : Location}
    (h : ns.foldlM u.enter b = .ok l) (hl : u.find? l = some .directory) :
    u.createDirectories b ns = .ok u := by
  induction ns generalizing b with
  | nil => rfl
  | cons n ns ih =>
    rw [List.foldlM_cons] at h
    obtain ⟨b', hb, h⟩ := bind_eq_ok.mp h
    have hd : u.find? b' = some .directory := by
      cases ns with
      | nil =>
        obtain rfl : b' = l := by simpa using h
        exact hl
      | cons m ms =>
        obtain ⟨_, hm, -⟩ := bind_eq_ok.mp h
        exact (FileTree.enter_eq_ok.mp hm).1
    rw [FileTree.createDirectories, hb, ok_bind, hd]
    exact ih h

theorem keeps_destinationPath (hf : t.Free sp s) :
    Keeps (WithScratch t s) (destinationPath archive sp) (LeadsBelow t s) := by
  refine Keeps.files fun u hu => ?_
  have hl := hu.locate hf hf.1
  have hw := (FileTree.locate_eq_ok.mp hl).2.2.2
  dsimp only
  rw [createDirectories_of_walk hw hu.scratch]
  refine (keeps_part _).bind fun v hv => ?_
  obtain rfl : u = v := Option.some.inj hv
  refine (Keeps.setFiles hu).bind fun _ _ => (keeps_part _).bind fun l' hl' => Keeps.pure ?_
  obtain rfl : s = l' := Except.ok.inj (hl.symm.trans (locate_of_part hl'))
  exact leadsBelow_ofComponents hf.canHold.2.2.2

/-- Whatever is in an archive, it is extracted below the directory of destination. -/
theorem keeps_extract (hf : t.Free sp s) : Keeps (WithScratch t s) (extract archive sp)
    fun _ => ∃ (u : FileTree) (l : Location), u.locate archive = .ok l := by
  refine keeps_bytes.bind fun _ harchive => (keeps_part _).bind fun members _ => ?_
  refine (keeps_destinationPath hf).bind fun base hb => ?_
  refine (Keeps.forM (keeps_extractMember hb) members).bind fun _ _ => ?_
  exact (Keeps.log _).mono fun _ _ => harchive

end Archive

/-! ## Downloading -/

section Download

open Run

theorem WithScratch.createArchive (h : WithScratch t s u) (hf : t.Free sp s) {v : FileTree}
    {e : Entry} (hv : u.create (sp / archiveName) e = .ok v) : WithScratch t s v := by
  obtain ⟨l, hl, rfl⟩ := FileTree.create_eq_ok.mp hv
  obtain rfl := locate_archive h hf hl.1
  exact h.put (List.prefix_append s _) e

/-- An archive that was read is not there any more when it was removed. -/
theorem WithScratch.removeArchive (h : WithScratch t s u) (hf : t.Free sp s) {v : FileTree}
    {l : Location} (hl : v.locate (sp / archiveName) = .ok l) :
    WithScratch t s (u.remove (sp / archiveName)) ∧
      (u.remove (sp / archiveName)).find? (s ++ [archiveName]) = none := by
  have hl := FileTree.locate_join_of hf.leadsBelow.1 (by decide) hl (h.locate hf hf.1) h.scratch
  rw [FileTree.remove, hl]
  exact ⟨h.erase (List.prefix_append s _) (by simp), by simp [FileTree.find?_erase]⟩

/-- Whatever a fetcher does, it stays below the scratch directory. -/
theorem keeps_fetch (hf : t.Free sp s) (fetcher : Fetcher) (url : String) :
    Keeps (WithScratch t s) (fetch fetcher url sp) fun _ => True := by
  refine Keeps.bind (Keeps.modify ?_) fun _ _ => Keeps.files fun u hu => ?_
  · exact fun _ => rfl
  refine (Keeps.setFiles (hu.putBelow hf _)).bind fun _ _ => ?_
  split
  · exact Keeps.throw _
  · exact Keeps.pure trivial
  · refine Keeps.files fun u hu => ?_
    split
    · exact Keeps.throw _
    case h_2 v hv => exact Keeps.setFiles (hu.createArchive hf hv)

/-- What is downloaded stays in the scratch directory, and the archive is not left there. -/
theorem leaves_download (hf : t.Free sp s) (p : Provider) (version url : String) (w : World)
    (hw : WithScratch t s w.files) : Leaves ((download p version url sp).outcome w)
      (WithScratch t s) fun path u => path = sp / p.settings.archiveRoot version ∧
        WithScratch t s u ∧ u.find? (s ++ [archiveName]) = none := by
  refine ((keeps_fetch hf p.fetcher url).leaves hw).bind fun _ w₁ h₁ => ?_
  refine ((Archive.keeps_extract hf).leaves h₁.2).bind fun _ w₂ h₂ => ?_
  obtain ⟨⟨v, l, hl⟩, hw₂⟩ := h₂
  exact leaves_ok.mpr ⟨rfl, hw₂.removeArchive hf hl⟩

theorem outcome_removeScratch (sp : Path) (w : World) :
    ∃ w', (removeScratch sp).outcome w = (.ok (), w') ∧ w'.files = w.files.remove sp :=
  ⟨_, rfl, rfl⟩

/-- The files without the scratch directory of a corpus. -/
def released (root : CorpusRoot) (u : FileTree) : FileTree :=
  match root.scratch with
  | some sp => u.remove sp
  | none => u

theorem outcome_releaseRoot (root : CorpusRoot) (w : World) :
    ∃ w', root.release.outcome w = (.ok (), w') ∧ w'.files = released root w.files := by
  unfold CorpusRoot.release released
  cases root.scratch with
  | none => exact ⟨w, rfl, rfl⟩
  | some sp => exact outcome_removeScratch sp w

/-- A corpus is released after a run on it, whether it fails or not. -/
theorem outcome_andThen_release {α : Type} (root : CorpusRoot) (body : Run α) (w : World) :
    (andThen root.release body).outcome w =
      ((body.outcome w).1, (root.release.outcome (body.outcome w).2).2) := by
  obtain ⟨w', hr, -⟩ := outcome_releaseRoot root (body.outcome w).2
  rw [andThen, outcome_bind, outcome_onFailure]
  revert hr
  cases body.outcome w with
  | mk r w₁ =>
    intro hr
    cases r with
    | error e => simp only [outcome_bind_ok hr, outcome_throw, hr]
    | ok a => simp only [outcome_bind_ok hr, outcome_pure, hr]

/-- The scratch directory of a corpus is removed after a run on it, whether it fails or not. -/
theorem outcome_release {α : Type} (root : CorpusRoot) (body : Run α) (w : World) :
    ∃ w', (andThen root.release body).outcome w = ((body.outcome w).1, w') ∧
      w'.files = released root (body.outcome w).2.files := by
  obtain ⟨w', hr, hw⟩ := outcome_releaseRoot root (body.outcome w).2
  exact ⟨w', by rw [outcome_andThen_release, hr], hw⟩

end Download

end SodiumDecl
