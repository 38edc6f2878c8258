import Mathlib.Data.List.Induction
import Mathlib.Data.List.Nodup
import Mathlib.Data.List.Perm.Subperm
import SodiumDecl.Proofs.Paths
import SodiumDecl.Run.Draft

/-!
# Writing a file

A fresh name is not taken (`freshName_not_mem`), so a draft never stands in the place of an
entry, and a tree is what it was when the draft is gone again (`erase_put`).

`writeFile` is the writing of a file as a function of the files. If a file can be written, the
tree is the one before with the file put at the location of the path, and nothing else
(`writeFile_eq_ok`). Whether it can depends on the directories alone, but for the device
(`SameDirectories.writeFile`), and a file that was written is read back
(`readBytes_of_writeFile`).

Each step of `writeAtomically` leaves the world as it was with a draft in it (`World.drafted`),
until the draft is moved or removed. So the whole is `writeFile`, and when it fails, at
whichever step, the world is as it was (`outcome_writeAtomically`).
-/

namespace SodiumDecl

namespace FileTree

variable {t u : FileTree} {p : Path}

/-! ## Fresh names -/

theorem freshName_eq (taken : List String) (stem : String) :
    freshName taken stem ∉ taken ∧
      ∃ n, freshName taken stem = stem ++ String.ofList (List.replicate (6 + n) '0') := by
  unfold freshName
  dsimp only
  split
  case h_1 n h => exact ⟨by simpa using List.find?_some h, n, rfl⟩
  case h_2 h =>
    -- More names than are taken, and no two of them the same.
    exfalso
    let name (n : Nat) : String := stem ++ String.ofList (List.replicate (6 + n) '0')
    have hinj : name.Injective := by
      intro a b hab
      have hl := congrArg (·.toList.length) hab
      simp only [name, String.toList_append, String.toList_ofList, List.length_append,
        List.length_replicate] at hl
      omega
    have hnodup : ((List.range (taken.length + 1)).map name).Nodup :=
      List.nodup_range.map hinj
    have hsub : (List.range (taken.length + 1)).map name ⊆ taken := by
      intro x hx
      obtain ⟨n, hn, rfl⟩ := List.mem_map.mp hx
      simpa using List.find?_eq_none.mp h n hn
    have hle := (List.subperm_of_subset hnodup hsub).length_le
    rw [List.length_map, List.length_range] at hle
    omega

theorem freshName_not_mem (taken : List String) (stem : String) :
    freshName taken stem ∉ taken := (freshName_eq taken stem).1

theorem isName_freshName {stem : String} (taken : List String) (hs : '/' ∉ stem.toList)
    (h0 : Char.ofNat 0 ∉ stem.toList) : Path.IsName (freshName taken stem) := by
  obtain ⟨n, hn⟩ := (freshName_eq taken stem).2
  have hl : (freshName taken stem).toList = stem.toList ++ List.replicate (6 + n) '0' := by
    rw [hn, String.toList_append, String.toList_ofList]
  have hzero : '0' ∈ (freshName taken stem).toList := by simp [hl]
  refine Path.isName_of_mem hzero (by decide) ?_ ?_
  · rw [hl]
    simpa using hs
  · rw [hl]
    simpa using h0

/-! ## Drafts -/

/-- Whatever leads on to an entry is a directory. -/
theorem find?_above {l x : Location} (h : l <+: x) (hne : l ≠ x) (hx : (t.find? x).isSome) :
    t.find? l = some .directory := by
  obtain ⟨s, rfl⟩ := h
  induction s using List.reverseRecOn with
  | nil => simp at hne
  | append_singleton s n ih =>
    have hd : t.find? (l ++ s) = some .directory := by
      have := find?_dropLast hx
      rwa [← List.append_assoc, List.dropLast_concat] at this
    by_cases hs : s = []
    · simpa [hs] using hd
    · exact ih (by simpa using hs) (by simp [hd])

theorem eq_of_entries (he : t.entries = u.entries) (hh : t.home = u.home) : t = u := by
  cases t
  cases u
  simp_all

theorem text_absolute_ne_empty (t : FileTree) (p : Path) : (t.absolute p).text ≠ "" := by
  show (Path.join _ _).text ≠ ""
  unfold Path.join
  split
  case isTrue h =>
    intro hp
    simp_all [Path.isAbsolute]
  case isFalse => split <;> simp [Path.ofComponents]

theorem entries_put {l : Location} (hl : t.CanHold l) (e : Entry) :
    (t.put l e).entries = (l, e) :: t.entries.filter fun x => x.1 ≠ l := by
  rw [put, dif_pos hl]

theorem SameDirectories.canHold (h : SameDirectories t u) {l : Location} :
    u.CanHold l ↔ t.CanHold l := by
  simp only [CanHold, h.2, ne_eq]

/-- A file that is put in the place of another leaves nothing of it. -/
theorem put_put {l : Location} (hl : t.CanHold l) (c c' : ByteArray) :
    (t.put l (.file c)).put l (.file c') = t.put l (.file c') := by
  have hput : (t.put l (.file c)).CanHold l := (SameDirectories.put_file hl c).canHold.mpr hl
  refine eq_of_entries ?_ (by simp)
  rw [entries_put hput, entries_put hl, entries_put hl, List.filter_cons_of_neg (by simp),
    List.filter_filter]
  simp

/-- An entry that was put where none was leaves nothing when it is erased. -/
theorem erase_put {l : Location} (hl : t.CanHold l) (hn : t.find? l = none) (e : Entry) :
    (t.put l e).erase l = t := by
  have hentries : ∀ x ∈ t.entries, ¬ l <+: x.1 := by
    intro x hx hp
    have hs : (t.find? x.1).isSome := by simp [find?_of_mem (t := t) (l := x.1) (e := x.2) hx]
    by_cases hne : l = x.1
    · simp [← hne, hn] at hs
    · simp [find?_above hp hne hs] at hn
  have h2 : ((t.put l e).erase l).entries = t.entries := by
    show (t.put l e).entries.filter _ = _
    rw [entries_put hl, List.filter_cons_of_neg (by simp), List.filter_filter]
    refine List.filter_eq_self.mpr fun x hx => ?_
    have hx := hentries x hx
    have hne : x.1 ≠ l := fun h => hx (h ▸ List.prefix_rfl)
    simp [hx, hne]
  exact eq_of_entries h2 (by simp)

theorem draftPlace_eq_ok {d : Location} (h : t.draftPlace p = .ok d) :
    t.CanHold d ∧ t.find? d = none := by
  obtain ⟨l, hl, hd⟩ := bind_eq_ok.mp h
  obtain rfl : l.dropLast ++ [freshName (t.namesIn l.dropLast) ".tmp"] = d := by simpa using hd
  have hname : Path.IsName draftName := isName_freshName _ (by decide) (by decide)
  obtain ⟨b, -, hb, rfl⟩ := locate_join (t.text_absolute_ne_empty p.directory) hname hl
  rw [List.dropLast_concat]
  have hfresh : Path.IsName (freshName (t.namesIn b) ".tmp") :=
    isName_freshName _ (by decide) (by decide)
  have hnone : t.find? (b ++ [freshName (t.namesIn b) ".tmp"]) = none := by
    simpa [mem_namesIn] using freshName_not_mem (t.namesIn b) ".tmp"
  refine ⟨⟨by simp, by simpa using hb, by simp [hnone], fun n hn => ?_⟩, hnone⟩
  have hs : (t.find? b).isSome := by simp [hb]
  rcases List.mem_append.mp hn with hn | hn
  · exact isName_of_find? hs n hn
  · rwa [List.mem_singleton.mp hn]

/-- Whether there is room for a draft depends on the directories alone. -/
theorem SameDirectories.draftPlace (h : SameDirectories t u) :
    (∃ d, u.draftPlace p = .ok d) ↔ ∃ d, t.draftPlace p = .ok d := by
  have hroom (v : FileTree) : (∃ d, v.draftPlace p = .ok d) ↔
      ∃ l, v.locate (v.absolute p.directory / draftName) = .ok l := by
    cases hv : v.locate (v.absolute p.directory / draftName) with
    | error e => simp [FileTree.draftPlace, hv]
    | ok l => simp [FileTree.draftPlace, hv]
  have habs : u.absolute p.directory = t.absolute p.directory := by
    rw [absolute, absolute, h.1]
  rw [hroom, hroom, habs]
  exact exists_congr fun l => h.locate

/-! ## Moving and writing -/

theorem moveTo_eq_ok {s : Location} : t.moveTo s p = .ok u ↔
    ∃ l e, t.locate p = .ok l ∧ p.endsInSlash = false ∧ t.find? l ≠ some .directory ∧
      t.find? s = some e ∧ u = (t.erase s).put l e := by
  unfold moveTo
  by_cases h0 : p.hasNull = true
  · simp [h0, locate_eq_ok]
  by_cases h1 : p.endsInSlash = true
  · simp [h0, h1, bind_eq_ok]
  cases hl : t.locate p with
  | error f => simp [h0]
  | ok l =>
    cases t.find? s <;> rcases hn : t.find? l with _ | _ | _ <;>
      simp [h0, h1, hn, eq_comm (b := u)]

/-- The files after a file is written as a whole, on a device that fails as it is said. -/
def writeFile (t : FileTree) (fault : Option DeviceFault) (p : Path) (c : ByteArray) :
    Except FileError FileTree := do
  let draft ← t.draftPlace p
  match fault with
  | some f => throw (.device f.reason)
  | none => (t.put draft (.file c)).moveTo draft p

/-- A file that is written is put at the location of its path, and nothing else changes. -/
theorem writeFile_eq_ok {fault : Option DeviceFault} {c : ByteArray} :
    t.writeFile fault p c = .ok u ↔ fault = none ∧
      ∃ l, t.locate p = .ok l ∧ p.endsInSlash = false ∧ t.CanHold l ∧
        (∃ d, t.draftPlace p = .ok d) ∧ u = t.put l (.file c) := by
  obtain _ | f := fault
  case some => simp [writeFile, bind_eq_ok]
  rw [writeFile]
  constructor
  · intro h
    obtain ⟨d, hd, h⟩ := bind_eq_ok.mp h
    obtain ⟨hput, hnone⟩ := draftPlace_eq_ok hd
    obtain ⟨l, e, hl, hslash, hdir, he, rfl⟩ := moveTo_eq_ok.mp h
    have hsame := SameDirectories.put_file hput c
    have hl := hsame.locate.mp hl
    have hdir : t.find? l ≠ some .directory := fun h => hdir ((hsame.2 l).mpr h)
    obtain rfl : e = .file c := by simpa [find?_put hput, eq_comm] using he
    refine ⟨rfl, l, hl, hslash, (locate_place hl).resolve_left hdir, ⟨d, hd⟩, ?_⟩
    rw [erase_put hput hnone]
  · rintro ⟨-, l, hl, hslash, hcan, ⟨d, hd⟩, rfl⟩
    obtain ⟨hput, hnone⟩ := draftPlace_eq_ok hd
    have hsame := SameDirectories.put_file hput c
    rw [hd, ok_bind]
    refine moveTo_eq_ok.mpr ⟨l, .file c, hsame.locate.mpr hl, hslash, ?_, ?_, ?_⟩
    · exact fun h => hcan.2.2.1 ((hsame.2 l).mp h)
    · simp [find?_put hput]
    · rw [erase_put hput hnone]

/-- Whether a file can be written depends on the directories alone, but for the device. -/
theorem SameDirectories.writeFile (h : SameDirectories t u) (fault : Option DeviceFault)
    (c c' : ByteArray) :
    (∃ v, u.writeFile fault p c = .ok v) ↔ ∃ v, t.writeFile fault p c' = .ok v := by
  suffices ∀ {t u : FileTree}, SameDirectories t u → ∀ c c',
      (∃ v, t.writeFile fault p c = .ok v) → ∃ v, u.writeFile fault p c' = .ok v from
    ⟨this h.symm c c', this h c' c⟩
  rintro t u h c c' ⟨v, hv⟩
  obtain ⟨hfault, l, hl, hslash, hcan, hd, -⟩ := writeFile_eq_ok.mp hv
  exact ⟨_, writeFile_eq_ok.mpr ⟨hfault, l, h.locate.mpr hl, hslash, h.canHold.mpr hcan,
    h.draftPlace.mpr hd, rfl⟩⟩

/-- A file that was written is there. -/
theorem readBytes_of_writeFile {fault : Option DeviceFault} {c : ByteArray}
    (h : t.writeFile fault p c = .ok u) : u.readBytes p = .ok c := by
  obtain ⟨-, l, hl, hslash, hcan, -, rfl⟩ := writeFile_eq_ok.mp h
  have hl := (SameDirectories.put_file hcan c).locate.mpr hl
  simp [readBytes, entry, hl, find?_put hcan, hslash]

end FileTree

/-! ## The steps -/

variable {w : World} {d : Location}

/-- A world with a draft in it. -/
def World.drafted (w : World) (d : Location) (c : ByteArray) : World :=
  { w with files := w.files.put d (.file c) }

theorem outcome_makeDraft (path : Path) (w : World) :
    (makeDraft path).outcome w =
      match w.files.draftPlace path with
      | .ok d => (.ok d, w.drafted d .empty)
      | .error e => (.error (.output path e), w) := by
  rw [makeDraft, Run.outcome_bind_ok (Run.outcome_files w)]
  cases w.files.draftPlace path with
  | ok d => rfl
  | error e => rfl

theorem outcome_fillDraft (hd : w.files.CanHold d) (path : Path) (old c : ByteArray) :
    (fillDraft path d c).outcome (w.drafted d old) =
      match w.device path c with
      | some f => (.error (.output path (.device f.reason)), w.drafted d (c.extract 0 f.taken))
      | none => (.ok (), w.drafted d c) := by
  have hput (c' : ByteArray) : (w.drafted d old).files.put d (.file c') =
      w.files.put d (.file c') := FileTree.put_put hd old c'
  have hdevice : (w.drafted d old).device = w.device := rfl
  rw [fillDraft, Run.outcome_bind_ok (Run.outcome_get _), hdevice]
  cases w.device path c with
  | some f =>
    simp only [hput, Run.outcome_bind, Run.outcome_setFiles, Run.outcome_throw]
    rfl
  | none =>
    simp only [hput, Run.outcome_setFiles]
    rfl

theorem outcome_persistDraft (path : Path) (d : Location) (w : World) :
    (persistDraft path d).outcome w =
      match w.files.moveTo d path with
      | .ok t => (.ok (), { w with files := t })
      | .error e => (.error (.output path e), w) := by
  rw [persistDraft, Run.outcome_bind_ok (Run.outcome_files w)]
  cases w.files.moveTo d path with
  | ok t => rfl
  | error e => rfl

/-- Nothing is left of a draft that is removed. -/
theorem outcome_removeDraft (hd : w.files.CanHold d) (hn : w.files.find? d = none)
    (c : ByteArray) : (removeDraft d).outcome (w.drafted d c) = (.ok (), w) := by
  rw [removeDraft, Run.outcome_bind_ok (Run.outcome_files _), Run.outcome_setFiles]
  show (_, { w with files := (w.files.put d (.file c)).erase d }) = _
  rw [FileTree.erase_put hd hn]

/-- A file is written as a whole, or the world is as it was. -/
theorem outcome_writeAtomically (path : Path) (c : ByteArray) (w : World) :
    (writeAtomically path c).outcome w =
      match w.files.writeFile (w.device path c) path c with
      | .ok t => (.ok (), { w with files := t })
      | .error e => (.error (.output path e), w) := by
  rw [writeAtomically, Run.outcome_bind, outcome_makeDraft, FileTree.writeFile]
  cases hd : w.files.draftPlace path with
  | error e => rfl
  | ok d =>
    obtain ⟨hput, hnone⟩ := FileTree.draftPlace_eq_ok hd
    -- Whatever the draft holds when a step fails, it is removed.
    have hremove (c' : ByteArray) (e : Error) :
        (removeDraft d >>= fun _ => throw e : Run Unit).outcome (w.drafted d c') =
          (.error e, w) :=
      Run.outcome_bind_ok (outcome_removeDraft hput hnone c')
    dsimp only
    rw [Run.outcome_onFailure, Run.outcome_bind, outcome_fillDraft hput, ok_bind]
    cases w.device path c with
    | some f => exact hremove _ _
    | none =>
      have hfiles : (w.drafted d c).files = w.files.put d (.file c) := rfl
      dsimp only
      rw [outcome_persistDraft, hfiles]
      cases (w.files.put d (.file c)).moveTo d path with
      | ok t => rfl
      | error e => exact hremove c _

end SodiumDecl
