import SodiumDecl.Proofs.Contents
import SodiumDecl.Proofs.Resolving

/-!
# All or nothing

A run that fails leaves every entry as it was, and one that succeeds changes the file that its
report names and nothing else (`generate_all_or_nothing`). The scratch directory of a download
was not there before, and at the end of the run it is gone.

The draft of the output is made, written and moved in steps, and each of them may fail, the
writing at any byte. No trace of that is left either (`outcome_writeAtomically`).
-/

namespace SodiumDecl

variable {t u : FileTree} {root : CorpusRoot}

/-! ## Resolving -/

/-- A location is in the scratch directory of a corpus. -/
def InScratch (t : FileTree) (root : CorpusRoot) (x : Location) : Prop :=
  ∃ sp s, root.scratch = some sp ∧ t.locate sp = .ok s ∧ s <+: x

/-- The files after a corpus was found are those before, but for its scratch directory. -/
def Found (t : FileTree) (root : CorpusRoot) (u : FileTree) : Prop :=
  match root.scratch with
  | none => u = t
  | some sp => ∃ s, t.Free sp s ∧ WithScratch t s u

theorem Found.eq_of_local (h : Found t root u) (hs : root.scratch = none) : u = t := by
  simpa [Found, hs] using h

theorem Found.downloaded {sp : Path} (h : Found t root u) (hs : root.scratch = some sp) :
    ∃ s, t.Free sp s ∧ WithScratch t s u := by
  simpa [Found, hs] using h

/-- A corpus is found, or nothing is left of the attempt. -/
theorem outcome_resolve (p : Provider) (base : Option Path) (version : Option String)
    (w : World) :
    Run.Leaves ((resolve p base version).outcome w) w.files.Same (Found w.files) := by
  refine (leaves_resolve p base version w).mono (fun _ h => h) fun root u h => ?_
  cases base with
  | some path =>
    obtain ⟨hr, rfl⟩ := h
    simp [Found, scratch_of_acceptAt hr]
  | none =>
    obtain ⟨s, h⟩ := h
    simpa [Found, h.scratch] using ⟨s, h.free, h.within⟩

/-! ## Releasing -/

theorem Found.inScratch {sp : Path} {s : Location} (hs : root.scratch = some sp)
    (hf : t.Free sp s) {x : Location} : InScratch t root x ↔ s <+: x := by
  constructor
  · rintro ⟨sp', s', hs', hl, hx⟩
    obtain rfl := Option.some.inj (hs.symm.trans hs')
    obtain rfl := Except.ok.inj (hf.1.symm.trans hl)
    exact hx
  · exact fun hx => ⟨sp, s, hs, hf.1, hx⟩

theorem not_inScratch (hs : root.scratch = none) (x : Location) : ¬ InScratch t root x := by
  rintro ⟨sp, s, h, -⟩
  simp [hs] at h

/-- The files are as they were when a corpus that was found is released. -/
theorem Found.released (h : Found t root u) : t.Same (released root u) := by
  cases hs : root.scratch with
  | none =>
    obtain rfl := h.eq_of_local hs
    simpa [SodiumDecl.released, hs] using FileTree.Same.refl u
  | some sp =>
    obtain ⟨s, hf, hu⟩ := h.downloaded hs
    simpa [SodiumDecl.released, hs] using hu.remove hf

/-- A file that is put before a corpus is released stays, unless it goes with the scratch
directory. -/
theorem Found.released_put (h : Found t root u) {l : Location} (hl : u.CanHold l)
    (c : ByteArray) :
    (SodiumDecl.released root (u.put l (.file c))).home = t.home ∧
      (∀ x, ¬ InScratch t root x → (SodiumDecl.released root (u.put l (.file c))).find? x =
        if x = l then some (.file c) else t.find? x) ∧
      ∀ x, InScratch t root x → t.find? x = none ∧
        (SodiumDecl.released root (u.put l (.file c))).find? x = none := by
  cases hs : root.scratch with
  | none =>
    obtain rfl := h.eq_of_local hs
    have hr : SodiumDecl.released root (u.put l (.file c)) = u.put l (.file c) := by
      simp [SodiumDecl.released, hs]
    rw [hr]
    exact ⟨FileTree.put_home _ _ _, fun x _ => FileTree.find?_put hl _ x,
      fun x hx => absurd hx (not_inScratch hs x)⟩
  | some sp =>
    obtain ⟨s, hf, hu⟩ := h.downloaded hs
    have hloc := (FileTree.SameDirectories.put_file hl c).locate.mpr (hu.locate hf hf.1)
    have hr : SodiumDecl.released root (u.put l (.file c)) = (u.put l (.file c)).erase s := by
      simp [SodiumDecl.released, hs, FileTree.remove, hloc]
    have hne : ∀ x, s <+: x → x ≠ [] := by
      rintro x hx rfl
      exact hf.canHold.1 (List.prefix_nil.mp hx)
    rw [hr]
    refine ⟨?_, fun x hx => ?_, fun x hx => ?_⟩
    · rw [FileTree.erase_home, FileTree.put_home, hu.home]
    · rw [Found.inScratch hs hf] at hx
      simp [FileTree.find?_erase, hx, FileTree.find?_put hl, hu.outside x hx]
    · rw [Found.inScratch hs hf] at hx
      simp [FileTree.find?_erase, hx, hne x hx, hf.find?_eq_none hx]

/-! ## The output -/

theorem Found.directory (h : Found t root u) {x : Location} (hx : t.find? x = some .directory) :
    ¬ InScratch t root x ∧ u.find? x = some .directory := by
  cases hs : root.scratch with
  | none =>
    obtain rfl := h.eq_of_local hs
    exact ⟨not_inScratch hs x, hx⟩
  | some sp =>
    obtain ⟨s, hf, hu⟩ := h.downloaded hs
    refine ⟨fun hin => ?_, hu.directory hf hx⟩
    have hnone := hf.find?_eq_none ((Found.inScratch hs hf).mp hin)
    simp [hnone] at hx

theorem Found.find?_eq (h : Found t root u) {x : Location} (hx : ¬ InScratch t root x) :
    u.find? x = t.find? x := by
  cases hs : root.scratch with
  | none => rw [h.eq_of_local hs]
  | some sp =>
    obtain ⟨s, hf, hu⟩ := h.downloaded hs
    exact hu.outside x fun hp => hx ((Found.inScratch hs hf).mpr hp)

theorem Found.home (h : Found t root u) : u.home = t.home := by
  cases hs : root.scratch with
  | none => rw [h.eq_of_local hs]
  | some sp =>
    obtain ⟨s, -, hu⟩ := h.downloaded hs
    exact hu.home

/-- A name outside the scratch directory is the scratch directory itself, or still outside. -/
theorem Found.inScratch_append (h : Found t root u) {y : Location} {n : String}
    (hy : ¬ InScratch t root y) (hd : u.find? (y ++ [n]) ≠ some .directory) :
    ¬ InScratch t root (y ++ [n]) := by
  intro hin
  cases hs : root.scratch with
  | none => exact not_inScratch hs _ hin
  | some sp =>
    obtain ⟨s, hf, hu⟩ := h.downloaded hs
    rw [Found.inScratch hs hf] at hy hin
    rcases List.prefix_concat_iff.mp hin with he | hp
    · exact hd (he ▸ hu.scratch)
    · exact hy hp

/-- An output that leads outside the scratch directory is where it was before the corpus was
found, and it leads there still when the corpus is released. -/
theorem Found.output (h : Found t root u) {o : Options} {l y : Location}
    (hl : u.locate (outputPath u o.output o.profile) = .ok l) (hc : u.CanHold l)
    (hy : t.locate o.output = .ok y) (hout : ¬ InScratch t root y) (c : ByteArray) :
    outputPath u o.output o.profile = outputPath t o.output o.profile ∧
      ¬ InScratch t root l ∧
      (SodiumDecl.released root (u.put l (.file c))).locate
        (outputPath u o.output o.profile) = .ok l := by
  have huy : u.locate o.output = .ok y :=
    FileTree.locate_mono h.home (fun x hx => (h.directory hx).2) hy
  obtain ⟨hhome, hfind, -⟩ := h.released_put hc c
  have hvy : (SodiumDecl.released root (u.put l (.file c))).locate o.output = .ok y := by
    refine FileTree.locate_mono hhome (fun x hx => ?_) hy
    obtain ⟨hin, hux⟩ := h.directory hx
    have hne : x ≠ l := fun he => hc.2.2.1 (he ▸ hux)
    rw [hfind x hin, if_neg hne, hx]
  have hdir : u.isDirectory o.output = t.isDirectory o.output := by
    rw [Bool.eq_iff_iff, FileTree.isDirectory_of_locate huy,
      FileTree.isDirectory_of_locate hy, h.find?_eq hout]
  have htext : o.output.text ≠ "" := (FileTree.locate_eq_ok.mp hy).2.1
  refine ⟨by rw [outputPath, outputPath, hdir], ?_⟩
  rw [outputPath] at hl ⊢
  split at hl
  case isTrue hd =>
    have huyd := (FileTree.isDirectory_of_locate huy).mp hd
    have hne : y ≠ l := fun he => hc.2.2.1 (he ▸ huyd)
    obtain ⟨b, hb, -, rfl⟩ := FileTree.locate_join htext (Path.isName_fileName _) hl
    obtain rfl := Except.ok.inj (huy.symm.trans hb)
    refine ⟨h.inScratch_append hout hc.2.2.1, ?_⟩
    rw [if_pos hd]
    refine FileTree.locate_join_of htext (Path.isName_fileName _) hl hvy ?_
    rw [hfind y hout, if_neg hne, ← h.find?_eq hout, huyd]
  case isFalse hd =>
    obtain rfl := Except.ok.inj (huy.symm.trans hl)
    rw [if_neg hd]
    exact ⟨hout, hvy⟩

/-! ## The run -/

/-- What a run that succeeds writes: the document of the corpus that was found, at the location
of the output. The scratch directory was not there before and is not there after it. -/
structure Writes (p : Provider) (c : Catalog) (o : Options) (w : World) (r : Report)
    (v : FileTree) (root : CorpusRoot) (found : World) (corpus : Corpus) (l : Location) :
    Prop where
  resolved : (resolve p o.base o.version).outcome w = (.ok root, found)
  loaded : Corpus.load found.files c root.path = .ok corpus
  report : r = (c.assemble corpus o.profile root.version).report
    (outputPath found.files o.output o.profile) o.profile
  located : found.files.locate r.output = .ok l
  home : v.home = w.files.home
  outside : ∀ x, ¬ InScratch w.files root x → v.find? x =
    if x = l then some (.file (c.assemble corpus o.profile root.version).render.toUTF8)
    else w.files.find? x
  inside : ∀ x, InScratch w.files root x → w.files.find? x = none ∧ v.find? x = none
  output : ∀ y, w.files.locate o.output = .ok y → ¬ InScratch w.files root y →
    r.output = outputPath w.files o.output o.profile ∧
      v.readBytes r.output = .ok (c.assemble corpus o.profile root.version).render.toUTF8

/-- What is declared from a corpus that was found is all that is left when it is released. -/
theorem writes_of_declare {p : Provider} {c : Catalog} {o : Options} {w found : World} {r : Report}
    (ho : (resolve p o.base o.version).outcome w = (.ok root, found))
    (hfound : Found w.files root found.files)
    (hd : declare found.files found.device c root o = .ok (r, u)) :
    ∃ corpus l, Writes p c o w r (released root u) root found corpus l := by
  obtain ⟨corpus, hload, hreport, hwrite⟩ := declare_eq_ok.mp hd
  dsimp only at hwrite
  generalize htext : (c.assemble corpus o.profile root.version).render.toUTF8 = text at hwrite
  obtain ⟨-, l, hl, hslash, hcan, -, rfl⟩ := FileTree.writeFile_eq_ok.mp hwrite
  obtain ⟨hhome, hfind, hscratch⟩ := hfound.released_put hcan text
  have hr : r.output = outputPath found.files o.output o.profile := by rw [hreport]; rfl
  refine ⟨corpus, l, ho, hload, hreport, hl, hhome, htext ▸ hfind, hscratch, fun y hy hout => ?_⟩
  rw [hr] at hl hslash ⊢
  obtain ⟨hsame, hlout, hlv⟩ := hfound.output hl hcan hy hout text
  refine ⟨hsame, ?_⟩
  rw [FileTree.readBytes, FileTree.entry, hlv, ok_bind, hfind l hlout, htext]
  simp [hslash]

/-- On whatever device, a run that fails leaves every entry as it was, and a run that succeeds
changes the file that its report names and nothing else. -/
theorem generate_all_or_nothing (p : Provider) (c : Catalog) (o : Options) (w : World) :
    (∀ e w', (generate p c o).outcome w = (.error e, w') → w.files.Same w'.files) ∧
      ∀ r w', (generate p c o).outcome w = (.ok r, w') →
        ∃ root found corpus l, Writes p c o w r w'.files root found corpus l := by
  have hresolve := outcome_resolve p o.base o.version w
  rw [generate, Run.outcome_bind]
  cases ho : (resolve p o.base o.version).outcome w with
  | mk x found =>
    rw [ho] at hresolve
    cases x with
    | error e =>
      have hsame := Run.leaves_error.mp hresolve
      refine ⟨fun e' w' h => ?_, fun r w' h => by simp at h⟩
      obtain ⟨-, rfl⟩ := Prod.mk.inj h
      exact hsame
    | ok root =>
      have hfound := Run.leaves_ok.mp hresolve
      have hfollows := outcome_generateFrom c root o found
      obtain ⟨w₁, hrelease, h₁⟩ := outcome_release root (generateFrom c root o) found
      simp only [hrelease]
      cases hr : ((generateFrom c root o).outcome found).1 with
      | error e =>
        refine ⟨fun e' w' h => ?_, fun r w' h => by simp at h⟩
        obtain ⟨-, rfl⟩ := Prod.mk.inj h
        rw [h₁, (hfollows.of_error hr).2]
        exact hfound.released
      | ok r' =>
        refine ⟨fun e' w' h => by simp at h, fun r w' h => ?_⟩
        obtain ⟨hx, rfl⟩ := Prod.mk.inj h
        obtain rfl : r' = r := Except.ok.inj hx
        obtain ⟨corpus, l, h⟩ := writes_of_declare ho hfound (hfollows.of_ok hr)
        exact ⟨root, found, corpus, l, h₁ ▸ h⟩

/-- On a device that takes ten bytes, the directory for the output stays empty. -/
example :
    let after := (generate sampleProvider sampleCatalog sampleOptions).outcome
      { files := sampleTree, device := fun _ _ => some ⟨10, "No space left on device"⟩ }
    after.1 =
        .error (.output ⟨"/out/libsodium-wrappers.d.ts"⟩ (.device "No space left on device")) ∧
      after.2.files.namesIn ["out"] = [] := by
  decide +kernel

end SodiumDecl
