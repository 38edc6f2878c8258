import SodiumDecl.Proofs.Reading

/-!
# Sessions

A session is a sequence of runs on corpora that are there already, each on the files that the one
before it leaves. As long as no run writes where the corpus of another is read from (`Job.Spares`),
the runs do not disturb one another (`session_undisturbed`): each gives what it gives alone, and at
the end each output holds the text of the last run that wrote it.

The invariant is `Undisturbed`: the trees in between are the same as the first one wherever a run
looks. One run keeps it (`Undisturbed.step`), so a whole session does (`undisturbed_runAll`).
-/

namespace SodiumDecl

variable {t u v : FileTree} {device : Device} {base : Path} {l : Location}

/-! ## Jobs -/

/-- A run on a corpus that is there already. -/
structure Job where
  provider : Provider
  catalog : Catalog
  base : Path
  output : Path
  profile : Profile := .standard
  version : Option String := none

namespace Job

variable {j : Job}

/-- What is to be generated. -/
def options (j : Job) : Options where
  output := j.output
  base := some j.base
  version := j.version
  profile := j.profile

/-- The run of a job. -/
def run (j : Job) : Run Report := generate j.provider j.catalog j.options

/-- The run of a job as a function of the files. -/
def apply (j : Job) (device : Device) (t : FileTree) : Except Error (Report × FileTree) :=
  declareAt t device j.provider.settings j.catalog j.base j.options

/-- The file that a job is to write. -/
def target (j : Job) (t : FileTree) : Path := outputPath t j.output j.profile

theorem follows (j : Job) (w : World) :
    Follows (j.run.outcome w) w (j.apply w.device w.files) :=
  outcome_generate_local j.provider j.catalog j.options j.base rfl w

/-- The file that a job is to write is none of those that the corpus of another is read from: not
its package, not its constants, and no entry of its directory of symbols. -/
def Spares (t : FileTree) (j k : Job) : Prop :=
  ∀ x, t.locate (j.target t) = .ok x →
    t.locate (packageFile k.base) ≠ .ok x ∧ t.locate (constantsFile k.base) ≠ .ok x ∧
      ∀ s n, t.locate (symbolsDirectory k.base) = .ok s → x ≠ s ++ [n]

theorem spares_of_locate {k : Job} {x : Location} (hx : t.locate (j.target t) = .ok x)
    (hp : t.locate (packageFile k.base) ≠ .ok x) (hc : t.locate (constantsFile k.base) ≠ .ok x)
    (hs : t.locate (symbolsDirectory k.base) ≠ .ok x.dropLast) : j.Spares t k := by
  intro y hy
  obtain rfl := Except.ok.inj (hx.symm.trans hy)
  refine ⟨hp, hc, fun s n hl he => hs ?_⟩
  rw [he, List.dropLast_concat, hl]

/-! ## One job in two trees -/

theorem target_eq (h : FileTree.SameDirectories t u) (j : Job) : j.target u = j.target t := by
  rw [target, target, outputPath, outputPath, h.isDirectory]

/-- A job that succeeds puts a file at the location of its target, and so it does in every tree
that is the same wherever it looks. -/
theorem apply_eq_ok {r : Report} (h : j.apply device t = .ok (r, v)) :
    ∃ l text, r.output = j.target t ∧ t.locate r.output = .ok l ∧ t.CanHold l ∧
      v = t.put l (.file text) ∧ v.readBytes r.output = .ok text ∧
      ∀ u, SameCorpus j.base t u →
        u.CanHold l ∧ j.apply device u = .ok (r, u.put l (.file text)) := by
  obtain ⟨root, hroot, hdeclare⟩ := declareAt_eq_ok.mp h
  obtain ⟨corpus, hcorpus, hreport, hwrite⟩ := declare_eq_ok.mp hdeclare
  have hpath : root.path = j.base := by rw [(acceptAt_eq_ok.mp hroot).2.2]
  have htarget : r.output = j.target t := by rw [hreport]; rfl
  obtain ⟨hdevice, l, hl, hslash, hcan, hdraft, hv⟩ := FileTree.writeFile_eq_ok.mp hwrite
  refine ⟨l, _, htarget, hl, hcan, hv, FileTree.readBytes_of_writeFile hwrite, fun u hu => ?_⟩
  have hlu := hu.directories.locate.mpr hl
  have hcanu := hu.directories.canHold.mpr hcan
  refine ⟨hcanu, declareAt_eq_ok.mpr ⟨root, ((hu.acceptAt _ _).ok_iff root).mp hroot, ?_⟩⟩
  rw [hpath] at hcorpus
  refine declare_eq_ok.mpr ⟨corpus, ?_, ?_, ?_⟩
  · rw [hpath]
    exact ((hu.load _).ok_iff corpus).mp hcorpus
  · have hsame : outputPath u j.options.output j.options.profile =
        outputPath t j.options.output j.options.profile := target_eq hu.directories j
    rw [hsame]
    exact hreport
  · exact FileTree.writeFile_eq_ok.mpr
      ⟨hdevice, l, hlu, hslash, hcanu, hu.directories.draftPlace.mpr hdraft, rfl⟩

/-- A job gives the same report in both trees, or fails in both with the same kind of error. -/
theorem sameKind_apply (device : Device) (h : SameCorpus j.base t u) :
    SameKind ((j.apply device t).map Prod.fst) ((j.apply device u).map Prod.fst) := by
  rcases (h.acceptAt j.provider.settings none).elim with ⟨root, ht, hu⟩ | ⟨e, e', ht, hu, he⟩
  case inr =>
    rw [apply, apply, declareAt, declareAt, ht, hu]
    exact .error he
  rw [apply, apply, declareAt, declareAt, ht, hu, ok_bind, ok_bind, declare, declare]
  have hpath : root.path = j.base := by rw [(acceptAt_eq_ok.mp ht).2.2]
  rw [hpath]
  rcases (h.load j.catalog).elim with ⟨corpus, ht, hu⟩ | ⟨e, e', ht, hu, he⟩
  case inr =>
    rw [ht, hu]
    exact .error he
  have htarget : outputPath u j.options.output j.options.profile =
      outputPath t j.options.output j.options.profile := target_eq h.directories j
  rw [ht, hu, ok_bind, ok_bind, htarget]
  generalize (j.catalog.assemble corpus j.options.profile root.version) = d
  generalize outputPath t j.options.output j.options.profile = path
  dsimp only
  generalize d.render.toUTF8 = text
  have hwrite := h.directories.writeFile (p := path) (device path text) text text
  cases ht : t.writeFile (device path text) path text with
  | ok t' =>
    obtain ⟨u', hu⟩ := hwrite.mpr ⟨t', ht⟩
    rw [hu]
    exact .ok _
  | error e =>
    cases hu : u.writeFile (device path text) path text with
    | ok u' =>
      obtain ⟨t', ht'⟩ := hwrite.mp ⟨u', hu⟩
      exact absurd (ht.symm.trans ht') (by simp)
    | error e' => exact .error rfl

end Job

/-! ## One step of a session -/

theorem namesIn_put (hl : t.CanHold l) {d : Location} (hd : ∀ n, l ≠ d ++ [n]) (e : Entry) :
    (t.put l e).namesIn d = t.namesIn d := by
  have hnone : FileTree.nameIn? d l = none := by
    cases h : FileTree.nameIn? d l with
    | none => rfl
    | some n => exact absurd (FileTree.nameIn?_eq_some.mp h) (hd n)
  rw [FileTree.namesIn, FileTree.namesIn, FileTree.entries_put hl, List.filterMap_cons]
  simp only [hnone, List.filterMap_filter]
  refine List.filterMap_congr fun x _ => ?_
  by_cases hx : x.1 = l
  · simp [hx, hnone]
  · simp [hx]

/-- A file that is put elsewhere changes nothing that a run on a corpus looks at. -/
theorem SameCorpus.put (h : SameCorpus base t u) (hl : u.CanHold l) {c : ByteArray}
    (hpackage : t.locate (packageFile base) ≠ .ok l)
    (hconstants : t.locate (constantsFile base) ≠ .ok l)
    (hsymbols : ∀ s n, t.locate (symbolsDirectory base) = .ok s → l ≠ s ++ [n]) :
    SameCorpus base t (u.put l (.file c)) where
  directories := h.directories.trans (.put_file hl c)
  package x hx := by
    have hne : x ≠ l := fun he => hpackage (he ▸ hx)
    rw [FileTree.find?_put hl, if_neg hne, h.package x hx]
  constants x hx := by
    have hne : x ≠ l := fun he => hconstants (he ▸ hx)
    rw [FileTree.find?_put hl, if_neg hne, h.constants x hx]
  names s hs := by rw [namesIn_put hl fun n => hsymbols s n hs, h.names s hs]
  symbols s n hs := by
    rw [FileTree.find?_put hl, if_neg fun he => hsymbols s n hs he.symm, h.symbols s n hs]

/-- A tree is the same as another wherever some jobs look. -/
structure Undisturbed (js : List Job) (t u : FileTree) : Prop where
  directories : FileTree.SameDirectories t u
  corpus : ∀ j ∈ js, SameCorpus j.base t u

theorem Undisturbed.refl (js : List Job) (t : FileTree) : Undisturbed js t t where
  directories := .refl t
  corpus _ _ := ⟨.refl t, fun _ _ => rfl, fun _ _ => rfl, fun _ _ => rfl, fun _ _ _ => rfl⟩

/-- The files after a job. -/
def Job.next (j : Job) (device : Device) (t : FileTree) : FileTree :=
  filesAfter t (j.apply device t)

/-- What a job puts in a tree, if it succeeds there. -/
def Job.Puts (device : Device) (t : FileTree) (j : Job) (l : Location) (text : ByteArray) :
    Prop :=
  ∃ r, j.apply device t = .ok (r, t.put l (.file text)) ∧ t.locate r.output = .ok l ∧ t.CanHold l

/-- A job puts in a later tree what it puts in the first one. -/
theorem Undisturbed.puts {js : List Job} (h : Undisturbed js t u) {j : Job} (hj : j ∈ js) :
    (∃ l text, j.Puts device t l text ∧ u.CanHold l ∧ j.next device u = u.put l (.file text) ∧
      j.Puts device u l text) ∨
    (∀ l text, ¬ j.Puts device t l text ∧ ¬ j.Puts device u l text) ∧ j.next device u = u := by
  cases ht : j.apply device t with
  | ok x =>
    obtain ⟨r, v⟩ := x
    obtain ⟨l, text, -, hl, hcan, rfl, -, hu⟩ := Job.apply_eq_ok ht
    obtain ⟨hcanu, hju⟩ := hu u (h.corpus j hj)
    refine Or.inl ⟨l, text, ⟨r, ht, hl, hcan⟩, hcanu, ?_, r, hju, ?_, hcanu⟩
    · rw [Job.next, hju]
      rfl
    · exact h.directories.locate.mpr hl
  | error e =>
    have hkind := Job.sameKind_apply device (h.corpus j hj)
    rw [ht] at hkind
    cases hu : j.apply device u with
    | ok x =>
      rw [hu] at hkind
      cases hkind
    | error e' =>
      refine Or.inr ⟨fun l text => ⟨?_, ?_⟩, ?_⟩
      · rintro ⟨r, hr, -⟩
        simp [ht] at hr
      · rintro ⟨r, hr, -⟩
        simp [hu] at hr
      · rw [Job.next, hu]
        rfl

theorem Job.Puts.unique {j : Job} {l l' : Location} {text text' : ByteArray}
    (h : j.Puts device t l text) (h' : j.Puts device t l' text') : l = l' ∧ text = text' := by
  obtain ⟨r, hr, hl, hcan⟩ := h
  obtain ⟨r', hr', hl', hcan'⟩ := h'
  obtain ⟨rfl, hput⟩ := Prod.mk.inj (Except.ok.inj (hr.symm.trans hr'))
  obtain rfl := Except.ok.inj (hl.symm.trans hl')
  have hfind := congrArg (fun u => u.find? l) hput
  simp only [FileTree.find?_put hcan, if_true, Option.some.injEq, Entry.file.injEq] at hfind
  exact ⟨rfl, hfind⟩

theorem Undisturbed.puts_iff {js : List Job} (h : Undisturbed js t u) {j : Job} (hj : j ∈ js)
    {x : Location} {text : ByteArray} : j.Puts device t x text ↔ j.Puts device u x text := by
  rcases h.puts hj with ⟨l, text', ht, -, -, hu⟩ | ⟨hnone, -⟩
  · constructor
    · intro hx
      obtain ⟨rfl, rfl⟩ := hx.unique ht
      exact hu
    · intro hx
      obtain ⟨rfl, rfl⟩ := hx.unique hu
      exact ht
  · exact ⟨fun hx => absurd hx (hnone x text).1, fun hx => absurd hx (hnone x text).2⟩

/-- A job whose target is none of what the others look at disturbs none of them. -/
theorem Undisturbed.step {js : List Job} (hjs : ∀ j ∈ js, ∀ k ∈ js, j.Spares t k)
    (h : Undisturbed js t u) {j : Job} (hj : j ∈ js) : Undisturbed js t (j.next device u) := by
  rcases h.puts hj with ⟨l, text, ⟨r, hr, hl, -⟩, hcanu, hnext, -⟩ | ⟨-, hnext⟩
  · obtain ⟨_, _, htarget, -⟩ := Job.apply_eq_ok hr
    rw [htarget] at hl
    rw [hnext]
    refine ⟨h.directories.trans (.put_file hcanu text), fun k hk => ?_⟩
    obtain ⟨hpackage, hconstants, hsymbols⟩ := hjs j hj k hk l hl
    exact (h.corpus k hk).put hcanu hpackage hconstants hsymbols
  · rwa [hnext]

/-! ## Whole sessions -/

/-- The files after some jobs, one after another. -/
def runAll (device : Device) (t : FileTree) (js : List Job) : FileTree :=
  js.foldl (fun t j => j.next device t) t

theorem runAll_concat (device : Device) (t : FileTree) (js : List Job) (j : Job) :
    runAll device t (js ++ [j]) = j.next device (runAll device t js) := by
  simp [runAll]

theorem undisturbed_runAll (device : Device) {all js : List Job}
    (hall : ∀ j ∈ all, ∀ k ∈ all, j.Spares t k) (hjs : ∀ j ∈ js, j ∈ all) :
    Undisturbed all t (runAll device t js) := by
  induction js using List.reverseRecOn with
  | nil => exact .refl all t
  | append_singleton js j ih =>
    rw [runAll_concat]
    exact (ih fun k hk => hjs k (by simp [hk])).step hall (hjs j (by simp))

/-- Jobs that put nothing at a location leave it as it is. -/
theorem find?_runAll_append {all : List Job} (hall : ∀ j ∈ all, ∀ k ∈ all, j.Spares t k)
    (js ks : List Job) (hjs : ∀ j ∈ js ++ ks, j ∈ all) {x : Location}
    (hx : ∀ k ∈ ks, ∀ text, ¬ k.Puts device t x text) :
    (runAll device t (js ++ ks)).find? x = (runAll device t js).find? x := by
  induction ks using List.reverseRecOn with
  | nil => simp
  | append_singleton ks k ih =>
    rw [← List.append_assoc] at hjs ⊢
    have ih := ih (fun j hj => hjs j (List.mem_append_left _ hj))
      fun j hj => hx j (List.mem_append_left _ hj)
    have hu := undisturbed_runAll device hall fun j hj => hjs j (List.mem_append_left [k] hj)
    rw [runAll_concat, ← ih]
    rcases hu.puts (hjs k (by simp)) with ⟨l, text, hputs, hcan, hnext, -⟩ | ⟨-, hnext⟩
    · have hne : x ≠ l := fun he => hx k (by simp) text (he ▸ hputs)
      rw [hnext, FileTree.find?_put hcan, if_neg hne]
    · rw [hnext]

/-- What a job puts at a location stays there until another job puts something there. -/
theorem find?_runAll_puts {all : List Job} (hall : ∀ j ∈ all, ∀ k ∈ all, j.Spares t k)
    (pre post : List Job) {j : Job} (hjs : ∀ k ∈ pre ++ j :: post, k ∈ all) {x : Location}
    {text : ByteArray} (hj : j.Puts device t x text)
    (hx : ∀ k ∈ post, ∀ text, ¬ k.Puts device t x text) :
    (runAll device t (pre ++ j :: post)).find? x = some (.file text) := by
  have hsplit : pre ++ j :: post = pre ++ [j] ++ post := by simp
  rw [hsplit] at hjs ⊢
  rw [find?_runAll_append hall _ post hjs hx, runAll_concat]
  have hpre : ∀ k ∈ pre, k ∈ all := fun k hk => hjs k (by simp [hk])
  rcases (undisturbed_runAll device hall hpre).puts (hjs j (by simp)) with
    ⟨l, text', hputs, hcan, hnext, -⟩ | ⟨hnone, -⟩
  · obtain ⟨rfl, rfl⟩ := hj.unique hputs
    rw [hnext, FileTree.find?_put hcan, if_pos rfl]
  · exact absurd hj (hnone x text).1

/-- A job that is repeated changes nothing. -/
theorem same_runAll_repeat {pre : List Job} {j : Job}
    (hall : ∀ k ∈ pre ++ [j], ∀ i ∈ pre ++ [j], k.Spares t i) :
    (runAll device t (pre ++ [j])).Same (runAll device t (pre ++ [j] ++ [j])) := by
  have hu := undisturbed_runAll device hall fun k hk => hk
  rw [runAll_concat device t (pre ++ [j])]
  rcases hu.puts (List.mem_append_right pre List.mem_cons_self) with
    ⟨l, text, hputs, hcan, hnext, -⟩ | ⟨-, hnext⟩
  · have hlast := find?_runAll_puts hall pre [] (fun k hk => hk) hputs (by simp)
    rw [hnext]
    refine ⟨FileTree.put_home _ _ _, fun x => ?_⟩
    rw [FileTree.find?_put hcan]
    split
    case isTrue hx => rw [hx, hlast]
    case isFalse => rfl
  · rw [hnext]
    exact .refl _

theorem fileName_injective {p q : Profile} (h : p.fileName = q.fileName) : p = q := by
  revert h
  cases p <;> cases q <;> decide

theorem Job.Puts.fileName {j : Job} {text : ByteArray} (h : j.Puts device t l text)
    (hd : t.isDirectory j.output = true) : ∃ b, l = b ++ [j.profile.fileName] := by
  obtain ⟨r, hr, hl, -⟩ := h
  obtain ⟨_, _, htarget, -⟩ := Job.apply_eq_ok hr
  obtain ⟨y, hy, -⟩ := FileTree.isDirectory_iff.mp hd
  rw [htarget, Job.target, outputPath, if_pos hd] at hl
  obtain ⟨b, -, -, hb⟩ := FileTree.locate_join (FileTree.locate_eq_ok.mp hy).2.1
    (Path.isName_fileName _) hl
  exact ⟨b, hb⟩

/-- Jobs for two files of one directory can be run in either order. -/
theorem same_runAll_swap {j k : Job} (hall : ∀ i ∈ [j, k], ∀ i' ∈ [j, k], i.Spares t i')
    (hj : t.isDirectory j.output = true) (hk : t.isDirectory k.output = true)
    (hp : j.profile ≠ k.profile) : (runAll device t [j, k]).Same (runAll device t [k, j]) := by
  have hjk : ∀ i ∈ [j, k], i ∈ [j, k] := fun i hi => hi
  have hkj : ∀ i ∈ [k, j], i ∈ [j, k] := by simp
  have hne {x : Location} {text text' : ByteArray} (h : j.Puts device t x text)
      (h' : k.Puts device t x text') : False := by
    obtain ⟨b, hb⟩ := h.fileName hj
    obtain ⟨b', hb'⟩ := h'.fileName hk
    obtain ⟨-, hn⟩ := List.append_inj' (hb.symm.trans hb') rfl
    exact hp (fileName_injective (List.singleton_inj.mp hn))
  refine ⟨?_, fun x => ?_⟩
  · rw [(undisturbed_runAll device hall hkj).directories.1,
      (undisturbed_runAll device hall hjk).directories.1]
  by_cases hx : ∃ text, j.Puts device t x text
  · obtain ⟨text, hx⟩ := hx
    have hnone : ∀ i ∈ [k], ∀ text', ¬ i.Puts device t x text' := by
      simpa using fun text' h => hne hx h
    exact (find?_runAll_puts hall [k] [] hkj hx (by simp)).trans
      (find?_runAll_puts hall [] [k] hjk hx hnone).symm
  · by_cases hx' : ∃ text, k.Puts device t x text
    · obtain ⟨text, hx'⟩ := hx'
      have hnone : ∀ i ∈ [j], ∀ text', ¬ i.Puts device t x text' := by
        simpa using fun text' h => hne h hx'
      exact (find?_runAll_puts hall [] [j] hkj hx' hnone).trans
        (find?_runAll_puts hall [j] [] hjk hx' (by simp)).symm
    · have hnone : ∀ i ∈ [j, k], ∀ text, ¬ i.Puts device t x text := by
        simpa using ⟨not_exists.mp hx, not_exists.mp hx'⟩
      exact (find?_runAll_append hall [] [k, j] hkj fun i hi => hnone i (hkj i hi)).trans
        (find?_runAll_append hall [] [j, k] hjk hnone).symm

/-! ## Sessions of runs -/

/-- The world after some jobs, one after another. -/
def session (w : World) (js : List Job) : World := js.foldl (fun w j => (j.run.outcome w).2) w

theorem session_eq (w : World) (js : List Job) :
    (session w js).device = w.device ∧
      (session w js).files = runAll w.device w.files js := by
  induction js using List.reverseRecOn with
  | nil => exact ⟨rfl, rfl⟩
  | append_singleton js j ih =>
    obtain ⟨hdevice, hfiles⟩ := ih
    have hsession : session w (js ++ [j]) = (j.run.outcome (session w js)).2 := by
      simp [session]
    have hj := j.follows (session w js)
    rw [hsession, hj.device, hj.files, hdevice, hfiles, runAll_concat]
    exact ⟨rfl, rfl⟩

theorem session_device (w : World) (js : List Job) : (session w js).device = w.device :=
  (session_eq w js).1

theorem session_files (w : World) (js : List Job) :
    (session w js).files = runAll w.device w.files js := (session_eq w js).2

/-- In a world a job succeeds, and writes a text to a location. -/
def Job.Writes (w : World) (j : Job) (x : Location) (text : ByteArray) : Prop :=
  ∃ r, (j.run.outcome w).1 = .ok r ∧ w.files.locate r.output = .ok x ∧
    (j.run.outcome w).2.files.readBytes r.output = .ok text

theorem Job.writes_iff {w : World} {j : Job} {x : Location} {text : ByteArray} :
    j.Writes w x text ↔ j.Puts w.device w.files x text := by
  constructor
  · rintro ⟨r, hok, hx, hread⟩
    have ha := (j.follows w).of_ok hok
    obtain ⟨l, text', -, hl, hcan, hput, hread', -⟩ := Job.apply_eq_ok ha
    obtain rfl := Except.ok.inj (hx.symm.trans hl)
    obtain rfl := Except.ok.inj (hread.symm.trans hread')
    exact ⟨r, hput ▸ ha, hl, hcan⟩
  · rintro ⟨r, ha, hl, hcan⟩
    obtain ⟨l', text', -, hl', -, hput, hread, -⟩ := Job.apply_eq_ok ha
    obtain rfl := Except.ok.inj (hl.symm.trans hl')
    have hfind := congrArg (fun u => u.find? x) hput
    simp only [FileTree.find?_put hcan, if_true, Option.some.injEq, Entry.file.injEq] at hfind
    subst hfind
    obtain ⟨hr, hw, -⟩ := j.follows w
    rw [ha] at hr hw
    exact ⟨r, hr, hl, by rw [hw]; exact hread⟩

/-- Runs do not disturb one another. In a session where no run writes where the corpus of another
is read from, each run gives what it gives alone at the start: the same report and text, or the
same kind of error. At the end the output of each run that succeeds holds the text of the last one
that wrote it, and all else is as it was. So a run that is repeated changes nothing, and the two
profiles can be generated into one directory in either order. -/
theorem session_undisturbed {w : World} {js : List Job}
    (h : ∀ j ∈ js, ∀ k ∈ js, j.Spares w.files k) :
    (∀ pre j post, js = pre ++ j :: post →
      SameKind (j.run.outcome w).1 (j.run.outcome (session w pre)).1 ∧
        ∀ x text, j.Writes w x text ↔ j.Writes (session w pre) x text) ∧
      (session w js).files.home = w.files.home ∧
      (∀ pre j post x text, js = pre ++ j :: post → j.Writes w x text →
        (∀ k ∈ post, ∀ text', ¬ k.Writes w x text') →
        (session w js).files.find? x = some (.file text)) ∧
      (∀ x, (∀ j ∈ js, ∀ text, ¬ j.Writes w x text) →
        (session w js).files.find? x = w.files.find? x) ∧
      (∀ j, js.getLast? = some j → (session w js).files.Same (session w (js ++ [j])).files) ∧
      ∀ j ∈ js, ∀ k ∈ js, j.output = k.output → w.files.isDirectory j.output = true →
        j.profile ≠ k.profile → (session w [j, k]).files.Same (session w [k, j]).files := by
  simp only [session_files, session_device, Job.writes_iff]
  refine ⟨fun pre j post hjs => ?_, (undisturbed_runAll w.device h fun _ hk => hk).directories.1,
    fun pre j post x text hjs hj hpost => ?_, fun x hx => ?_, fun j hj => ?_,
    fun j hj k hk ho hd hp => ?_⟩
  · have hmem : j ∈ js := by simp [hjs]
    have hpre : ∀ k ∈ pre, k ∈ js := fun k hk => by simp [hjs, hk]
    have hu := undisturbed_runAll w.device h hpre
    rw [(j.follows w).result, (j.follows (session w pre)).result, session_files, session_device]
    exact ⟨Job.sameKind_apply w.device (hu.corpus j hmem), fun x text => hu.puts_iff hmem⟩
  · rw [hjs]
    exact find?_runAll_puts h pre post (by simp [hjs]) hj hpost
  · exact find?_runAll_append h [] js (fun _ hk => hk) hx
  · obtain ⟨pre, rfl⟩ := List.getLast?_eq_some_iff.mp hj
    exact same_runAll_repeat h
  · refine same_runAll_swap (fun i hi i' hi' => h i ?_ i' ?_) hd (ho ▸ hd) hp
    · simp only [List.mem_cons, List.not_mem_nil, or_false] at hi
      rcases hi with rfl | rfl <;> assumption
    · simp only [List.mem_cons, List.not_mem_nil, or_false] at hi'
      rcases hi' with rfl | rfl <;> assumption

/-- A job on the small corpus. -/
def sampleJob (output : Path) (p : Profile) : Job where
  provider := sampleProvider
  catalog := sampleCatalog
  base := ⟨"/"⟩
  output
  profile := p

/-- Both profiles of the small corpus into one directory, and one of them again into the corpus. -/
def sampleJobs : List Job := [
  sampleJob ⟨"/out"⟩ .standard,
  sampleJob ⟨"/out"⟩ .extended,
  sampleJob ⟨"/wrapper/sumo.d.ts"⟩ .extended]

theorem spares_sampleJobs : ∀ j ∈ sampleJobs, ∀ k ∈ sampleJobs, j.Spares sampleTree k := by
  intro j hj k hk
  have hbase : k.base = ⟨"/"⟩ := by
    simp only [sampleJobs, List.mem_cons, List.not_mem_nil, or_false] at hk
    rcases hk with rfl | rfl | rfl <;> rfl
  obtain ⟨x, hx, hp, hc, hs⟩ : ∃ x, sampleTree.locate (j.target sampleTree) = .ok x ∧
      x ≠ ["package.json"] ∧ x ≠ ["wrapper", "constants.json"] ∧
        x.dropLast ≠ ["wrapper", "symbols"] := by
    simp only [sampleJobs, List.mem_cons, List.not_mem_nil, or_false] at hj
    rcases hj with rfl | rfl | rfl
    · exact ⟨["out", "libsodium-wrappers.d.ts"], by decide +kernel⟩
    · exact ⟨["out", "libsodium-wrappers-sumo.d.ts"], by decide +kernel⟩
    · exact ⟨["wrapper", "sumo.d.ts"], by decide +kernel⟩
  have hlp : sampleTree.locate (packageFile ⟨"/"⟩) = .ok ["package.json"] := by decide +kernel
  have hlc : sampleTree.locate (constantsFile ⟨"/"⟩) = .ok ["wrapper", "constants.json"] := by
    decide +kernel
  have hls : sampleTree.locate (symbolsDirectory ⟨"/"⟩) = .ok ["wrapper", "symbols"] := by
    decide +kernel
  refine Job.spares_of_locate hx ?_ ?_ ?_
  · rw [hbase, hlp]
    simpa [eq_comm] using hp
  · rw [hbase, hlc]
    simpa [eq_comm] using hc
  · rw [hbase, hls]
    simpa [eq_comm] using hs

theorem session_undisturbed_sample :
    (∀ j ∈ sampleJobs, ∀ k ∈ sampleJobs, j.Spares sampleTree k) ∧
      ((sampleJob ⟨"/wrapper/sumo.d.ts"⟩ .extended).run.outcome { files := sampleTree }).1 =
        .ok ⟨⟨"/wrapper/sumo.d.ts"⟩, "0.7.3", .extended, 3, 3, 3⟩ ∧
      ((sampleJob ⟨"/wrapper/sumo.d.ts"⟩ .extended).run.outcome (session { files := sampleTree }
        [sampleJob ⟨"/out"⟩ .standard, sampleJob ⟨"/out"⟩ .extended])).1 =
        .ok ⟨⟨"/wrapper/sumo.d.ts"⟩, "0.7.3", .extended, 3, 3, 3⟩ := by
  have halone : ((sampleJob ⟨"/wrapper/sumo.d.ts"⟩ .extended).run.outcome
      { files := sampleTree }).1 =
        .ok ⟨⟨"/wrapper/sumo.d.ts"⟩, "0.7.3", .extended, 3, 3, 3⟩ := by
    decide +kernel
  have h := (session_undisturbed (w := { files := sampleTree }) spares_sampleJobs).1
    [sampleJob ⟨"/out"⟩ .standard, sampleJob ⟨"/out"⟩ .extended]
    (sampleJob ⟨"/wrapper/sumo.d.ts"⟩ .extended) [] rfl
  exact ⟨spares_sampleJobs, halone, (h.1.ok_iff _).mp halone⟩

end SodiumDecl
