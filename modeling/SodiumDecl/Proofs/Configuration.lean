import SodiumDecl.CommandLine.Command
import SodiumDecl.Proofs.Paths
import SodiumDecl.Proofs.Runs

/-!
# Where settings come from

An invocation takes its settings from one file or from none: the one that it names, else the user's
own, if it is there (`Selects`). What the file sets comes first and the defaults come after it, one
setting at a time; the invocation itself may set the oldest release, and that comes before both
(`Layered`). A file that cannot be read, is no TOML or sets something to what is no text is at fault
(`FileFault`), and only then there are no settings. `settings_layered` is the result.

What a path leads to is decided by the locations on its route (`FileTree.readText_congr`), so with a
file that is named nothing but that route matters.
-/

namespace SodiumDecl

/-! ## Routes -/

namespace FileTree

variable {t u : FileTree}

/-- The locations that are looked at on the way from a location along names. -/
def routeFrom (t : FileTree) (l : Location) : List String → List Location
  | [] => [l]
  | n :: ns =>
    match t.enter l n with
    | .ok next => l :: t.routeFrom next ns
    | .error _ => [l]

/-- The locations that are looked at when a path is followed, and what it leads to. -/
def route (t : FileTree) (p : Path) : List Location :=
  t.routeFrom (if p.isAbsolute then [] else t.home) p.names

theorem mem_routeFrom (t : FileTree) (l : Location) (ns : List String) : l ∈ t.routeFrom l ns := by
  cases ns with
  | nil => exact List.mem_singleton_self l
  | cons n ns =>
    rw [routeFrom]
    split <;> exact List.mem_cons_self

theorem walk_congr {l : Location} {ns : List String}
    (h : ∀ x ∈ t.routeFrom l ns, u.find? x = t.find? x) :
    ns.foldlM u.enter l = ns.foldlM t.enter l := by
  induction ns generalizing l with
  | nil => rfl
  | cons n ns ih =>
    have henter : u.enter l n = t.enter l n := by
      rw [enter, enter, h l (t.mem_routeFrom l _)]
    rw [List.foldlM_cons, List.foldlM_cons, henter]
    cases hl : t.enter l n with
    | error e => rfl
    | ok next =>
      rw [routeFrom, hl] at h
      exact ih fun x hx => h x (List.mem_cons_of_mem _ hx)

theorem mem_route_of_walk {l l' : Location} {ns : List String}
    (h : ns.foldlM t.enter l = .ok l') : l' ∈ t.routeFrom l ns := by
  induction ns generalizing l with
  | nil =>
    obtain rfl : l = l' := by simpa using h
    exact List.mem_singleton_self l
  | cons n ns ih =>
    rw [List.foldlM_cons] at h
    obtain ⟨next, hn, h⟩ := bind_eq_ok.mp h
    rw [routeFrom, hn]
    exact List.mem_cons_of_mem _ (ih h)

/-- Reading a file depends on the route to it alone. -/
theorem readText_congr {p : Path} (hh : u.home = t.home)
    (h : ∀ x ∈ t.route p, u.find? x = t.find? x) : u.readText p = t.readText p := by
  have hlocate : u.locate p = t.locate p := by
    rw [locate, locate, hh, walk_congr h]
  have hentry : u.entry p = t.entry p := by
    rw [entry, entry, hlocate]
    cases hl : t.locate p with
    | error e => rfl
    | ok l => rw [ok_bind, ok_bind, h l (mem_route_of_walk (locate_eq_ok.mp hl).2.2.2)]
  rw [readText, readText, readBytes, readBytes, hentry]

end FileTree

/-! ## Selecting a file -/

/-- Where a user keeps configurations: in the directory that the environment names, even if the name
is empty, else in a directory of the home directory. -/
inductive ConfigDirectory (env : Environment) : Path → Prop
  | named {c : String} : env.configHome = some c → ConfigDirectory env ⟨c⟩
  | home {h : Path} : env.configHome = none → env.homeDirectory? = some h →
      ConfigDirectory env (h / ".config")

/-- The configuration file in a directory of configurations. -/
def userFile (dir : Path) : Path := dir / "sodium-typegen" / "config.toml"

/-- The file that settings are read from: the one that is named, else the user's own, if it is
there, else none. -/
inductive Selects (t : FileTree) (env : Environment) : Option Path → Option Path → Prop
  | named (path : Path) : Selects t env (some path) (some path)
  | user {dir : Path} : ConfigDirectory env dir → t.isFile (userFile dir) = true →
      Selects t env none (some (userFile dir))
  | none : (∀ dir, ConfigDirectory env dir → t.isFile (userFile dir) = false) →
      Selects t env none none

section Selecting

variable {t : FileTree} {env : Environment} {named : Option Path}

theorem configDirectory?_eq_some {dir : Path} :
    env.configDirectory? = some dir ↔ ConfigDirectory env dir := by
  rw [Environment.configDirectory?]
  constructor
  · intro h
    split at h
    case h_1 c hc =>
      obtain rfl := Option.some.inj h
      exact .named hc
    case h_2 hc =>
      obtain ⟨home, hhome, rfl⟩ := Option.map_eq_some_iff.mp h
      exact .home hc hhome
  · intro h
    cases h with
    | named hc => rw [hc]
    | home hc hhome => rw [hc, hhome]; rfl

theorem ConfigDirectory.unique {dir dir' : Path} (h : ConfigDirectory env dir)
    (h' : ConfigDirectory env dir') : dir = dir' := by
  rw [← configDirectory?_eq_some] at h h'
  exact Option.some.inj (h.symm.trans h')

theorem exists_selects (t : FileTree) (env : Environment) (named : Option Path) :
    ∃ file, Selects t env named file := by
  cases named with
  | some path => exact ⟨some path, .named path⟩
  | none =>
    by_cases h : ∃ dir, ConfigDirectory env dir ∧ t.isFile (userFile dir) = true
    · obtain ⟨dir, hdir, hfile⟩ := h
      exact ⟨some (userFile dir), .user hdir hfile⟩
    · refine ⟨none, .none fun dir hdir => ?_⟩
      rw [← Bool.not_eq_true]
      exact fun hfile => h ⟨dir, hdir, hfile⟩

theorem Selects.unique {file file' : Option Path} (h : Selects t env named file)
    (h' : Selects t env named file') : file = file' := by
  cases h with
  | named path =>
    cases h'
    rfl
  | user hdir hfile =>
    cases h' with
    | user hdir' _ => rw [hdir.unique hdir']
    | none hnone => simp [hnone _ hdir] at hfile
  | none hnone =>
    cases h' with
    | user hdir hfile => simp [hnone _ hdir] at hfile
    | none => rfl

/-- The settings are those of the selected file. Without one they are the defaults. -/
theorem Selects.load_eq {file : Option Path} (h : Selects t env named file) :
    Settings.load t env named = file.elim (.ok {}) (Settings.loadFile t) := by
  cases h with
  | named path => rfl
  | user hdir hfile =>
    have huser : env.configFile? = some (userFile _) :=
      Option.map_eq_some_iff.mpr ⟨_, configDirectory?_eq_some.mpr hdir, rfl⟩
    rw [Settings.load, huser]
    exact if_pos hfile
  | none hnone =>
    rw [Settings.load]
    cases huser : env.configFile? with
    | none => rfl
    | some path =>
      obtain ⟨dir, hdir, rfl⟩ := Option.map_eq_some_iff.mp huser
      have hfile := hnone dir (configDirectory?_eq_some.mp hdir)
      exact if_neg (by simpa [userFile] using hfile)

end Selecting

/-! ## The settings of a file -/

/-- A table provides the value of a setting: it sets it, or it does not have it and the value is the
default. -/
def Provides (ms : Toml.Members) (name default value : String) : Prop :=
  ms.lookup name = some (.text value) ∨ ms.lookup name = none ∧ value = default

/-- Settings made of what an invocation says, what a table sets and the defaults. Of the four the
invocation may say the oldest release, and what the table sets for it then only has to be right. -/
structure Layered (ms : Toml.Members) (minimum : Option String) (s : Settings) : Prop where
  archiveTemplate : Provides ms "archive_url" ({} : Settings).archiveTemplate s.archiveTemplate
  library : Provides ms "library" ({} : Settings).library s.library
  defaultVersion : Provides ms "default_version" ({} : Settings).defaultVersion s.defaultVersion
  minimumVersion : ∃ m, Provides ms "minimum_version" ({} : Settings).minimumVersion m ∧
    s.minimumVersion = minimum.getD m

/-- A table has something that is no text in the place of a setting. -/
def Mistyped (ms : Toml.Members) : Prop :=
  ∃ name ∈ ["archive_url", "library", "default_version", "minimum_version"], ∃ node,
    ms.lookup name = some node ∧ ∀ value, node ≠ .text value

/-- The table of the selected file. Without a file it is empty. -/
inductive HasTable (t : FileTree) : Option Path → Toml.Members → Prop
  | none : HasTable t none []
  | some {path : Path} {text : String} {ms : Toml.Members} : t.readText path = .ok text →
      Toml.read? text = some ms → HasTable t (some path) ms

/-- What is at fault with a configuration file. -/
inductive FileFault (t : FileTree) (path : Path) : ConfigFault → Prop
  | unreadable {f : FileError} : t.readText path = .error f → FileFault t path (.unreadable f)
  | malformed {text : String} : t.readText path = .ok text → Toml.read? text = none →
      FileFault t path .invalid
  | mistyped {text : String} {ms : Toml.Members} : t.readText path = .ok text →
      Toml.read? text = some ms → Mistyped ms → FileFault t path .invalid

section Loading

variable {t : FileTree} {ms : Toml.Members} {path : Path}

theorem setting?_eq_some {name default value : String} :
    Settings.setting? ms name default = some value ↔ Provides ms name default value := by
  rw [Settings.setting?, Provides]
  split
  case h_1 h => simp [h, eq_comm]
  case h_2 s h => simp [h]
  case h_3 node hne h => simpa [h] using hne value

theorem setting?_eq_none {name default : String} : Settings.setting? ms name default = none ↔
    ∃ node, ms.lookup name = some node ∧ ∀ value, node ≠ .text value := by
  rw [Settings.setting?]
  split
  case h_1 h => simp [h]
  case h_2 s h => simp [h]
  case h_3 node hne h => simpa [h] using hne

theorem ofTable?_eq_some {s : Settings} : Settings.ofTable? ms = some s ↔ Layered ms none s := by
  simp only [Settings.ofTable?, Option.bind_eq_bind, Option.bind_eq_some_iff, setting?_eq_some,
    Option.pure_def, Option.some.injEq]
  constructor
  · rintro ⟨a, ha, l, hl, d, hd, m, hm, rfl⟩
    exact ⟨ha, hl, hd, m, hm, rfl⟩
  · rintro ⟨ha, hl, hd, m, hm, hmin⟩
    exact ⟨_, ha, _, hl, _, hd, m, hm, by rw [← show s.minimumVersion = m from hmin]⟩

theorem ofTable?_eq_none : Settings.ofTable? ms = none ↔ Mistyped ms := by
  have hmistyped : Mistyped ms ↔
      Settings.setting? ms "archive_url" ({} : Settings).archiveTemplate = none ∨
        Settings.setting? ms "library" ({} : Settings).library = none ∨
        Settings.setting? ms "default_version" ({} : Settings).defaultVersion = none ∨
        Settings.setting? ms "minimum_version" ({} : Settings).minimumVersion = none := by
    simp [Mistyped, setting?_eq_none]
  rw [hmistyped, Settings.ofTable?]
  cases Settings.setting? ms "archive_url" ({} : Settings).archiveTemplate <;>
    cases Settings.setting? ms "library" ({} : Settings).library <;>
    cases Settings.setting? ms "default_version" ({} : Settings).defaultVersion <;>
    cases Settings.setting? ms "minimum_version" ({} : Settings).minimumVersion <;> simp

theorem loadFile_eq_ok {s : Settings} : Settings.loadFile t path = .ok s ↔
    ∃ ms, HasTable t (some path) ms ∧ Layered ms none s := by
  rw [Settings.loadFile]
  constructor
  · intro h
    split at h
    case h_1 => exact nomatch h
    case h_2 text htext =>
      split at h
      case h_2 => exact nomatch h
      case h_1 s' hs =>
        obtain rfl := Except.ok.inj h
        obtain ⟨ms, hms, hs⟩ := Option.bind_eq_some_iff.mp hs
        exact ⟨ms, .some htext hms, ofTable?_eq_some.mp hs⟩
  · rintro ⟨ms, ⟨⟩ | ⟨htext, hms⟩, hs⟩
    rw [htext]
    dsimp only
    rw [hms, Option.bind_some, ofTable?_eq_some.mpr hs]

theorem loadFile_eq_error {e : Error} : Settings.loadFile t path = .error e ↔
    ∃ fault, FileFault t path fault ∧ e = .config path fault := by
  rw [Settings.loadFile]
  constructor
  · intro h
    split at h
    case h_1 f hf => exact ⟨.unreadable f, .unreadable hf, (Except.error.inj h).symm⟩
    case h_2 text htext =>
      split at h
      case h_1 => exact nomatch h
      case h_2 hnone =>
        refine ⟨.invalid, ?_, (Except.error.inj h).symm⟩
        cases hread : Toml.read? text with
        | none => exact .malformed htext hread
        | some ms =>
          rw [hread, Option.bind_some, ofTable?_eq_none] at hnone
          exact .mistyped htext hread hnone
  · rintro ⟨-, ⟨hf⟩ | ⟨htext, hread⟩ | ⟨htext, hread, hms⟩, rfl⟩
    · rw [hf]
    · rw [htext]
      dsimp only
      rw [hread, Option.bind_none]
    · rw [htext]
      dsimp only
      rw [hread, Option.bind_some, ofTable?_eq_none.mpr hms]

/-- Without a file the table is empty, and the settings are the defaults. -/
theorem elim_loadFile_eq_ok {file : Option Path} {s : Settings} :
    file.elim (.ok {}) (Settings.loadFile t) = .ok s ↔
      ∃ ms, HasTable t file ms ∧ Layered ms none s := by
  cases file with
  | some path => exact loadFile_eq_ok
  | none =>
    have hdefaults : Settings.ofTable? [] = some {} := rfl
    constructor
    · rintro ⟨⟩
      exact ⟨[], .none, ofTable?_eq_some.mp hdefaults⟩
    · rintro ⟨-, ⟨⟩, hs⟩
      rw [Option.elim_none, Option.some.inj (hdefaults.symm.trans (ofTable?_eq_some.mpr hs))]

theorem elim_loadFile_eq_error {file : Option Path} {e : Error} :
    file.elim (.ok {}) (Settings.loadFile t) = .error e ↔
      ∃ path fault, file = some path ∧ FileFault t path fault ∧ e = .config path fault := by
  cases file with
  | some path => simpa using loadFile_eq_error
  | none => simp

end Loading

/-! ## The settings of an invocation -/

namespace CommandLine

/-- The configuration file that an invocation names. -/
def Settled.file? (s : Settled) : Option Path := (s.values.lookup .config).map Path.mk

/-- The oldest release that an invocation accepts. -/
def Settled.minimum? (s : Settled) : Option String := s.values.lookup .minimum

variable {t : FileTree} {env : Environment} {s : Settled} {file : Option Path}

theorem settings_eq (t : FileTree) (env : Environment) (s : Settled) :
    settings t env s = (Settings.load t env s.file?).map fun loaded =>
      { loaded with minimumVersion := s.minimum?.getD loaded.minimumVersion } := by
  rw [settings, ← Settled.file?, ← Settled.minimum?]
  cases Settings.load t env s.file? with
  | error e => rfl
  | ok loaded => cases s.minimum? <;> rfl

theorem settings_eq_ok (h : Selects t env s.file? file) {cfg : Settings} :
    settings t env s = .ok cfg ↔ ∃ ms, HasTable t file ms ∧ Layered ms s.minimum? cfg := by
  rw [settings_eq, h.load_eq, map_eq_ok]
  simp only [elim_loadFile_eq_ok]
  constructor
  · rintro ⟨loaded, ⟨ms, hms, ha, hl, hd, m, hm, hmin⟩, rfl⟩
    exact ⟨ms, hms, ha, hl, hd, m, hm, congrArg s.minimum?.getD hmin⟩
  · rintro ⟨ms, hms, ha, hl, hd, m, hm, hmin⟩
    refine ⟨{ cfg with minimumVersion := m }, ⟨ms, hms, ha, hl, hd, m, hm, rfl⟩, ?_⟩
    rw [← hmin]

theorem settings_eq_error (h : Selects t env s.file? file) {e : Error} :
    settings t env s = .error e ↔
      ∃ path fault, file = some path ∧ FileFault t path fault ∧ e = .config path fault := by
  rw [settings_eq, h.load_eq, ← elim_loadFile_eq_error]
  cases file.elim (.ok {}) (Settings.loadFile t) <;> simp

/-- With a file that is named, nothing counts but what is on the route to it. -/
theorem settings_congr {path : Path} (hpath : s.file? = some path) {u : FileTree}
    (hh : u.home = t.home) (hu : ∀ x ∈ t.route path, u.find? x = t.find? x) (env' : Environment) :
    settings u env' s = settings t env s := by
  have hload : Settings.loadFile u path = Settings.loadFile t path := by
    rw [Settings.loadFile, Settings.loadFile, FileTree.readText_congr hh hu]
  rw [settings_eq, settings_eq, hpath]
  exact congrArg _ hload

/-- A run generates with the settings of its invocation, or fails with their error. -/
theorem outcome_run (context : Context) (output : String) (s : Settled) (w : World) :
    (run context output s).outcome w =
      match settings w.files context.environment s with
      | .ok cfg => (generate ⟨cfg, context.fetcher, context.temporary⟩ .libsodium
          (options output s)).outcome w
      | .error e => (.error e, w) := by
  rw [run, Run.outcome_bind_ok (Run.outcome_files w), Run.outcome_bind, Run.outcome_ofExcept]
  cases settings w.files context.environment s <;> rfl

/-- An invocation selects one file, or none. Its settings are what it says itself, what the file
sets and the defaults, in this order. They are there unless the file is at fault, so without a file
always. With a file that is named, neither the environment nor any other file plays a part in this.
These are the settings that the invocation runs with; if there are none, the fault of the file is
all that comes of it. -/
theorem settings_layered (context : Context) (output : String) (s : Settled) (w : World) :
    (∃! file, Selects w.files context.environment s.file? file) ∧
      (∀ file, Selects w.files context.environment s.file? file →
        (∀ cfg, settings w.files context.environment s = .ok cfg ↔
          ∃ ms, HasTable w.files file ms ∧ Layered ms s.minimum? cfg) ∧
        (∀ e, settings w.files context.environment s = .error e ↔
          ∃ path fault, file = some path ∧ FileFault w.files path fault ∧
            e = .config path fault) ∧
        (file = none → ∃ cfg, settings w.files context.environment s = .ok cfg)) ∧
      (∀ path, s.file? = some path → ∀ (t : FileTree) (env : Environment),
        t.home = w.files.home → (∀ l ∈ w.files.route path, t.find? l = w.files.find? l) →
          settings t env s = settings w.files context.environment s) ∧
      (run context output s).outcome w =
        match settings w.files context.environment s with
        | .ok cfg => (generate ⟨cfg, context.fetcher, context.temporary⟩ .libsodium
            (options output s)).outcome w
        | .error e => (.error e, w) := by
  refine ⟨?_, fun file h => ⟨fun cfg => settings_eq_ok h, fun e => settings_eq_error h, ?_⟩, ?_,
    outcome_run context output s w⟩
  · obtain ⟨file, h⟩ := exists_selects w.files context.environment s.file?
    exact ⟨file, h, fun file' h' => h'.unique h⟩
  · rintro rfl
    rw [settings_eq, h.load_eq]
    exact ⟨_, rfl⟩
  · intro path hpath t env hhome hroute
    exact settings_congr hpath hhome hroute env

/-- The user's own file, which sets the library and the oldest release. -/
def configuredTree : FileTree :=
  [(["sodium-typegen"], .directory),
    (["sodium-typegen", "config.toml"],
      .file "library = \"mirror\"\nminimum_version = \"0.8\"\n".toUTF8)].foldl
    (fun t e => t.put e.1 e.2) (.bare [])

/-- The name of the directory of configurations may be empty. -/
example : settings configuredTree { configHome := some "" } { values := [(.minimum, "0.9")] } =
    .ok { library := "mirror", minimumVersion := "0.9" } := by
  decide +kernel

end CommandLine

end SodiumDecl
