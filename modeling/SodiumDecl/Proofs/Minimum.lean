import SodiumDecl.Proofs.Gate

/-!
# Lowering the minimum

The order of versions is transitive, so what passes the gate at a minimum passes it at a lower one
(`Version.Passes.trans`).

`Run.Extends m' m` says that `m'` gives all that `m` gives and leaves the same world. A run with a
lower minimum extends the run (`extends_generate`), which is the result (`generate_lower_minimum`):
whatever succeeds goes on to succeed, with the same report, the same files and the same requests.
-/

namespace SodiumDecl

/-! ## Passing the gate -/

namespace Version

/-- A version passes the gate when it is equal to the minimum or above it. -/
theorem passes_iff {v m : String} :
    Passes v m ↔ compare? v m = some .eq ∨ compare? v m = some .gt := by
  rw [← check_eq_ok, check]
  cases compare? v m with
  | none => simp
  | some o => cases o <;> simp

theorem Passes.isGE {v m : String} (h : Passes v m) :
    (comparePadded (components v) (components m)).isGE := by
  have hne := h.not_below
  rw [compare?_eq h.wellFormed h.minimum_wellFormed] at hne
  cases hc : comparePadded (components v) (components m) <;> simp_all

/-- What is not below a minimum is not below a lower one. -/
theorem Passes.trans {v m m' : String} (h : Passes v m) (h' : Passes m m') : Passes v m' where
  wellFormed := h.wellFormed
  minimum_wellFormed := h'.minimum_wellFormed
  not_below := by
    have hge := Std.TransCmp.isGE_trans h.isGE h'.isGE
    rw [compare?_eq h.wellFormed h'.minimum_wellFormed]
    rintro hlt
    simp [Option.some.inj hlt] at hge

end Version

/-! ## Runs that give more -/

namespace Run

variable {α β : Type} {m m' : Run α}

/-- One run gives all that another one gives, and leaves the same world where it does. -/
def Extends (m' m : Run α) : Prop :=
  ∀ w a w', m.outcome w = (.ok a, w') → m'.outcome w = (.ok a, w')

theorem Extends.refl (m : Run α) : Extends m m := fun _ _ _ h => h

theorem Extends.bind {f f' : α → Run β} (hm : Extends m' m) (hf : ∀ a, Extends (f' a) (f a)) :
    Extends (m' >>= f') (m >>= f) := by
  intro w b w' h
  rw [outcome_bind] at h
  cases ho : m.outcome w with
  | mk r w₁ =>
    rw [ho] at h
    cases r with
    | ok a =>
      rw [outcome_bind_ok (hm w a w₁ ho)]
      exact hf a w₁ b w' h
    | error e => simp at h

/-- A cleanup after a failure gives nothing. -/
theorem Extends.onFailure {cleanup : Run Unit} (hm : Extends m' m) :
    Extends (onFailure cleanup m') (onFailure cleanup m) := by
  intro w a w' h
  rw [outcome_onFailure] at h
  cases ho : m.outcome w with
  | mk r w₁ =>
    rw [ho] at h
    cases r with
    | ok b =>
      rw [outcome_onFailure, hm w b w₁ ho]
      exact h
    | error e =>
      dsimp only at h
      rw [outcome_bind] at h
      cases hc : cleanup.outcome w₁ with
      | mk r' w₂ => cases r' <;> simp [hc] at h

theorem Extends.ofExcept {x x' : Except Error α} (h : ∀ a, x = .ok a → x' = .ok a) :
    Extends (ofExcept x') (ofExcept x) := by
  intro w a w' ho
  rw [outcome_ofExcept] at ho ⊢
  obtain ⟨hx, rfl⟩ := Prod.mk.inj ho
  rw [h a hx]

/-- A run that gives a result leaves some world. -/
theorem exists_world {x : Except Error α × World} {a : α} (h : x.1 = .ok a) :
    ∃ w', x = (.ok a, w') := ⟨x.2, by rw [← h]⟩

end Run

open Run

/-! ## A lower minimum -/

/-- The settings with another minimum. -/
def Settings.withMinimum (s : Settings) (minimum : String) : Settings :=
  { s with minimumVersion := minimum }

/-- The provider with another minimum. -/
def Provider.withMinimum (p : Provider) (minimum : String) : Provider :=
  { p with settings := p.settings.withMinimum minimum }

section Lower

variable {s : Settings} {p : Provider} {m : String}

theorem extends_checkVersion (h : Version.Passes s.minimumVersion m) (version : String) :
    Extends (checkVersion (s.withMinimum m) version) (checkVersion s version) := by
  refine Extends.ofExcept fun a ha => ?_
  rw [mapError_eq_ok] at ha ⊢
  exact Version.check_eq_ok.mpr ((Version.check_eq_ok.mp ha).trans h)

theorem extends_accept (h : Version.Passes s.minimumVersion m) (path : Path)
    (scratch : Option Path) :
    Extends (accept (s.withMinimum m) path scratch) (accept s path scratch) := by
  refine (Extends.refl _).bind fun files => (Extends.refl _).bind fun version => ?_
  exact (extends_checkVersion h version).bind fun _ => .refl _

/-- The minimum is looked at by the gates alone. -/
theorem extends_resolve (h : Version.Passes p.settings.minimumVersion m) (base : Option Path)
    (version : Option String) :
    Extends (resolve (p.withMinimum m) base version) (resolve p base version) := by
  cases base with
  | some path =>
    cases version with
    | none => exact extends_accept h path none
    | some v => exact (Extends.refl _).bind fun _ => extends_accept h path none
  | none =>
    refine (extends_checkVersion h _).bind fun _ => (Extends.refl _).bind fun _ => ?_
    refine (Extends.refl _).bind fun scratch => Extends.onFailure ?_
    exact (Extends.refl _).bind fun path => extends_accept h path _

theorem extends_generate (h : Version.Passes p.settings.minimumVersion m) (c : Catalog)
    (o : Options) : Extends (generate (p.withMinimum m) c o) (generate p c o) :=
  (extends_resolve h o.base o.version).bind fun _ => .refl _

end Lower

/-- A run that succeeds also succeeds with a minimum that is not above the one it had, with the
same report, and it leaves the same world: every file with the same contents, and the same
requests. -/
theorem generate_lower_minimum {p : Provider} {c : Catalog} {o : Options} {m : String}
    {w w' : World} {r : Report}
    (hm : Version.compare? p.settings.minimumVersion m = some .eq ∨
      Version.compare? p.settings.minimumVersion m = some .gt)
    (h : (generate p c o).outcome w = (.ok r, w')) :
    (generate (p.withMinimum m) c o).outcome w = (.ok r, w') :=
  extends_generate (Version.passes_iff.mpr hm) c o w r w' h

/-- Components are compared as text, so `0.7.10` is a lower minimum than `0.7.3`. -/
theorem generate_lower_minimum_sample :
    Version.compare? sampleProvider.settings.minimumVersion "0.7.10" = some .gt ∧
      ∃ w', (generate sampleProvider sampleCatalog sampleOptions).outcome
          { files := sampleTree } =
            (.ok ⟨⟨"/out/libsodium-wrappers.d.ts"⟩, "0.7.3", .standard, 3, 2, 2⟩, w') ∧
        (generate (sampleProvider.withMinimum "0.7.10") sampleCatalog sampleOptions).outcome
          { files := sampleTree } =
            (.ok ⟨⟨"/out/libsodium-wrappers.d.ts"⟩, "0.7.3", .standard, 3, 2, 2⟩, w') := by
  have hm : Version.compare? sampleProvider.settings.minimumVersion "0.7.10" = some .gt := by
    decide +kernel
  have hr : ((generate sampleProvider sampleCatalog sampleOptions).outcome
      { files := sampleTree }).1 =
        .ok ⟨⟨"/out/libsodium-wrappers.d.ts"⟩, "0.7.3", .standard, 3, 2, 2⟩ := by
    decide +kernel
  obtain ⟨w', h⟩ := exists_world hr
  exact ⟨hm, w', h, generate_lower_minimum (Or.inr hm) h⟩

end SodiumDecl
