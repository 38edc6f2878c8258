import SodiumDecl.Generate
import SodiumDecl.Proofs.Results

/-!
# Runs as functions

`Run.outcome` is a run as a function of the world. The `outcome_` lemmas say what each step
of a run does, so that no proof has to open the monad again.

`Run.Keeps P m Q` says that `m` keeps a property of the files, whether it fails or not, and
what it gives has another. It goes through a sequence of steps one by one (`Keeps.bind`), and
a step that reads the files may use that they have the property (`Keeps.files`). `Run.Leaves`
is for results that leave one kind of files when they are errors and another when they are not.
-/

namespace SodiumDecl

namespace Run

variable {α β : Type}

/-- What a run gives in a world, and the world after it. -/
def outcome (m : Run α) (w : World) : Except Error α × World := m.run.run w

/-! ## Steps -/

@[simp] theorem outcome_pure (a : α) (w : World) : outcome (pure a) w = (.ok a, w) := rfl

@[simp] theorem outcome_throw (e : Error) (w : World) :
    outcome (throw e : Run α) w = (.error e, w) := rfl

theorem outcome_bind (m : Run α) (f : α → Run β) (w : World) :
    (m >>= f).outcome w =
      match m.outcome w with
      | (.ok a, w') => (f a).outcome w'
      | (.error e, w') => (.error e, w') := by
  simp only [outcome, ExceptT.run_bind, StateT.run_bind]
  cases h : StateT.run (ExceptT.run m) w with
  | mk r w' => cases r <;> rfl

theorem outcome_bind_ok {m : Run α} {f : α → Run β} {w w' : World} {a : α}
    (h : m.outcome w = (.ok a, w')) : (m >>= f).outcome w = (f a).outcome w' := by
  rw [outcome_bind, h]

theorem outcome_bind_error {m : Run α} {f : α → Run β} {w w' : World} {e : Error}
    (h : m.outcome w = (.error e, w')) : (m >>= f).outcome w = (.error e, w') := by
  rw [outcome_bind, h]

@[simp] theorem outcome_log (e : Event) (w : World) :
    (log e).outcome w = (.ok (), { w with events := w.events ++ [e] }) := rfl

@[simp] theorem outcome_get (w : World) : (get : Run World).outcome w = (.ok w, w) := rfl

@[simp] theorem outcome_files (w : World) : files.outcome w = (.ok w.files, w) := rfl

@[simp] theorem outcome_setFiles (t : FileTree) (w : World) :
    (setFiles t).outcome w = (.ok (), { w with files := t }) := rfl

@[simp] theorem outcome_ofExcept (r : Except Error α) (w : World) :
    (ofExcept r).outcome w = (r, w) := by
  cases r <;> rfl

theorem outcome_onFailure (cleanup : Run Unit) (body : Run α) (w : World) :
    (onFailure cleanup body).outcome w =
      match body.outcome w with
      | (.ok a, w') => (.ok a, w')
      | (.error e, w') => (cleanup >>= fun _ => throw e : Run α).outcome w' := by
  simp only [outcome, onFailure, tryCatch, tryCatchThe, MonadExceptOf.tryCatch,
    ExceptT.tryCatch, ExceptT.run_mk, StateT.run_bind]
  cases h : StateT.run (ExceptT.run body) w with
  | mk r w' =>
    have h' : StateT.run body w = (r, w') := h
    rw [h']
    cases r <;> rfl

/-- A cleanup that does nothing. -/
theorem outcome_andThen_pure (body : Run α) (w : World) :
    (andThen (pure ()) body).outcome w = body.outcome w := by
  rw [andThen, outcome_bind, outcome_onFailure]
  cases body.outcome w with
  | mk r w' => cases r <;> simp

/-! ## Properties of the files -/

/-- A run keeps a property of the files, and what it gives has another property. -/
def Keeps (P : FileTree → Prop) (m : Run α) (Q : α → Prop) : Prop :=
  ∀ w, P w.files → P (m.outcome w).2.files ∧ ∀ a, (m.outcome w).1 = .ok a → Q a

variable {P : FileTree → Prop} {Q : α → Prop} {R : β → Prop}

theorem Keeps.mono {Q' : α → Prop} {m : Run α} (h : Keeps P m Q) (hq : ∀ a, Q a → Q' a) :
    Keeps P m Q' := fun w hw => ⟨(h w hw).1, fun a ha => hq a ((h w hw).2 a ha)⟩

theorem Keeps.pure {a : α} (h : Q a) : Keeps P (pure a : Run α) Q := by
  refine fun _ hw => ⟨hw, fun b hb => ?_⟩
  obtain rfl : a = b := by simpa using hb
  exact h

theorem Keeps.throw (e : Error) : Keeps P (throw e : Run α) Q := by
  refine fun _ hw => ⟨hw, fun b hb => ?_⟩
  simp at hb

/-- A change of the records alone keeps all properties of the files. -/
theorem Keeps.modify {f : World → World} (h : ∀ w, (f w).files = w.files) :
    Keeps P (modify f : Run PUnit) fun _ => True := by
  refine fun w hw => ⟨?_, fun _ _ => trivial⟩
  show P (f w).files
  rwa [h]

theorem Keeps.log (e : Event) : Keeps P (log e) fun _ => True := Keeps.modify fun _ => rfl

theorem Keeps.setFiles {t : FileTree} (h : P t) : Keeps P (setFiles t) fun _ => True :=
  fun _ _ => ⟨h, fun _ _ => trivial⟩

theorem Keeps.bind {m : Run α} {f : α → Run β} (hm : Keeps P m Q)
    (hf : ∀ a, Q a → Keeps P (f a) R) : Keeps P (m >>= f) R := by
  intro w hw
  obtain ⟨hp, hq⟩ := hm w hw
  cases ho : m.outcome w with
  | mk r w' =>
    rw [ho] at hp hq
    cases r with
    | ok a =>
      rw [outcome_bind_ok ho]
      exact hf a (hq a rfl) w' hp
    | error e =>
      rw [outcome_bind_error ho]
      exact ⟨hp, fun b hb => by simp at hb⟩

/-- A step that reads the files finds them with the property. -/
theorem Keeps.files {f : FileTree → Run β} (hf : ∀ t, P t → Keeps P (f t) R) :
    Keeps P (Run.files >>= f) R := by
  intro w hw
  rw [outcome_bind_ok (outcome_files w)]
  exact hf w.files hw w hw

theorem Keeps.forM {f : α → Run PUnit} (hf : ∀ a, Keeps P (f a) fun _ => True) (as : List α) :
    Keeps P (as.forM f) fun _ => True := by
  induction as with
  | nil => exact Keeps.pure trivial
  | cons a as ih => exact (hf a).bind fun _ _ => ih

/-- A run that fails leaves files with one property, and a run that gives a result files with
another, which may depend on the result. -/
structure Leaves (x : Except Error α × World) (E : FileTree → Prop) (S : α → FileTree → Prop) :
    Prop where
  error : ∀ e w, x = (.error e, w) → E w.files
  ok : ∀ a w, x = (.ok a, w) → S a w.files

variable {E : FileTree → Prop} {S : α → FileTree → Prop}

theorem leaves_error {e : Error} {w : World} : Leaves (.error e, w) E S ↔ E w.files := by
  refine ⟨fun h => h.error e w rfl, fun h => ⟨fun e' w' hx => ?_, fun a w' hx => by simp at hx⟩⟩
  obtain ⟨-, rfl⟩ := Prod.mk.inj hx
  exact h

theorem leaves_ok {a : α} {w : World} : Leaves (.ok a, w) E S ↔ S a w.files := by
  refine ⟨fun h => h.ok a w rfl, fun h => ⟨fun e w' hx => by simp at hx, fun b w' hx => ?_⟩⟩
  obtain ⟨hb, rfl⟩ := Prod.mk.inj hx
  exact Except.ok.inj hb ▸ h

/-- What a run keeps, it leaves. -/
theorem Keeps.leaves {m : Run α} (h : Keeps P m Q) {w : World} (hw : P w.files) :
    Leaves (m.outcome w) P fun a u => Q a ∧ P u := by
  obtain ⟨hp, hq⟩ := h w hw
  refine ⟨fun e w' ho => ?_, fun a w' ho => ?_⟩
  · rwa [ho] at hp
  · rw [ho] at hp hq
    exact ⟨hq a rfl, hp⟩

theorem Leaves.mono {x : Except Error α × World} {E' : FileTree → Prop}
    {S' : α → FileTree → Prop} (h : Leaves x E S) (he : ∀ u, E u → E' u)
    (hs : ∀ a u, S a u → S' a u) : Leaves x E' S' :=
  ⟨fun e w hx => he _ (h.error e w hx), fun a w hx => hs a _ (h.ok a w hx)⟩

theorem Leaves.bind {m : Run α} {f : α → Run β} {w : World} {T : β → FileTree → Prop}
    (hm : Leaves (m.outcome w) E S) (hf : ∀ a w', S a w'.files → Leaves ((f a).outcome w') E T) :
    Leaves ((m >>= f).outcome w) E T := by
  rw [outcome_bind]
  cases ho : m.outcome w with
  | mk r w' =>
    cases r with
    | ok a => exact hf a w' (hm.ok a w' ho)
    | error e => exact leaves_error.mpr (hm.error e w' ho)

/-- A run that fails leaves what the cleanup makes of it. -/
theorem Leaves.onFailure {cleanup : Run Unit} {body : Run α} {w : World} {E' : FileTree → Prop}
    (hb : Leaves (body.outcome w) E S) (hc : ∀ w', E w'.files → E' (cleanup.outcome w').2.files) :
    Leaves ((onFailure cleanup body).outcome w) E' S := by
  rw [outcome_onFailure]
  cases ho : body.outcome w with
  | mk r w' =>
    cases r with
    | ok a => exact leaves_ok.mpr (hb.ok a w' ho)
    | error e =>
      have hw := hc w' (hb.error e w' ho)
      dsimp only
      rw [outcome_bind]
      cases hr : cleanup.outcome w' with
      | mk r' w'' =>
        rw [hr] at hw
        cases r' with
        | ok _ => exact leaves_error.mpr hw
        | error _ => exact leaves_error.mpr hw

end Run

end SodiumDecl
