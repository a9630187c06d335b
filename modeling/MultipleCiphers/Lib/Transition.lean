import Mathlib.Logic.Relation

/-!
# Runs of a transition system

A system is a step relation `step : S → A → S → Prop` over states and actions. A run is a list of
actions, and what a verification needs about runs is always the same two facts: an invariant that
every step keeps is kept by every run, and a property that every *guarded* step keeps is kept by
every run whose steps all meet the guard. Both are proved here once, by induction on the run, so
that a client is left with a statement about one step.

`Run` is a run; `GuardedRun` is one whose steps all meet a guard on the state before the step and
the action; `Always` is one whose states all have a property.

## Main results

* `Run.invariant` — an invariant of the steps is an invariant of the runs.
* `GuardedRun.invariant` — the same when the steps keep the invariant only under a guard, and
  every step of the run meets it.
* `Run.of_foldlM` — where the steps are a function, a run can be computed.
* `GuardedRun.mem` — a guard may ask that the action is one of the run.
* `guardedRun_iff_always` — a guard on the steps that is exactly what a property of the states
  needs.
-/

namespace Transition

variable {S A : Type*}

/-- `Run step s as s'`: taking the actions `as` in order leads from `s` to `s'`. -/
inductive Run (step : S → A → S → Prop) : S → List A → S → Prop where
  | nil (s : S) : Run step s [] s
  | cons {s t u : S} {a : A} {as : List A} :
      step s a t → Run step t as u → Run step s (a :: as) u

/-- Every step taken along the run meets `G`, a guard on the state before the step and the
action. -/
inductive GuardedRun (step : S → A → S → Prop) (G : S → A → Prop) : S → List A → S → Prop where
  | nil (s : S) : GuardedRun step G s [] s
  | cons {s t u : S} {a : A} {as : List A} :
      G s a → step s a t → GuardedRun step G t as u → GuardedRun step G s (a :: as) u

/-- Every state the run comes through has the property. -/
def Always (step : S → A → S → Prop) (P : S → Prop) (s : S) (as : List A) (t : S) : Prop :=
  GuardedRun step (fun s _ => P s) s as t ∧ P t

variable {step : S → A → S → Prop} {G : S → A → Prop}

theorem Run.of_foldlM {f : S → A → Option S} {s t : S} {as : List A}
    (h : as.foldlM f s = some t) : Run (fun s a t => f s a = some t) s as t := by
  induction as generalizing s with
  | nil =>
    obtain rfl := Option.some_inj.mp h
    exact Run.nil s
  | cons a as ih =>
    obtain ⟨u, hu, hrest⟩ := Option.bind_eq_some_iff.mp h
    exact Run.cons hu (ih hrest)

theorem GuardedRun.run {s t : S} {as : List A} (h : GuardedRun step G s as t) :
    Run step s as t := by
  induction h with
  | nil s => exact Run.nil s
  | cons _ hs _ ih => exact Run.cons hs ih

/-- The actions of a run are those of its list. -/
theorem GuardedRun.mem {s t : S} {as : List A} (h : GuardedRun step G s as t) :
    GuardedRun step (fun s a => G s a ∧ a ∈ as) s as t := by
  have hall : ∀ bs : List A, (∀ a ∈ as, a ∈ bs) →
      GuardedRun step (fun s a => G s a ∧ a ∈ bs) s as t := by
    intro bs
    induction h with
    | nil s => exact fun _ => GuardedRun.nil s
    | cons hg hst _ ih =>
      intro hmem
      exact GuardedRun.cons ⟨hg, hmem _ List.mem_cons_self⟩ hst
        (ih fun a ha => hmem a (List.mem_cons_of_mem _ ha))
  exact hall as fun _ ha => ha

/-- **The invariant rule.** What every step keeps, every run keeps. -/
theorem Run.invariant (Inv : S → Prop) {s t : S} {as : List A} (h : Run step s as t)
    (hstep : ∀ {s t : S} {a : A}, Inv s → step s a t → Inv t) (hs : Inv s) : Inv t := by
  induction h with
  | nil s => exact hs
  | cons hst _ ih => exact ih (hstep hs hst)

/-- **The guarded invariant rule.** What every guarded step keeps, every run of guarded steps
keeps. -/
theorem GuardedRun.invariant (Inv : S → Prop) {s t : S} {as : List A}
    (h : GuardedRun step G s as t)
    (hstep : ∀ {s t : S} {a : A}, Inv s → G s a → step s a t → Inv t) (hs : Inv s) : Inv t := by
  induction h with
  | nil s => exact hs
  | cons hg hst _ ih => exact ih (hstep hs hg hst)

/-- The first state of a run is one of its states. -/
theorem Always.first {P : S → Prop} {s t : S} {as : List A} (h : Always step P s as t) : P s := by
  obtain ⟨hrun, hlast⟩ := h
  cases hrun with
  | nil => exact hlast
  | cons hs _ _ => exact hs

/-- **The exact guard.** If the guard says of every step whether the property survives it, the runs
of guarded steps are the ones whose states all have the property. -/
theorem guardedRun_iff_always {P : S → Prop} (Inv : S → Prop)
    (hstep : ∀ {s t : S} {a : A}, Inv s → step s a t → Inv t)
    (hguard : ∀ {s t : S} {a : A}, Inv s → P s → step s a t → (P t ↔ G s a)) {s t : S}
    {as : List A} (hs : Inv s) (hP : P s) : GuardedRun step G s as t ↔ Always step P s as t := by
  constructor
  · intro h
    induction h with
    | nil s => exact ⟨GuardedRun.nil s, hP⟩
    | cons hg hst _ ih =>
      obtain ⟨hrun, hlast⟩ := ih (hstep hs hst) ((hguard hs hP hst).mpr hg)
      exact ⟨GuardedRun.cons hP hst hrun, hlast⟩
  · rintro ⟨h, hlast⟩
    induction h with
    | nil s => exact GuardedRun.nil s
    | cons _ hst hrun ih =>
      have hP' := Always.first ⟨hrun, hlast⟩
      exact GuardedRun.cons ((hguard hs hP hst).mp hP') hst (ih (hstep hs hst) hP' hlast)

end Transition
