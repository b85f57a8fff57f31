import Mathlib.Data.Option.Basic

/-!
# Runs of a partial step function

A system that takes one event at a time, through a step that may fail: `none` when the event
cannot happen in the state, or the system stops there. `exec` is the state after a list of
events, and `Reachable` the states some list of events leads to from an initial one.

The lemmas take a run apart at its first event and at an append, and carry a property that every
step keeps along a whole run: the induction rule the invariants of a protocol are proved with.
-/

namespace StepRun

variable {σ ε : Type} (step : σ → ε → Option σ)

/-- The state after the events of a list, one after the other; `none` once a step fails. -/
def exec : σ → List ε → Option σ
  | s, [] => some s
  | s, e :: es => (step s e).bind fun s' => exec s' es

/-- The states that some list of events leads to from `init`. -/
def Reachable (init s : σ) : Prop := ∃ es, exec step init es = some s

variable {step}

@[simp] theorem exec_nil (s : σ) : exec step s [] = some s := rfl

theorem exec_cons (s : σ) (e : ε) (es : List ε) :
    exec step s (e :: es) = (step s e).bind fun s' => exec step s' es := rfl

theorem exec_cons_eq_some {s s'' : σ} {e : ε} {es : List ε} :
    exec step s (e :: es) = some s'' ↔ ∃ s', step s e = some s' ∧ exec step s' es = some s'' :=
  Option.bind_eq_some_iff

theorem exec_append (s : σ) (es es' : List ε) :
    exec step s (es ++ es') = (exec step s es).bind fun s' => exec step s' es' := by
  induction es generalizing s with
  | nil => rfl
  | cons e es ih =>
    rw [List.cons_append, exec_cons, exec_cons]
    cases step s e with
    | none => rfl
    | some s' => exact ih s'

/-- The induction rule of runs: a property that every step keeps holds at the end of every run
that starts in it. -/
theorem exec_invariant (P : σ → Prop) (hstep : ∀ s e s', P s → step s e = some s' → P s')
    {s s' : σ} {es : List ε} (h : exec step s es = some s') (hs : P s) : P s' := by
  induction es generalizing s with
  | nil =>
    cases h
    exact hs
  | cons e es ih =>
    obtain ⟨s₁, h₁, hrest⟩ := exec_cons_eq_some.mp h
    exact ih hrest (hstep s e s₁ hs h₁)

/-- A run never fails from a state of an invariant when every step from such a state succeeds
and keeps it. -/
theorem exec_eq_some (P : σ → Prop) (hstep : ∀ s e, P s → ∃ s', step s e = some s' ∧ P s')
    {s : σ} (hs : P s) (es : List ε) : ∃ s', exec step s es = some s' ∧ P s' := by
  induction es generalizing s with
  | nil => exact ⟨s, rfl, hs⟩
  | cons e es ih =>
    obtain ⟨s₁, h₁, hs₁⟩ := hstep s e hs
    rw [exec_cons, h₁, Option.bind_some]
    exact ih hs₁

variable (step) in
/-- Every event of a run meets `guard` in the state it happens in: the runs a property holds of
when it rests on assumptions about the events. -/
def Guarded (guard : σ → ε → Prop) : σ → List ε → Prop
  | _, [] => True
  | s, e :: es => guard s e ∧ ∀ s', step s e = some s' → Guarded guard s' es

/-- The induction rule of guarded runs: a property that every step meeting the guard keeps holds
at the end of every guarded run that starts in it. -/
theorem exec_invariant_guarded (P : σ → Prop) {guard : σ → ε → Prop}
    (hstep : ∀ s e s', P s → guard s e → step s e = some s' → P s')
    {s s' : σ} {es : List ε} (h : exec step s es = some s') (hg : Guarded step guard s es)
    (hs : P s) : P s' := by
  induction es generalizing s with
  | nil =>
    cases h
    exact hs
  | cons e es ih =>
    obtain ⟨s₁, h₁, hrest⟩ := exec_cons_eq_some.mp h
    obtain ⟨hge, hgrest⟩ := hg
    exact ih hrest (hgrest s₁ h₁) (hstep s e s₁ hs hge h₁)

/-- Total correctness of guarded runs: when every step meeting the guard from a state of an
invariant succeeds and keeps it, every guarded run from such a state returns, in a state of the
invariant. -/
theorem exec_eq_some_guarded (P : σ → Prop) {guard : σ → ε → Prop}
    (hstep : ∀ s e, P s → guard s e → ∃ s', step s e = some s' ∧ P s')
    {s : σ} {es : List ε} (hg : Guarded step guard s es) (hs : P s) :
    ∃ s', exec step s es = some s' ∧ P s' := by
  induction es generalizing s with
  | nil => exact ⟨s, rfl, hs⟩
  | cons e es ih =>
    obtain ⟨hge, hgrest⟩ := hg
    obtain ⟨s₁, h₁, hs₁⟩ := hstep s e hs hge
    rw [exec_cons, h₁, Option.bind_some]
    exact ih (hgrest s₁ h₁) hs₁

/-- A guarded run that starts with a step that succeeds: its first event meets the guard, and the
rest of the run is guarded from the state the step leads to. -/
theorem guarded_cons {guard : σ → ε → Prop} {s s' : σ} {e : ε} {es : List ε} (h : step s e = some s')
    (hg : guard s e) (hrest : Guarded step guard s' es) : Guarded step guard s (e :: es) := by
  refine ⟨hg, fun s'' h'' => ?_⟩
  rw [h, Option.some.injEq] at h''
  subst h''
  exact hrest

namespace Reachable

variable {init s s' : σ}

theorem refl (init : σ) : Reachable step init init := ⟨[], rfl⟩

/-- A run from a reachable state ends in a reachable state. -/
theorem exec (h : Reachable step init s) {es : List ε} (hs : StepRun.exec step s es = some s') :
    Reachable step init s' := by
  obtain ⟨es₀, h₀⟩ := h
  refine ⟨es₀ ++ es, ?_⟩
  rw [exec_append, h₀]
  exact hs

/-- An invariant that holds initially and that every step keeps holds in every reachable
state. -/
theorem invariant (P : σ → Prop) (hinit : P init)
    (hstep : ∀ s e s', P s → step s e = some s' → P s') (h : Reachable step init s) : P s := by
  obtain ⟨es, hes⟩ := h
  exact exec_invariant P hstep hes hinit

end Reachable

end StepRun
