import ElectronicsCart.Workflow.Coordinator
import ElectronicsCart.Lib.Histories

/-!
# Observed workflows

A workflow whose steps do nothing but note their calls: each attempt resolves, rejects or throws as
its environment says, at a time of its own.  Everything the coordinator can see of a step is such an
outcome, so these are all workflows.
-/

namespace ElectronicsCart.Workflow

open Interleaving

/-- A thrown value: whether a condition takes it for true, and its text. -/
structure Thrown where
  truthy : Bool
  text : String
deriving DecidableEq, Repr

namespace Thrown

def error (message : String) : Thrown := ⟨true, message⟩

def undefined : Thrown := ⟨false, "undefined"⟩

def null : Thrown := ⟨false, "null"⟩

def zero : Thrown := ⟨false, "0"⟩

def emptyString : Thrown := ⟨false, ""⟩

end Thrown

instance : Caught Thrown where
  truthy := Thrown.truthy
  errMsg := Thrown.text
  error := Thrown.error
  truthy_error _ := rfl

inductive WorkflowCall where
  | start | deadline (i : ℕ) | timer (i : ℕ) | execute (i : ℕ) | settle (i : ℕ) | compensate (i : ℕ)
deriving DecidableEq, Repr

instance : Clocks WorkflowCall where
  start _ := .start
  deadline i _ := .deadline i
  timer i _ := .timer i

inductive Outcome (Ctx : Type) where
  | resolves (patch : Ctx → Ctx)
  | rejects (value : Thrown)
  /-- before it returned a promise -/
  | throws (value : Thrown)

def Outcome.result {Ctx : Type} : Outcome Ctx → Except Thrown (Ctx → Ctx)
  | .resolves patch => .ok patch
  | .rejects value => .error value
  | .throws value => .error value

/-- The calls that were made, in order, with the executions that have not settled yet. -/
structure Journal where
  executions : List ℕ := []
  inProgress : List ℕ := []
  resolved : List ℕ := []
  compensations : List ℕ := []
  compensated : List ℕ := []
deriving DecidableEq, Repr

/-- A step without its functions. -/
structure Shape where
  name : String := ""
  compensates : Bool := false
  retry : RetryPolicy := {}
deriving DecidableEq, Repr

structure Plan where
  name : String := ""
  steps : List Shape
  timeoutMs : ℕ := 60000
  retry : RetryPolicy := {}
deriving DecidableEq, Repr

abbrev Observed (Ctx α : Type) := Prog WorkflowCall (Input (Outcome Ctx)) Journal Thrown α

section Observe

variable {Ctx : Type}

def Journal.settle (j : ℕ) (outcome : Outcome Ctx) (s : Journal) : Journal :=
  { s with
    inProgress := s.inProgress.erase j
    resolved := match outcome with
      | .resolves _ => s.resolved ++ [j]
      | _ => s.resolved }

def Journal.execute (j : ℕ) (outcome : Outcome Ctx) (s : Journal) : Journal :=
  { s with
    executions := s.executions ++ [j]
    inProgress := match outcome with
      | .throws _ => s.inProgress
      | _ => s.inProgress ++ [j] }

def Journal.compensate (j : ℕ) (outcome : Outcome Ctx) (s : Journal) : Journal :=
  { s with
    compensations := s.compensations ++ [j]
    compensated := match outcome with
      | .resolves _ => s.compensated ++ [j]
      | _ => s.compensated }

def promise (j : ℕ) : Observed Ctx (Ctx → Ctx) :=
  Prog.call (.settle j) fun i s => (i.reply.result, s.settle j i.reply)

def execution (j : ℕ) (_ : Ctx) : Observed Ctx (Observed Ctx (Ctx → Ctx)) :=
  Prog.call (.execute j) fun i s =>
    (match i.reply with
      | .throws value => .error value
      | _ => .ok (promise j), s.execute j i.reply)

def compensation (j : ℕ) (_ : Ctx) : Observed Ctx Unit :=
  Prog.call (.compensate j) fun i s => (i.reply.result.map fun _ => (), s.compensate j i.reply)

def observedStep (j : ℕ) (shape : Shape) : Step WorkflowCall (Outcome Ctx) Journal Thrown Ctx where
  name := shape.name
  execute := execution j
  compensate := if shape.compensates then some (compensation j) else none
  retry := shape.retry

def Plan.definition (plan : Plan) : Definition WorkflowCall (Outcome Ctx) Journal Thrown Ctx where
  name := plan.name
  steps := plan.steps.mapIdx observedStep
  timeoutMs := plan.timeoutMs
  retry := plan.retry

def Plan.run (plan : Plan) (ctx : Ctx) : Observed Ctx (Instance Ctx) :=
  SagaCoordinator.run plan.definition ctx

end Observe

/-- How often step `j` may be attempted. -/
def Plan.maxAttempts (plan : Plan) (j : ℕ) : ℕ :=
  match plan.steps[j]? with
  | some shape => rounds (mergedAttempts plan.retry shape.retry)
  | none => 0

def Plan.compensates (plan : Plan) (j : ℕ) : Bool :=
  match plan.steps[j]? with
  | some shape => shape.compensates
  | none => false

section Lookup

variable {Ctx : Type} {plan : Plan} {j : ℕ} {step : Step WorkflowCall (Outcome Ctx) Journal Thrown Ctx}

theorem Plan.step_eq (h : (plan.definition : Definition _ _ _ _ Ctx).steps[j]? = some step) :
    ∃ shape, plan.steps[j]? = some shape ∧ step = observedStep j shape := by
  have hmap : (plan.steps.mapIdx observedStep :
      List (Step WorkflowCall (Outcome Ctx) Journal Thrown Ctx))[j]? = some step := h
  rw [List.getElem?_mapIdx, Option.map_eq_some_iff] at hmap
  obtain ⟨shape, hshape, heq⟩ := hmap
  exact ⟨shape, hshape, heq.symm⟩

theorem Plan.length_steps (Ctx : Type) (plan : Plan) :
    (plan.definition : Definition _ _ _ _ Ctx).steps.length = plan.steps.length :=
  List.length_mapIdx

theorem Plan.rounds_eq {shape : Shape} (h : plan.steps[j]? = some shape) :
    rounds (mergedAttempts (plan.definition : Definition _ _ _ _ Ctx).retry
      (observedStep j shape : Step _ _ _ _ Ctx).retry) = plan.maxAttempts j := by
  simp only [Plan.maxAttempts, h]
  rfl

theorem Plan.compensate_eq {compensate : Ctx → Observed Ctx Unit}
    (h : (plan.definition : Definition _ _ _ _ Ctx).steps[j]?.bind Step.compensate = some compensate) :
    plan.compensates j = true ∧ compensate = compensation j := by
  obtain ⟨step, hstep, hsome⟩ := Option.bind_eq_some_iff.mp h
  obtain ⟨shape, hshape, rfl⟩ := Plan.step_eq hstep
  unfold observedStep at hsome
  dsimp only at hsome
  split at hsome
  next hc =>
    cases hsome
    exact ⟨by simpa [Plan.compensates, hshape] using hc, rfl⟩
  · cases hsome

theorem Plan.compensation_eq (h : plan.compensates j = true) :
    (plan.definition : Definition _ _ _ _ Ctx).steps[j]?.bind Step.compensate = some (compensation j) := by
  unfold Plan.compensates at h
  split at h
  next shape hshape =>
    have hstep : (plan.definition : Definition _ _ _ _ Ctx).steps[j]? = some (observedStep j shape) := by
      change (plan.steps.mapIdx observedStep)[j]? = _
      rw [List.getElem?_mapIdx, hshape, Option.map_some]
    rw [hstep, Option.bind_some]
    exact if_pos h
  · cases h

end Lookup

/-- Calls that end so, before any timer fires. -/
def replies {Ctx : Type} (outcomes : List (Outcome Ctx)) : List (Input (Outcome Ctx)) :=
  outcomes.map fun outcome => { reply := outcome }

end ElectronicsCart.Workflow
