import ElectronicsCart.Core.Saga

/-!
# The saga coordinator

`SagaCoordinator.run` of `shared/workflow/saga-coordinator.service.ts` with the records it keeps:
the retry policy, the attempts of each step, and the failure that is read off the last caught
value.  The thrown values are a parameter; a condition sees whether one is truthy.

The workflow of `Core/Saga` is the case in which everything thrown is an error.
-/

namespace ElectronicsCart.Workflow

open Interleaving

/-- What a `catch` clause can ask of a thrown value. -/
class Caught (ε : Type) where
  truthy : ε → Bool
  errMsg : ε → String
  /-- `new Error(message)` -/
  error : String → ε
  truthy_error : ∀ message, truthy (error message) = true

/-- The labels of the clock reads and of the timers. -/
class Clocks (L : Type) where
  start : String → L
  deadline : ℕ → String → L
  timer : ℕ → String → L

/-- The states of `StepStatus` that are ever assigned. -/
inductive StepStatus where
  | pending | running | completed | failed | compensated
deriving DecidableEq, Repr

inductive Status where
  | running | compensating | completed | failed | timedOut
deriving DecidableEq, Repr

structure StepRecord where
  name : String
  status : StepStatus := .pending
  attempts : ℕ := 0
  error : Option String := none
deriving DecidableEq, Repr

/-- `RetryPolicy`.  A property that is there overrides, also when its value is `undefined`. -/
structure RetryPolicy where
  maxAttempts : Option (Option ℤ) := none
deriving DecidableEq, Repr

/-- `{ ...DEFAULT_RETRY, ...definition.retry, ...step.retry }.maxAttempts`. -/
def mergedAttempts (definition step : RetryPolicy) : Option ℤ :=
  (step.maxAttempts.or definition.maxAttempts).getD (some 1)

/-- How often `for (attempt = 1; attempt <= maxAttempts; attempt++)` runs. -/
def rounds : Option ℤ → ℕ
  | some n => n.toNat
  | none => 0

/-- `WorkflowStep`.  `execute` runs its synchronous part, and returns the promise or throws. -/
structure Step (L γ σ ε Ctx : Type) where
  name : String
  execute : Ctx → Prog L (Input γ) σ ε (Prog L (Input γ) σ ε (Ctx → Ctx))
  compensate : Option (Ctx → Prog L (Input γ) σ ε Unit) := none
  retry : RetryPolicy := {}

structure Definition (L γ σ ε Ctx : Type) where
  name : String
  steps : List (Step L γ σ ε Ctx)
  timeoutMs : ℕ := 60000
  retry : RetryPolicy := {}

structure Instance (Ctx : Type) where
  status : Status
  context : Ctx
  steps : List StepRecord
  currentStepIndex : ℕ := 0
  error : Option String := none

section Records

variable {Ctx : Type} {inst : Instance Ctx} {i j : ℕ} {f : StepRecord → StepRecord}

def Instance.setRecord (inst : Instance Ctx) (i : ℕ) (f : StepRecord → StepRecord) : Instance Ctx :=
  { inst with steps := inst.steps.modify i f }

theorem Instance.record_self {record : StepRecord} (h : inst.steps[i]? = some record) :
    (inst.setRecord i f).steps[i]? = some (f record) := by
  change (inst.steps.modify i f)[i]? = some (f record)
  rw [List.getElem?_modify_eq, h]
  rfl

theorem Instance.record_ne (h : i ≠ j) : (inst.setRecord i f).steps[j]? = inst.steps[j]? :=
  List.getElem?_modify_ne f inst.steps h

theorem Instance.length_setRecord : (inst.setRecord i f).steps.length = inst.steps.length :=
  List.length_modify _ _ _

/-- `currentStepIndex = i` and `record.status = 'running'`. -/
def Instance.begin (inst : Instance Ctx) (i : ℕ) : Instance Ctx :=
  { inst.setRecord i fun r => { r with status := .running } with currentStepIndex := i }

end Records

theorem next_of_drop {α : Type} {steps rest : List α} {step : α} {i : ℕ}
    (h : steps.drop i = step :: rest) : steps[i]? = some step ∧ steps.drop (i + 1) = rest := by
  refine ⟨?_, ?_⟩
  · rw [← List.head?_drop, h]
    rfl
  · rw [← List.tail_drop, h]
    rfl

namespace SagaCoordinator

variable {L γ σ ε Ctx α : Type} [Caught ε] [Clocks L]

/-- `Date.now()`. -/
def clock (l : L) : Prog L (Input γ) σ ε ℕ := Prog.call l fun i s => (.ok i.now, s)

def withTimeout (i : ℕ) (name : String) (promise : Prog L (Input γ) σ ε α) :
    Prog L (Input γ) σ ε α :=
  Prog.race (Clocks.timer i name) Input.timer
    (Caught.error ("Step \"" ++ name ++ "\" timed out")) promise

/-- The `try` block of one attempt. -/
def attemptOnce (i : ℕ) (step : Step L γ σ ε Ctx) (ctx : Ctx) : Prog L (Input γ) σ ε (Ctx → Ctx) := do
  let promise ← step.execute ctx
  withTimeout i step.name promise

/-- What the retry loop leaves: the attempts made, the patch of the one that resolved, and
`lastError` with `none` for its initial `undefined`. -/
structure Attempts (ε Ctx : Type) where
  made : ℕ
  patch : Option (Ctx → Ctx)
  lastError : Option ε

def attemptLoop (i : ℕ) (step : Step L γ σ ε Ctx) (ctx : Ctx) :
    ℕ → ℕ → Option ε → Prog L (Input γ) σ ε (Attempts ε Ctx)
  | 0, made, lastError => pure ⟨made, none, lastError⟩
  | n + 1, made, _ => do
    let outcome ← (attemptOnce i step ctx).attempt
    match outcome with
    | .ok patch => pure ⟨made + 1, some patch, none⟩
    | .error err => attemptLoop i step ctx n (made + 1) (some err)

def applyAttempts (i : ℕ) (a : Attempts ε Ctx) (inst : Instance Ctx) : Instance Ctx :=
  match a.patch with
  | some patch => { inst.setRecord i fun r => { r with status := .completed, attempts := a.made } with
      context := patch inst.context }
  | none => inst.setRecord i fun r => { r with attempts := a.made }

def noteCompensation (outcome : Except ε Unit) (record : StepRecord) : StepRecord :=
  match outcome with
  | .ok _ => { record with status := .compensated }
  | .error err => { record with error := some ("compensate: " ++ Caught.errMsg err) }

/-- The loop of `failAndCompensate` from step `i - 1` down. -/
def compensateFrom (definition : Definition L γ σ ε Ctx) :
    ℕ → Instance Ctx → Prog L (Input γ) σ ε (Instance Ctx)
  | 0, inst => pure inst
  | i + 1, inst =>
    match definition.steps[i]?.bind Step.compensate, inst.steps[i]? with
    | some compensate, some record =>
      if record.status = .completed then do
        let outcome ← (compensate inst.context).attempt
        compensateFrom definition i (inst.setRecord i (noteCompensation outcome))
      else compensateFrom definition i inst
    | _, _ => compensateFrom definition i inst

def failAndCompensate (definition : Definition L γ σ ε Ctx) (inst : Instance Ctx) (failedIndex : ℕ)
    (message : String) (status : Status) : Prog L (Input γ) σ ε (Instance Ctx) := do
  let inst ← compensateFrom definition failedIndex
    { inst with status := .compensating, error := some message }
  pure { inst with status := status }

/-- The loop over the steps from index `i` on. -/
def runSteps (definition : Definition L γ σ ε Ctx) (workflowDeadline : ℕ) :
    ℕ → List (Step L γ σ ε Ctx) → Instance Ctx → Prog L (Input γ) σ ε (Instance Ctx)
  | _, [], inst => pure { inst with status := .completed }
  | i, step :: rest, inst => do
    let now ← clock (Clocks.deadline i step.name)
    if workflowDeadline < now then
      failAndCompensate definition inst i "Workflow timed out" .timedOut
    else do
      let a ← attemptLoop i step inst.context
        (rounds (mergedAttempts definition.retry step.retry)) 0 none
      let inst := applyAttempts i a (inst.begin i)
      -- `if (lastError)`: a falsy value passes for none
      match a.lastError.filter Caught.truthy with
      | some err =>
        failAndCompensate definition
          (inst.setRecord i fun r => { r with status := .failed, error := some (Caught.errMsg err) })
          i (Caught.errMsg err) .failed
      | none => runSteps definition workflowDeadline (i + 1) rest inst

def initial (definition : Definition L γ σ ε Ctx) (initialContext : Ctx) : Instance Ctx where
  status := .running
  context := initialContext
  steps := definition.steps.map fun s => { name := s.name }

def run (definition : Definition L γ σ ε Ctx) (initialContext : Ctx) :
    Prog L (Input γ) σ ε (Instance Ctx) := do
  let start ← clock (Clocks.start definition.name)
  runSteps definition (start + definition.timeoutMs) 0 definition.steps
    (initial definition initialContext)

/-! ### Workflows in which everything thrown is an error -/

section Errors

instance : Caught Failure where
  truthy _ := true
  errMsg := Failure.message
  error := .error
  truthy_error _ := rfl

instance (priority := low) clocksOfTimed {L : Type} [Timed L] : Clocks L where
  start := Timed.deadline
  deadline _ := Timed.deadline
  timer _ := Timed.timer

variable {L γ σ Ctx : Type} [Timed L]

def stepOf (step : WorkflowStep L γ σ Ctx) : Step L γ σ Failure Ctx where
  name := step.name
  execute ctx := pure (step.execute ctx)
  compensate := step.compensate
  retry := ⟨some (some (step.retries + 1))⟩

def definitionOf (definition : WorkflowDefinition L γ σ Ctx) : Definition L γ σ Failure Ctx where
  name := definition.name
  steps := definition.steps.map stepOf
  timeoutMs := definition.timeoutMs

def Status.ended : Status → WorkflowStatus
  | .completed => .completed
  | .timedOut => .timedOut
  | _ => .failed

def summary (inst : Instance Ctx) : WorkflowInstance Ctx :=
  ⟨Status.ended inst.status, inst.context, inst.error⟩

omit [Timed L] in
theorem rounds_stepOf (retry : RetryPolicy) (step : WorkflowStep L γ σ Ctx) :
    rounds (mergedAttempts retry (stepOf step).retry) = step.retries + 1 := by
  simp [stepOf, mergedAttempts, rounds]

theorem attemptLoop_bind {α : Type} {i : ℕ} {step : WorkflowStep L γ σ Ctx} {ctx : Ctx}
    {k : Attempts Failure Ctx → Prog L (Input γ) σ Failure α}
    {g : Except Failure (Ctx → Ctx) → Prog L (Input γ) σ Failure α}
    (hok : ∀ made patch, k ⟨made, some patch, none⟩ = g (.ok patch))
    (herr : ∀ made e, k ⟨made, none, some e⟩ = g (.error e)) :
    ∀ n made last, (attemptLoop i (stepOf step) ctx (n + 1) made last).bind k =
      (ElectronicsCart.SagaCoordinator.attempts step ctx n).attempt.bind g := by
  have hone : attemptOnce i (stepOf step) ctx =
      ElectronicsCart.SagaCoordinator.withTimeout step.name (step.execute ctx) := rfl
  intro n
  induction n with
  | zero =>
    intro made last
    rw [attemptLoop, Prog.bind_eq, Prog.bind_assoc, hone]
    refine congrArg _ (funext fun r => ?_)
    cases r with
    | ok patch => exact hok _ patch
    | error e => exact herr _ e
  | succ n ih =>
    intro made last
    rw [attemptLoop, Prog.bind_eq, Prog.bind_assoc, hone, ElectronicsCart.SagaCoordinator.attempts,
      Prog.tryCatch_eq, Prog.orElse_attempt_bind]
    refine congrArg _ (funext fun r => ?_)
    cases r with
    | ok patch => exact hok _ patch
    | error e => exact ih _ _

/-- The steps behind index `i`, the last one first. -/
def behind (definition : WorkflowDefinition L γ σ Ctx) (i : ℕ) : List (WorkflowStep L γ σ Ctx) :=
  (definition.steps.take i).reverse

omit [Timed L] in
theorem behind_succ {definition : WorkflowDefinition L γ σ Ctx} {i : ℕ} {step : WorkflowStep L γ σ Ctx}
    (h : definition.steps[i]? = some step) :
    behind definition (i + 1) = step :: behind definition i := by
  rw [behind, behind, List.take_add_one, h, Option.toList_some, List.reverse_append]
  rfl

/-- The records before index `i` are those of completed steps. -/
def CompletedBefore (i : ℕ) (inst : Instance Ctx) : Prop :=
  ∀ j, j < i → ∃ record, inst.steps[j]? = some record ∧ record.status = .completed

theorem CompletedBefore.setRecord {i j : ℕ} {inst : Instance Ctx} (h : CompletedBefore i inst)
    (hj : i ≤ j) (f : StepRecord → StepRecord) : CompletedBefore i (inst.setRecord j f) := by
  intro k hk
  obtain ⟨record, hrec, hst⟩ := h k hk
  have hne : j ≠ k := by omega
  exact ⟨record, (Instance.record_ne hne).trans hrec, hst⟩

theorem CompletedBefore.applyAttempts {i : ℕ} {inst : Instance Ctx} (h : CompletedBefore i inst)
    (hi : i < inst.steps.length) (made : ℕ) (patch : Ctx → Ctx) :
    CompletedBefore (i + 1) (SagaCoordinator.applyAttempts i
      (⟨made, some patch, none⟩ : Attempts Failure Ctx) (inst.begin i)) := by
  intro j hj
  rcases Nat.lt_succ_iff_lt_or_eq.mp hj with hj | rfl
  · exact (h.setRecord (Nat.le_refl i) _).setRecord (Nat.le_refl i) _ j hj
  · have hrec : inst.steps[j]? = some inst.steps[j] := List.getElem?_eq_getElem hi
    exact ⟨_, Instance.record_self (Instance.record_self hrec), rfl⟩

omit [Timed L] in
theorem compensateFrom_bind {α : Type} {definition : WorkflowDefinition L γ σ Ctx} {ctx : Ctx}
    {message : Option String} {k : Instance Ctx → Prog L (Input γ) σ Failure α}
    {q : Prog L (Input γ) σ Failure α}
    (hk : ∀ inst : Instance Ctx, inst.context = ctx → inst.error = message → k inst = q) :
    ∀ i (inst : Instance Ctx), i ≤ definition.steps.length → CompletedBefore i inst →
      inst.context = ctx → inst.error = message →
      (compensateFrom (definitionOf definition) i inst).bind k =
        (ElectronicsCart.SagaCoordinator.compensateAll ctx (behind definition i)).bind fun _ => q := by
  intro i
  induction i with
  | zero =>
    intro inst _ _ hctx hmsg
    exact hk inst hctx hmsg
  | succ i ih =>
    intro inst hlen hbefore hctx hmsg
    obtain ⟨record, hrec, hst⟩ := hbefore i (Nat.lt_succ_self i)
    have hstep : definition.steps[i]? = some definition.steps[i] := List.getElem?_eq_getElem hlen
    have hof : (definitionOf definition).steps[i]?.bind Step.compensate =
        definition.steps[i].compensate := by
      simp [definitionOf, hstep, stepOf]
    rw [behind_succ hstep, ElectronicsCart.SagaCoordinator.compensateAll]
    unfold compensateFrom
    rw [hof, hrec]
    have hless : CompletedBefore i inst := fun j hj => hbefore j (by omega)
    cases hcomp : definition.steps[i].compensate with
    | none =>
      rw [List.filterMap_cons_none (by rw [hcomp]; rfl)]
      exact ih inst (by omega) hless hctx hmsg
    | some compensate =>
      rw [List.filterMap_cons_some (b := compensate ctx) (by rw [hcomp]; rfl), Prog.callAll,
        Prog.bind_assoc]
      dsimp only
      rw [if_pos hst, Prog.bind_eq, Prog.bind_assoc, hctx]
      refine congrArg _ (funext fun r => ?_)
      exact ih _ (by omega) (hless.setRecord (Nat.le_refl i) _) hctx hmsg

omit [Timed L] in
theorem failAndCompensate_bind {definition : WorkflowDefinition L γ σ Ctx} {i : ℕ}
    {inst : Instance Ctx} (hlen : i ≤ definition.steps.length) (h : CompletedBefore i inst)
    (message : String) (status : Status) :
    (failAndCompensate (definitionOf definition) inst i message status).bind
        (fun inst => pure (summary inst)) =
      ElectronicsCart.SagaCoordinator.failAndCompensate inst.context (behind definition i) message
        (Status.ended status) := by
  rw [failAndCompensate, Prog.bind_eq, Prog.bind_assoc]
  refine compensateFrom_bind (fun inst hctx hmsg => ?_) i _ hlen h rfl rfl
  simp [summary, hctx, hmsg]

theorem runSteps_bind {definition : WorkflowDefinition L γ σ Ctx} {deadline : ℕ} :
    ∀ (rest : List (WorkflowStep L γ σ Ctx)) (i : ℕ) (inst : Instance Ctx),
      definition.steps.drop i = rest → i ≤ definition.steps.length →
      inst.steps.length = definition.steps.length →
      CompletedBefore i inst → inst.error = none →
      (runSteps (definitionOf definition) deadline i (rest.map stepOf) inst).bind
          (fun inst => pure (summary inst)) =
        ElectronicsCart.SagaCoordinator.runSteps deadline rest (behind definition i) inst.context := by
  intro rest
  induction rest with
  | nil =>
    intro i inst _ _ _ _ herr
    simp [runSteps, ElectronicsCart.SagaCoordinator.runSteps, summary, herr, Status.ended]
  | cons step rest ih =>
    intro i inst hdrop hlen hrecords hbefore herr
    obtain ⟨hstep, hdrop'⟩ := next_of_drop hdrop
    have hlt : i < definition.steps.length := (List.getElem?_eq_some_iff.mp hstep).1
    rw [List.map_cons, runSteps, ElectronicsCart.SagaCoordinator.runSteps, Prog.bind_eq, Prog.bind_assoc]
    refine congrArg _ (funext fun now => ?_)
    split
    · exact failAndCompensate_bind hlen hbefore _ _
    rw [Prog.bind_eq, Prog.bind_assoc, rounds_stepOf]
    refine attemptLoop_bind (fun made patch => ?_) (fun made e => ?_) _ _ _
    · have hlength : (applyAttempts i (⟨made, some patch, none⟩ : Attempts Failure Ctx)
          (inst.begin i)).steps.length = definition.steps.length :=
        Instance.length_setRecord.trans (Instance.length_setRecord.trans hrecords)
      have hnext := ih (i + 1) _ hdrop' hlt hlength
        (hbefore.applyAttempts (hrecords ▸ hlt) made patch) herr
      rw [behind_succ hstep] at hnext
      exact hnext
    · have hfailed : CompletedBefore i (Instance.setRecord (applyAttempts i
          (⟨made, none, some e⟩ : Attempts Failure Ctx) (inst.begin i)) i
          fun r => { r with status := .failed, error := some (Caught.errMsg e) }) :=
        ((hbefore.setRecord (Nat.le_refl i) _).setRecord (Nat.le_refl i) _).setRecord (Nat.le_refl i) _
      exact failAndCompensate_bind hlen hfailed _ _

theorem run_bind (definition : WorkflowDefinition L γ σ Ctx) (ctx : Ctx) :
    (run (definitionOf definition) ctx).bind (fun inst => pure (summary inst)) =
      ElectronicsCart.SagaCoordinator.run definition ctx := by
  rw [run, ElectronicsCart.SagaCoordinator.run, Prog.bind_eq, Prog.bind_assoc]
  refine congrArg _ (funext fun start => ?_)
  refine runSteps_bind definition.steps 0 _ rfl (Nat.zero_le _) ?_
    (fun j hj => absurd hj (Nat.not_lt_zero j)) rfl
  simp [initial, definitionOf]

end Errors

end SagaCoordinator

end ElectronicsCart.Workflow
