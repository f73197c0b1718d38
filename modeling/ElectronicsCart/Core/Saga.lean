import ElectronicsCart.Core.Alone

/-!
# Sagas

`SagaCoordinator` of `shared/workflow/saga-coordinator.service.ts`: the steps of a workflow
run in order, each with a number of attempts and a timer; when a step fails, the steps that
completed before it are compensated in reverse.  An attempt whose timer fires is given up, not
stopped: its calls go on beside the rest of the workflow.

The store of running workflows and the pauses between attempts are left out.
-/

namespace ElectronicsCart

open Interleaving

/-- The labels of a workflow's clock reads and timers. -/
class Timed (L : Type) where
  deadline : String → L
  timer : String → L

/-- `WorkflowStep`.  `retries` counts the attempts after the first one (`maxAttempts - 1`);
`execute` returns what `Object.assign` does to the context. -/
structure WorkflowStep (L γ σ Ctx : Type) where
  name : String
  execute : Ctx → Prog L (Input γ) σ Failure (Ctx → Ctx)
  compensate : Option (Ctx → Prog L (Input γ) σ Failure Unit) := none
  retries : ℕ := 0

structure WorkflowDefinition (L γ σ Ctx : Type) where
  name : String
  steps : List (WorkflowStep L γ σ Ctx)
  timeoutMs : ℕ := 60000

inductive WorkflowStatus where
  | completed | failed | timedOut
deriving DecidableEq, Repr

structure WorkflowInstance (Ctx : Type) where
  status : WorkflowStatus
  context : Ctx
  error : Option String

namespace SagaCoordinator

variable {L γ σ Ctx α : Type} [Timed L]

/-- `Date.now()`. -/
def clock (name : String) : Prog L (Input γ) σ Failure ℕ :=
  Prog.call (Timed.deadline name) fun i s => (.ok i.now, s)

def withTimeout (name : String) (p : Prog L (Input γ) σ Failure α) : Prog L (Input γ) σ Failure α :=
  Prog.race (Timed.timer name) Input.timer (.error ("Step \"" ++ name ++ "\" timed out")) p

/-- The attempts of one step: its first success, or the error of the last one. -/
def attempts (step : WorkflowStep L γ σ Ctx) (ctx : Ctx) :
    ℕ → Prog L (Input γ) σ Failure (Ctx → Ctx)
  | 0 => withTimeout step.name (step.execute ctx)
  | n + 1 => tryCatch (withTimeout step.name (step.execute ctx)) fun _ => attempts step ctx n

/-- The loop of `failAndCompensate` over the completed steps, the last one first; an error of
a compensation is logged and dropped. -/
def compensateAll (ctx : Ctx) (completed : List (WorkflowStep L γ σ Ctx)) :
    Prog L (Input γ) σ Failure Unit :=
  Prog.callAll (completed.filterMap fun step => step.compensate.map (· ctx))

def failAndCompensate (ctx : Ctx) (completed : List (WorkflowStep L γ σ Ctx)) (message : String)
    (status : WorkflowStatus) : Prog L (Input γ) σ Failure (WorkflowInstance Ctx) := do
  compensateAll ctx completed
  pure ⟨status, ctx, some message⟩

/-- The loop over the steps; `completed` holds those behind it, the last one first. -/
def runSteps (workflowDeadline : ℕ) : List (WorkflowStep L γ σ Ctx) →
    List (WorkflowStep L γ σ Ctx) → Ctx → Prog L (Input γ) σ Failure (WorkflowInstance Ctx)
  | [], _, ctx => pure ⟨.completed, ctx, none⟩
  | step :: rest, completed, ctx => do
    let now ← clock step.name
    if workflowDeadline < now then
      failAndCompensate ctx completed "Workflow timed out" .timedOut
    else do
      let outcome ← (attempts step ctx step.retries).attempt
      match outcome with
      | .ok patch => runSteps workflowDeadline rest (step :: completed) (patch ctx)
      | .error err => failAndCompensate ctx completed err.message .failed

def run (definition : WorkflowDefinition L γ σ Ctx) (initialContext : Ctx) :
    Prog L (Input γ) σ Failure (WorkflowInstance Ctx) := do
  let start ← clock definition.name
  runSteps (start + definition.timeoutMs) definition.steps [] initialContext

/-! ### Every call of a workflow -/

section Every

variable {ok : L → Input γ → σ → Prop} {ψ : L → Input γ → σ → σ → Prop}

variable (htimer : ∀ name i s, ok (Timed.timer name) i s → ψ (Timed.timer name) i s s)
  (hclock : ∀ name i s, ok (Timed.deadline name) i s → ψ (Timed.deadline name) i s s)

include htimer in
theorem every_attempts {step : WorkflowStep L γ σ Ctx} {ctx : Ctx}
    (h : (step.execute ctx).Every ok ψ) : ∀ n, (attempts step ctx n).Every ok ψ
  | 0 => Prog.Every.race (htimer _) h
  | n + 1 => Prog.Every.tryCatch (Prog.Every.race (htimer _) h) fun _ => every_attempts h n

omit [Timed L] in
theorem every_failAndCompensate {completed : List (WorkflowStep L γ σ Ctx)} {ctx : Ctx}
    (h : ∀ step ∈ completed, ∀ f, step.compensate = some f → (f ctx).Every ok ψ) (message : String)
    (status : WorkflowStatus) : (failAndCompensate ctx completed message status).Every ok ψ := by
  refine Prog.Every.bind (Prog.Every.callAll ?_) fun _ => trivial
  intro p hp
  obtain ⟨step, hstep, hmap⟩ := List.mem_filterMap.mp hp
  obtain ⟨f, hf, rfl⟩ := Option.map_eq_some_iff.mp hmap
  exact h step hstep f hf

include htimer hclock in
/-- The last step is never compensated: nothing that can fail comes after it. -/
theorem every_runSteps {deadline : ℕ} {steps completed : List (WorkflowStep L γ σ Ctx)}
    (hexec : ∀ step ∈ steps, ∀ ctx, (step.execute ctx).Every ok ψ)
    (hcomp : ∀ step ∈ completed ++ steps.dropLast, ∀ ctx f, step.compensate = some f →
      (f ctx).Every ok ψ) (ctx : Ctx) :
    (runSteps deadline steps completed ctx).Every ok ψ := by
  induction steps generalizing completed ctx with
  | nil => trivial
  | cons step rest ih =>
    have hfail : ∀ message status, (failAndCompensate ctx completed message status).Every ok ψ :=
      every_failAndCompensate fun step hs => hcomp step (List.mem_append_left _ hs) ctx
    refine Prog.Every.bind (Prog.every_call (hclock _)) fun now => ?_
    split
    · exact hfail _ _
    · have hstep := hexec step List.mem_cons_self ctx
      refine Prog.Every.bind (every_attempts htimer hstep _).attempt fun outcome => ?_
      cases outcome with
      | error err => exact hfail _ _
      | ok patch =>
        cases rest with
        | nil => trivial
        | cons next rest =>
          refine ih (fun s hs => hexec s (List.mem_cons_of_mem step hs)) (fun s hs => hcomp s ?_) _
          simp only [List.dropLast_cons_cons, List.cons_append, List.mem_cons, List.mem_append] at hs ⊢
          tauto

include htimer hclock in
theorem every_run {definition : WorkflowDefinition L γ σ Ctx}
    (hexec : ∀ step ∈ definition.steps, ∀ ctx, (step.execute ctx).Every ok ψ)
    (hcomp : ∀ step ∈ definition.steps.dropLast, ∀ ctx f, step.compensate = some f →
      (f ctx).Every ok ψ) (ctx : Ctx) :
    (run definition ctx).Every ok ψ :=
  Prog.Every.bind (Prog.every_call (hclock _)) fun _ =>
    every_runSteps htimer hclock hexec (by simpa using hcomp) ctx

end Every

/-! ### Workflows beside other threads -/

section Holds

variable {W : World L (Input γ) σ} {C D : Discipline L (Input γ) σ} {P : σ → Prop}
  {R : (Ctx → Ctx) → σ → Prop} {Q : Except Failure (WorkflowInstance Ctx) → σ → Prop}
  (hguar : ∀ l i t t', D.guar l i t t' → D.rely t t') (hP : ∀ t t', D.rely t t' → P t → P t')
  (hR : ∀ patch t t', D.rely t t' → R patch t → R patch t')
  (htimer : ∀ name i t, D.guar (Timed.timer name) i t t)
  (hclock : ∀ name i t, D.guar (Timed.deadline name) i t t)

/-- What a step leaves: its patch with `R` when it succeeded, and in any case `P`. -/
def Outcome (P : σ → Prop) (R : (Ctx → Ctx) → σ → Prop) (r : Except Failure (Ctx → Ctx)) (t : σ) :
    Prop :=
  (∀ patch, r = .ok patch → R patch t) ∧ P t

/-- What an attempt leaves: its patch with `R`, or an error with what the next attempt needs. -/
def Attempted (P : σ → Prop) (R : (Ctx → Ctx) → σ → Prop) : Except Failure (Ctx → Ctx) → σ → Prop
  | .ok patch, t => R patch t
  | .error _, t => P t

include hR in
theorem holds_retried {step : WorkflowStep L γ σ Ctx} {ctx : Ctx}
    (hone : ∀ s, W.inv s → P s →
      Holds W C D (Attempted P R) (withTimeout step.name (step.execute ctx)) s) :
    ∀ n s, W.inv s → P s → Holds W C D (Attempted P R) (attempts step ctx n) s := by
  intro n
  induction n with
  | zero => exact hone
  | succ n ih =>
    intro s hi hs
    refine Holds.tryCatch (Holds.mono ?_ (hone s hi hs)) hi
    rintro (e | patch) t hi' hpost
    · exact ih t hi' hpost
    · exact fun t' ht' _ => hR patch t t' ht' hpost

include hP hclock in
theorem holds_step {deadline : ℕ} {step : WorkflowStep L γ σ Ctx}
    {rest completed : List (WorkflowStep L γ σ Ctx)} {ctx : Ctx} {s : σ}
    (hexec : ∀ t, W.inv t → P t → Holds W C D (Attempted P R) (attempts step ctx step.retries) t)
    (hrest : ∀ patch t, W.inv t → R patch t →
      Holds W C D Q (runSteps deadline rest (step :: completed) (patch ctx)) t)
    (hfail : ∀ message status t, W.inv t → P t → status ≠ .completed →
      Holds W C D Q (failAndCompensate ctx completed message status) t)
    (hs : P s) : Holds W C D Q (runSteps deadline (step :: rest) completed ctx) s := by
  refine Holds.callBind fun t ht hi i _ => ⟨hi, hclock _ i t, ?_⟩
  have hPt := hP s t ht hs
  dsimp only
  split
  · exact hfail _ _ t hi hPt nofun
  refine Holds.bind (Holds.attempt (Holds.mono ?_ (hexec t hi hPt))) hi
  rintro (e | patch) t' hi' hpost
  · exact hfail _ _ t' hi' hpost nofun
  · exact hrest patch t' hi' hpost

include hguar hP hR htimer in
theorem holds_attempts {step : WorkflowStep L γ σ Ctx} {ctx : Ctx}
    (hexec : ∀ t, W.inv t → P t →
      Holds W D D (fun r t' => ∀ patch, r = .ok patch → R patch t') (step.execute ctx) t) :
    ∀ n s, W.inv s → P s → Holds W D D (Outcome P R) (attempts step ctx n) s := by
  intro n s hi hs
  have hR' : ∀ patch t t', D.rely t t' → R patch t ∧ P t → R patch t' ∧ P t' :=
    fun patch t t' ht h => ⟨hR patch t t' ht h.1, hP t t' ht h.2⟩
  refine Holds.mono ?_ (holds_retried hR' (fun s hi hs => ?_) n s hi hs)
  · rintro (e | patch) t - h
    · exact ⟨nofun, h⟩
    · refine ⟨fun patch' hpatch => ?_, h.2⟩
      cases hpatch
      exact h.1
  refine Holds.race_persist hguar hP (fun t i _ _ => htimer _ i t) (fun t _ hPt => hPt) ?_ hs
  refine Holds.mono ?_ (Holds.persist hguar hP (hexec s hi hs) hs)
  rintro (e | patch) t - h
  · exact h.2
  · exact ⟨h.1 patch rfl, h.2⟩

include hguar hP hR htimer hclock in
theorem holds_runSteps {deadline : ℕ} {step : WorkflowStep L γ σ Ctx}
    {rest completed : List (WorkflowStep L γ σ Ctx)} {ctx : Ctx} {s : σ}
    (hexec : ∀ t, W.inv t → P t →
      Holds W D D (fun r t' => ∀ patch, r = .ok patch → R patch t') (step.execute ctx) t)
    (hrest : ∀ patch t, W.inv t → P t → R patch t →
      Holds W D D Q (runSteps deadline rest (step :: completed) (patch ctx)) t)
    (hfail : ∀ message status t, W.inv t →
      Holds W D D Q (failAndCompensate ctx completed message status) t)
    (hs : P s) : Holds W D D Q (runSteps deadline (step :: rest) completed ctx) s := by
  refine holds_step hP hclock (R := fun patch t => R patch t ∧ P t) (fun t hi hPt => ?_)
    (fun patch t hi h => hrest patch t hi h.2 h.1) (fun message status t hi _ _ => hfail _ _ t hi) hs
  refine Holds.mono ?_ (holds_attempts hguar hP hR htimer hexec step.retries t hi hPt)
  rintro (e | patch) t' - ⟨hpatch, hPt'⟩
  · exact hPt'
  · exact ⟨hpatch patch rfl, hPt'⟩

include hclock in
theorem holds_run {definition : WorkflowDefinition L γ σ Ctx} {ctx : Ctx} {s : σ}
    (h : ∀ deadline t, W.inv t → D.rely s t →
      Holds W C D Q (runSteps deadline definition.steps [] ctx) t) :
    Holds W C D Q (run definition ctx) s := by
  refine Holds.callBind fun t ht hi i _ => ⟨hi, hclock _ i t, ?_⟩
  exact h _ t hi ht

end Holds

/-! ### Workflows that run alone -/

section Alone

variable {ok : L → Input γ → σ → Prop} {P : σ → Prop} {R : (Ctx → Ctx) → σ → Prop}
  {Q : Except Failure (WorkflowInstance Ctx) → σ → Prop} {step : WorkflowStep L γ σ Ctx} {ctx : Ctx}
  (htimer : ∀ name i t, ok (Timed.timer name) i t → i.timer = false)

include htimer in
theorem alone_attempts (hexec : ∀ t, P t → Alone ok (Outcome P R) (step.execute ctx) t) :
    ∀ n s, P s → Alone ok (Outcome P R) (attempts step ctx n) s := by
  have hone : ∀ s, P s → Alone ok (Outcome P R) (withTimeout step.name (step.execute ctx)) s :=
    fun s hs => Alone.race (htimer _) (hexec s hs)
  intro n
  induction n with
  | zero => exact hone
  | succ n ih =>
    intro s hs
    exact Alone.tryCatch (hone s hs) (fun _ _ h => h) fun _ t h => ih t h.2

include htimer in
theorem alone_retried (hexec : ∀ t, P t → Alone ok (Outcome P R) (step.execute ctx) t) (n : ℕ) {s : σ}
    (hs : P s) : Alone ok (Returns R) (attempts step ctx n) s := by
  refine Alone.mono ?_ (alone_attempts htimer hexec n s hs)
  rintro (e | patch) t h
  · trivial
  · exact h.1 patch rfl

omit [Timed L] in
theorem alone_failAndCompensate {completed : List (WorkflowStep L γ σ Ctx)} {message : String}
    {status : WorkflowStatus} {s : σ} (hst : status ≠ .completed)
    (hQ : ∀ r t, (∀ inst, r = .ok inst → inst.status ≠ .completed) → Q r t) :
    Alone ok Q (failAndCompensate ctx completed message status) s := by
  refine Alone.bind (Alone.any _ s) (fun _ t _ => Alone.done (hQ _ t ?_)) fun e t _ => hQ _ t nofun
  rintro inst ⟨⟩
  exact hst

theorem alone_runSteps {deadline : ℕ} {rest completed : List (WorkflowStep L γ σ Ctx)} {s : σ}
    (hstep : Alone ok (Returns R) (attempts step ctx step.retries) s)
    (hrest : ∀ patch t, R patch t →
      Alone ok Q (runSteps deadline rest (step :: completed) (patch ctx)) t)
    (hQ : ∀ r t, (∀ inst, r = .ok inst → inst.status ≠ .completed) → Q r t) :
    Alone ok Q (runSteps deadline (step :: rest) completed ctx) s := by
  refine Alone.callBind fun i _ => ⟨fun now hnow => ?_, fun e he => (nomatch he)⟩
  split
  · exact alone_failAndCompensate (by decide) hQ
  refine Alone.attemptBind hstep fun r t hr => ?_
  cases r with
  | error e => exact alone_failAndCompensate (by decide) hQ
  | ok patch => exact hrest patch t hr

end Alone

end SagaCoordinator

end ElectronicsCart
