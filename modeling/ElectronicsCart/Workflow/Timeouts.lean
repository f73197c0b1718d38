import ElectronicsCart.Workflow.Unwinding

/-!
# Executions and timeouts

`withTimeout` stops waiting for a promise, the promise goes on.  As long as no timer fires, one
execution is in progress at a time and none when the workflow returns.
-/

namespace ElectronicsCart.Workflow

open Interleaving

variable {Ctx : Type}

/-- No timer fires before the promise it was set for has settled. -/
def Punctual (l : WorkflowCall) (i : Input (Outcome Ctx)) (_ : Journal) : Prop :=
  match l with
  | .timer _ => i.timer = false
  | _ => True

def OneAtATime (s : Journal) : Prop := ∀ j, s.inProgress.count j ≤ 1

theorem oneAtATime_of_nil {s : Journal} (h : s.inProgress = []) : OneAtATime s := by
  intro j
  rw [h]
  exact Nat.zero_le 1

/-- The program starts and ends with no execution in progress, and never has two of one step. -/
def InTurn {α : Type} (p : Observed Ctx α) : Prop :=
  ∀ s : Journal, s.inProgress = [] →
    Holds ⟨Punctual, OneAtATime⟩ (Discipline.free fun _ _ _ _ => False)
      (Discipline.alone fun _ _ _ _ => True) (fun _ t => t.inProgress = []) p s

section InTurn

variable {α β : Type}

theorem InTurn.done (r : Except Thrown α) : InTurn (.done r : Observed Ctx α) := by
  rintro s hs t rfl -
  exact hs

theorem InTurn.bind {p : Observed Ctx β} {k : β → Observed Ctx α} (hp : InTurn p)
    (hk : ∀ b, InTurn (k b)) : InTurn (p.bind k) := by
  intro s hs
  refine Holds.bind (Holds.mono ?_ (hp s hs)) (oneAtATime_of_nil hs)
  rintro (e | b) t - ht
  · exact ht
  · exact hk b t ht

theorem InTurn.attemptBind {p : Observed Ctx β} {k : Except Thrown β → Observed Ctx α}
    (hp : InTurn p) (hk : ∀ r, InTurn (k r)) : InTurn (p.attempt.bind k) := fun s hs =>
  Holds.bind (Holds.attempt (Holds.mono (fun r t _ ht => hk r t ht) (hp s hs))) (oneAtATime_of_nil hs)

theorem InTurn.call {l : WorkflowCall} {f : Input (Outcome Ctx) → Journal → Except Thrown α × Journal}
    (hf : ∀ i s, (f i s).2.inProgress = s.inProgress) : InTurn (Prog.call l f) := by
  intro s hs
  refine Holds.call ?_
  rintro t rfl - i -
  have hnil : (f i s).2.inProgress = [] := (hf i s).trans hs
  refine ⟨oneAtATime_of_nil hnil, trivial, ?_⟩
  rintro t' rfl -
  exact hnil

theorem inTurn_attemptOnce (j : ℕ) (shape : Shape) (ctx : Ctx) :
    InTurn (SagaCoordinator.attemptOnce j (observedStep j shape) ctx) := by
  intro s hs
  refine Holds.callBind ?_
  rintro t rfl - i -
  have hawait : (s.execute j i.reply).inProgress = [j] →
      OneAtATime (s.execute j i.reply) ∧ Holds ⟨Punctual, OneAtATime⟩ (Discipline.free fun _ _ _ _ => False)
        (Discipline.alone fun _ _ _ _ => True) (fun _ t => t.inProgress = [])
        (SagaCoordinator.withTimeout j shape.name (promise j : Observed Ctx (Ctx → Ctx)))
        (s.execute j i.reply) := by
    intro hone
    refine ⟨fun k => ?_, Holds.race_unfired (fun _ _ _ ho => ⟨trivial, ho⟩) (Holds.call ?_)⟩
    · have hcount : [j].count k ≤ [j].length := List.count_le_length
      rw [hone]
      exact hcount
    · rintro u rfl - i' -
      have hnil : ((s.execute j i.reply).settle j i'.reply).inProgress = [] :=
        (congrArg (List.erase · j) hone).trans (List.erase_cons_head j [])
      refine ⟨oneAtATime_of_nil hnil, trivial, ?_⟩
      rintro u' rfl -
      exact hnil
  cases hreply : i.reply with
  | throws value =>
    have hnil : (s.execute j (.throws value : Outcome Ctx)).inProgress = [] := hs
    refine ⟨oneAtATime_of_nil hnil, trivial, ?_⟩
    rintro u rfl -
    exact hnil
  | resolves patch =>
    rw [hreply] at hawait
    obtain ⟨hinv, hhold⟩ := hawait (congrArg (· ++ [j]) hs)
    exact ⟨hinv, trivial, hhold⟩
  | rejects value =>
    rw [hreply] at hawait
    obtain ⟨hinv, hhold⟩ := hawait (congrArg (· ++ [j]) hs)
    exact ⟨hinv, trivial, hhold⟩

theorem inTurn_attemptLoop (j : ℕ) (shape : Shape) (ctx : Ctx) :
    ∀ n made last, InTurn (SagaCoordinator.attemptLoop j (observedStep j shape) ctx n made last) := by
  intro n
  induction n with
  | zero => exact fun made last => InTurn.done _
  | succ n ih =>
    intro made last
    refine InTurn.attemptBind (inTurn_attemptOnce j shape ctx) fun r => ?_
    cases r with
    | ok patch => exact InTurn.done _
    | error e => exact ih (made + 1) (some e)

theorem inTurn_compensateFrom {plan : Plan} :
    ∀ i (inst : Instance Ctx), InTurn (SagaCoordinator.compensateFrom plan.definition i inst) := by
  intro i
  induction i with
  | zero => exact fun inst => InTurn.done _
  | succ i ih =>
    intro inst
    unfold SagaCoordinator.compensateFrom
    split
    next compensate record hcomp _ =>
      obtain ⟨-, rfl⟩ := Plan.compensate_eq hcomp
      split
      · exact InTurn.attemptBind (InTurn.call fun _ _ => rfl) fun r => ih _
      · exact ih inst
    · exact ih inst

theorem inTurn_failAndCompensate {plan : Plan} (inst : Instance Ctx) (i : ℕ) (message : String)
    (status : Status) :
    InTurn (SagaCoordinator.failAndCompensate plan.definition inst i message status) :=
  InTurn.bind (inTurn_compensateFrom i _) fun _ => InTurn.done _

theorem inTurn_runSteps {plan : Plan} {deadline : ℕ} :
    ∀ (rest : List (Step WorkflowCall (Outcome Ctx) Journal Thrown Ctx)) (i : ℕ) (inst : Instance Ctx),
      plan.definition.steps.drop i = rest →
      InTurn (SagaCoordinator.runSteps plan.definition deadline i rest inst) := by
  intro rest
  induction rest with
  | nil => exact fun i inst _ => InTurn.done _
  | cons step rest ih =>
    intro i inst hdrop
    obtain ⟨hstep, hdrop'⟩ := next_of_drop hdrop
    obtain ⟨shape, -, rfl⟩ := Plan.step_eq hstep
    refine InTurn.bind (InTurn.call fun _ _ => rfl) fun now => ?_
    split
    · exact inTurn_failAndCompensate _ _ _ _
    refine InTurn.bind (inTurn_attemptLoop i shape _ _ _ _) fun a => ?_
    dsimp only
    split
    · exact inTurn_failAndCompensate _ _ _ _
    · exact ih (i + 1) _ hdrop'

theorem inTurn_run (plan : Plan) (ctx : Ctx) : InTurn (plan.run ctx) :=
  InTurn.bind (InTurn.call fun _ _ => rfl) fun _ => inTurn_runSteps _ 0 _ rfl

end InTurn

/-- When no timer fires, no step is executed twice at once, and nothing is in progress when the
workflow has failed or timed out. -/
theorem executions_in_turn (plan : Plan) (ctx : Ctx) (sched : List (ℕ × Input (Outcome Ctx)))
    (hok : (plan.pool ctx).Admits Punctual sched) :
    (∀ j, ((plan.pool ctx).run sched).state.inProgress.count j ≤ 1) ∧
      ∀ inst, ((plan.pool ctx).run sched).threads[0]? = some (.done (.ok inst)) →
        inst.status = .failed ∨ inst.status = .timedOut →
        ((plan.pool ctx).run sched).state.inProgress = [] := by
  obtain ⟨hinv, hpost⟩ := Pool.run_forked (C := Discipline.free fun _ _ _ _ => False)
    (fun _ _ _ _ _ => trivial) (fun _ _ _ _ h => h.elim) (oneAtATime_of_nil rfl)
    (inTurn_run plan ctx {} rfl) hok
  exact ⟨hinv, fun inst hdone _ => hpost _ hdone⟩

theorem executions_in_turn_declined :
    ((reserveAndPay.pool ()).run (declined (.resolves id))).state.inProgress = [] := by
  have hok : (reserveAndPay.pool ()).Admits Punctual (declined (.resolves id)) := by
    repeat' constructor
  exact (executions_in_turn reserveAndPay () _ hok).2 _ rfl (.inl rfl)

def retried : Plan := { steps := [{ name := "slow", retry := ⟨some (some 2)⟩ }] }

/-- The timer of the first attempt fires before its promise settles. -/
def slow : List (ℕ × Input (Outcome Unit)) :=
  let fired : Input (Outcome Unit) := { timer := true, reply := .resolves id }
  (replies (List.replicate 3 (.resolves id)) ++ [fired] ++
    replies (List.replicate 2 (.resolves id))).map fun i => (0, i)

/-- The second attempt of a step runs beside the first one. -/
theorem step_executed_twice_at_once :
    ¬ ∀ (plan : Plan) (sched : List (ℕ × Input (Outcome Unit))),
      (∀ j, ((plan.pool ()).run sched).state.inProgress.count j ≤ 1) ∧
        ∀ inst, ((plan.pool ()).run sched).threads[0]? = some (.done (.ok inst)) →
          inst.status = .failed ∨ inst.status = .timedOut →
          ((plan.pool ()).run sched).state.inProgress = [] := by
  intro h
  exact absurd ((h retried slow).1 0) (by decide)

end ElectronicsCart.Workflow
