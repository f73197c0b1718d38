import ElectronicsCart.Workflow.Journal
import ElectronicsCart.Core.Alone

/-!
# When a workflow is reported completed

The outcome of every attempt and the clock before every step are given by a script.  The
coordinator takes a step for done when its loop leaves no truthy `lastError`, so also when it made
no attempt, or when the last one rejected with `undefined`, `null`, `0` or an empty text.
-/

namespace ElectronicsCart.Workflow

open Interleaving

variable {Ctx : Type}

/-- The clock before each step, and how each attempt of it ends. -/
structure Script (Ctx : Type) where
  start : ℕ
  clock : ℕ → ℕ
  attempt : ℕ → ℕ → Outcome Ctx

/-- The answers of the script; no timer fires before an attempt has ended. -/
def Follows (script : Script Ctx) : WorkflowCall → Input (Outcome Ctx) → Journal → Prop
  | .start, i, _ => i.now = script.start
  | .deadline j, i, _ => i.now = script.clock j
  | .timer _, i, _ => i.timer = false
  | .execute j, i, s => i.reply = script.attempt j (s.executions.count j)
  | .settle j, i, s => i.reply = script.attempt j (s.executions.count j - 1)
  | .compensate _, _, _ => True

/-! ### What the script says of a step -/

section Script

variable (plan : Plan) (script : Script Ctx) (j : ℕ)

def Resolves : Prop :=
  ∃ k < plan.maxAttempts j, ∃ patch, (script.attempt j k).result = .ok patch

/-- The last attempt, of at least one, rejects with this value. -/
def EndsWith (value : Thrown) : Prop :=
  ∃ k, plan.maxAttempts j = k + 1 ∧ (script.attempt j k).result = .error value

def Fails : Prop := ¬ Resolves plan script j ∧ ∃ value, EndsWith plan script j value ∧ value.truthy = true

/-- No attempt resolves, and there is none or the last one rejects with a falsy value. -/
def Slips : Prop :=
  ¬ Resolves plan script j ∧
    (plan.maxAttempts j = 0 ∨ ∃ value, EndsWith plan script j value ∧ value.truthy = false)

def Late : Prop := script.start + plan.timeoutMs < script.clock j

def Stops : Prop := Late plan script j ∨ Fails plan script j

end Script

/-! ### The retry loop -/

def loopOf (outcome : ℕ → Except Thrown (Ctx → Ctx)) :
    ℕ → ℕ → Option Thrown → SagaCoordinator.Attempts Thrown Ctx
  | 0, made, lastError => ⟨made, none, lastError⟩
  | n + 1, made, _ =>
    match outcome made with
    | .ok patch => ⟨made + 1, some patch, none⟩
    | .error err => loopOf outcome n (made + 1) (some err)

section Loop

variable {script : Script Ctx} {plan : Plan} {j : ℕ} {s : Journal}

theorem loopOf_cases (outcome : ℕ → Except Thrown (Ctx → Ctx)) :
    ∀ n made last,
      (∃ m patch, loopOf outcome n made last = ⟨m, some patch, none⟩ ∧
        ∃ k, made ≤ k ∧ k < made + n ∧ outcome k = .ok patch) ∨
      (loopOf outcome n made last).patch = none ∧
        (∀ k, made ≤ k → k < made + n → ∃ e, outcome k = .error e) ∧
        (n = 0 ∧ (loopOf outcome n made last).lastError = last ∨
          ∃ m e, n = m + 1 ∧ outcome (made + m) = .error e ∧
            (loopOf outcome n made last).lastError = some e) := by
  intro n
  induction n with
  | zero =>
    intro made last
    refine .inr ⟨rfl, fun k hk hlt => ?_, .inl ⟨rfl, rfl⟩⟩
    omega
  | succ n ih =>
    intro made last
    cases ho : outcome made with
    | ok patch =>
      have heq : loopOf outcome (n + 1) made last = ⟨made + 1, some patch, none⟩ := by
        simp only [loopOf, ho]
      exact .inl ⟨made + 1, patch, heq, made, Nat.le_refl made, by omega, ho⟩
    | error err =>
      have heq : loopOf outcome (n + 1) made last = loopOf outcome n (made + 1) (some err) := by
        simp only [loopOf, ho]
      rw [heq]
      rcases ih (made + 1) (some err) with ⟨m, patch, hloop, k, hle, hlt, hk⟩ | ⟨hnone, hall, hlast⟩
      · exact .inl ⟨m, patch, hloop, k, by omega, by omega, hk⟩
      · refine .inr ⟨hnone, fun k hle hlt => ?_, .inr ?_⟩
        · rcases Nat.eq_or_lt_of_le hle with rfl | hlt'
          · exact ⟨err, ho⟩
          · exact hall k hlt' (by omega)
        · rcases hlast with ⟨rfl, hlast⟩ | ⟨m, e, rfl, hm, hlast⟩
          · exact ⟨0, err, rfl, ho, hlast⟩
          · have hsucc : made + (m + 1) = made + 1 + m := by omega
            exact ⟨m + 1, e, rfl, hsucc ▸ hm, hlast⟩

theorem loop_ends (plan : Plan) (script : Script Ctx) (j : ℕ) :
    let a := loopOf (fun k => (script.attempt j k).result) (plan.maxAttempts j) 0 none
    (Resolves plan script j ∧ ∃ m patch, a = ⟨m, some patch, none⟩) ∨
      (Fails plan script j ∧ a.patch = none ∧ ∃ e, a.lastError.filter Caught.truthy = some e) ∨
      (Slips plan script j ∧ a.patch = none ∧ a.lastError.filter Caught.truthy = none) := by
  intro a
  rcases loopOf_cases (fun k => (script.attempt j k).result) (plan.maxAttempts j) 0 none with
    ⟨m, patch, ha, k, -, hlt, hk⟩ | ⟨hnone, hall, hlast⟩
  · exact .inl ⟨⟨k, by omega, patch, hk⟩, m, patch, ha⟩
  · have hnot : ¬ Resolves plan script j := by
      rintro ⟨k, hlt, patch, hk⟩
      obtain ⟨e, he⟩ := hall k (Nat.zero_le k) (by omega)
      have hboth : Except.ok patch = Except.error e := hk.symm.trans he
      cases hboth
    rcases hlast with ⟨hzero, hlast⟩ | ⟨m, e, hm, he, hlast⟩
    · refine .inr (.inr ⟨⟨hnot, .inl hzero⟩, hnone, ?_⟩)
      rw [hlast]
      rfl
    · rw [Nat.zero_add] at he
      cases htruthy : e.truthy with
      | true =>
        refine .inr (.inl ⟨⟨hnot, e, ⟨m, hm, he⟩, htruthy⟩, hnone, e, ?_⟩)
        rw [hlast, Option.filter_some]
        exact if_pos htruthy
      | false =>
        refine .inr (.inr ⟨⟨hnot, .inr ⟨e, ⟨m, hm, he⟩, htruthy⟩⟩, hnone, ?_⟩)
        rw [hlast, Option.filter_some]
        exact if_neg (Bool.eq_false_iff.mp htruthy)

theorem mem_resolved_settle {outcome : Outcome Ctx} {k : ℕ} :
    k ∈ (s.settle j outcome).resolved ↔
      k ∈ s.resolved ∨ k = j ∧ ∃ patch, outcome.result = .ok patch := by
  cases outcome <;> simp [Journal.settle, Outcome.result]

theorem alone_attemptOnce (shape : Shape) (ctx : Ctx) :
    Alone (Follows script) (fun r t => r = (script.attempt j (s.executions.count j)).result ∧
        t.executions = s.executions ++ [j] ∧
        ∀ k, k ∈ t.resolved ↔ k ∈ s.resolved ∨
          k = j ∧ ∃ patch, (script.attempt j (s.executions.count j)).result = .ok patch)
      (SagaCoordinator.attemptOnce j (observedStep j shape) ctx) s := by
  refine Alone.callBind fun i hi => ?_
  have hreply : i.reply = script.attempt j (s.executions.count j) := hi
  dsimp only
  rw [hreply]
  have hawait : (∀ value, script.attempt j (s.executions.count j) ≠ .throws value) →
      ∀ b, b = promise j → Alone (Follows script)
        (fun r t => r = (script.attempt j (s.executions.count j)).result ∧
          t.executions = s.executions ++ [j] ∧
          ∀ k, k ∈ t.resolved ↔ k ∈ s.resolved ∨
            k = j ∧ ∃ patch, (script.attempt j (s.executions.count j)).result = .ok patch)
        (SagaCoordinator.withTimeout j shape.name b)
        (s.execute j (script.attempt j (s.executions.count j))) := by
    rintro - b rfl
    refine Holds.race_unfired (fun t i _ ho => ⟨trivial, ho⟩) (Holds.call ?_)
    rintro t rfl - i' hi'
    have hcount : (s.execute j (script.attempt j (s.executions.count j))).executions.count j - 1 =
        s.executions.count j := by
      simp [Journal.execute]
    have hreply' : i'.reply = script.attempt j (s.executions.count j) := hi'.trans (by rw [hcount])
    refine ⟨trivial, trivial, ?_⟩
    rintro t' rfl -
    dsimp only
    rw [hreply']
    exact ⟨rfl, rfl, fun k => mem_resolved_settle⟩
  cases ho : script.attempt j (s.executions.count j) with
  | throws value =>
    refine ⟨fun b hb => (nomatch hb), fun e he => ⟨?_, rfl, fun k => ?_⟩⟩
    · cases he
      rfl
    · simp [Journal.execute, Outcome.result]
  | resolves patch =>
    rw [ho] at hawait
    exact ⟨fun b hb => hawait (fun _ h => nomatch h) b (Except.ok.inj hb).symm, fun e he => (nomatch he)⟩
  | rejects value =>
    rw [ho] at hawait
    exact ⟨fun b hb => hawait (fun _ h => nomatch h) b (Except.ok.inj hb).symm, fun e he => (nomatch he)⟩

theorem alone_attemptLoop (shape : Shape) (ctx : Ctx) :
    ∀ n made last (s : Journal), s.executions.count j = made →
      Alone (Follows script) (fun r t =>
          r = .ok (loopOf (fun k => (script.attempt j k).result) n made last) ∧
          (∀ k, k ≠ j → t.executions.count k = s.executions.count k) ∧
          ∀ k, k ∈ t.resolved ↔ k ∈ s.resolved ∨ k = j ∧
            (loopOf (fun k => (script.attempt j k).result) n made last).patch.isSome)
        (SagaCoordinator.attemptLoop j (observedStep j shape) ctx n made last) s := by
  intro n
  induction n with
  | zero =>
    intro made last s _
    exact Alone.done ⟨rfl, fun _ _ => rfl, fun k => by simp [loopOf]⟩
  | succ n ih =>
    intro made last s hcount
    refine Alone.attemptBind (alone_attemptOnce shape ctx) fun r t ⟨hr, hexec, hres⟩ => ?_
    rw [hcount] at hr hres
    have hother : ∀ k, k ≠ j → t.executions.count k = s.executions.count k := by
      intro k hk
      rw [hexec, List.count_append, List.count_singleton, if_neg, Nat.add_zero]
      simpa using Ne.symm hk
    cases ho : (script.attempt j made).result with
    | ok patch =>
      have hloop : loopOf (fun k => (script.attempt j k).result) (n + 1) made last =
          ⟨made + 1, some patch, none⟩ := by
        simp only [loopOf, ho]
      rw [ho] at hr hres
      subst hr
      rw [hloop]
      exact Alone.done ⟨rfl, hother, fun k => by rw [hres]; simp⟩
    | error err =>
      have hloop : loopOf (fun k => (script.attempt j k).result) (n + 1) made last =
          loopOf (fun k => (script.attempt j k).result) n (made + 1) (some err) := by
        simp only [loopOf, ho]
      rw [ho] at hr hres
      subst hr
      rw [hloop]
      have hcount' : t.executions.count j = made + 1 := by
        rw [hexec, List.count_append, hcount, List.count_singleton_self]
      refine Alone.mono (fun r u ⟨hr, hexec', hres'⟩ => ⟨hr, fun k hk => ?_, fun k => ?_⟩)
        (ih (made + 1) (some err) t hcount')
      · exact (hexec' k hk).trans (hother k hk)
      · rw [hres', hres]
        simp

end Loop

/-! ### The loop over the steps -/

section Steps

variable {script : Script Ctx} {plan : Plan} {i : ℕ} {s : Journal} {inst : Instance Ctx}

theorem alone_compensateFrom {ok : WorkflowCall → Input (Outcome Ctx) → Journal → Prop} :
    ∀ i (inst : Instance Ctx) (s : Journal), Alone ok
      (fun r t => (∃ inst', r = .ok inst') ∧ t.resolved = s.resolved)
      (SagaCoordinator.compensateFrom plan.definition i inst) s := by
  intro i
  induction i with
  | zero => exact fun inst s => Alone.done ⟨⟨inst, rfl⟩, rfl⟩
  | succ i ih =>
    intro inst s
    unfold SagaCoordinator.compensateFrom
    split
    next compensate record hcomp _ =>
      obtain ⟨-, rfl⟩ := Plan.compensate_eq hcomp
      split
      · have hcall : Alone ok (fun _ t => t.resolved = s.resolved) (compensation i inst.context) s := by
          refine Holds.call ?_
          rintro t rfl - i' -
          refine ⟨trivial, trivial, ?_⟩
          rintro t' rfl -
          rfl
        refine Alone.attemptBind hcall fun r t ht => ?_
        exact Alone.mono (fun r u ⟨hr, hu⟩ => ⟨hr, hu.trans ht⟩) (ih _ t)
      · exact ih inst s
    · exact ih inst s

theorem alone_failAndCompensate {ok : WorkflowCall → Input (Outcome Ctx) → Journal → Prop}
    (message : String) (status : Status) : Alone ok
      (fun r t => (∃ inst', r = .ok inst' ∧ inst'.status = status) ∧ t.resolved = s.resolved)
      (SagaCoordinator.failAndCompensate plan.definition inst i message status) s := by
  refine Alone.bind (alone_compensateFrom i _ s) (fun inst' t ht => ?_) fun e t ht => ?_
  · exact Alone.done ⟨⟨_, rfl, rfl⟩, ht.2⟩
  · obtain ⟨⟨inst', h⟩, -⟩ := ht
    cases h

/-- The loop from step `i` on went to the end. -/
structure Through (plan : Plan) (script : Script Ctx) (i : ℕ) (inst inst' : Instance Ctx)
    (s t : Journal) : Prop where
  status : inst'.status = .completed
  length : inst'.steps.length = plan.steps.length
  unstopped : ∀ j, i ≤ j → j < plan.steps.length → ¬ Stops plan script j
  resolved : ∀ j, j ∈ t.resolved ↔
    j ∈ s.resolved ∨ i ≤ j ∧ j < plan.steps.length ∧ Resolves plan script j
  before : ∀ j, j < i → inst'.steps[j]? = inst.steps[j]?
  records : ∀ j record, i ≤ j → inst'.steps[j]? = some record →
    (record.status = .completed ↔ Resolves plan script j)

/-- The loop from step `i` on stopped. -/
structure Stopped (plan : Plan) (script : Script Ctx) (i : ℕ) (inst' : Instance Ctx) (t : Journal) :
    Prop where
  status : inst'.status ≠ .completed
  stop : ∃ j, i ≤ j ∧ j < plan.steps.length ∧ Stops plan script j ∧ j ∉ t.resolved

/-- Nothing has happened to the steps from `i` on. -/
structure Ahead (plan : Plan) (i : ℕ) (inst : Instance Ctx) (s : Journal) : Prop where
  length : inst.steps.length = plan.steps.length
  executions : ∀ j, i ≤ j → s.executions.count j = 0
  resolved : ∀ j, i ≤ j → j ∉ s.resolved

theorem Stopped.of_succ {inst' : Instance Ctx} {t : Journal}
    (h : Stopped plan script (i + 1) inst' t) : Stopped plan script i inst' t := by
  obtain ⟨j, hle, hj⟩ := h.stop
  exact ⟨h.status, j, by omega, hj⟩

theorem Through.cons {a : SagaCoordinator.Attempts Thrown Ctx} {inst' : Instance Ctx}
    {t u : Journal} (hlt : i < plan.steps.length) (hlen : inst.steps.length = plan.steps.length)
    (hstop : ¬ Stops plan script i) (hpatch : a.patch.isSome ↔ Resolves plan script i)
    (hres : ∀ k, k ∈ t.resolved ↔ k ∈ s.resolved ∨ k = i ∧ a.patch.isSome)
    (h : Through plan script (i + 1) (SagaCoordinator.applyAttempts i a (inst.begin i)) inst' t u) :
    Through plan script i inst inst' s u := by
  have hself : inst.steps[i]? = some inst.steps[i] := List.getElem?_eq_getElem (hlen ▸ hlt)
  refine ⟨h.status, h.length, fun j hle hj => ?_, fun j => ?_, fun j hj => ?_, fun j record hle hrec => ?_⟩
  · rcases Nat.eq_or_lt_of_le hle with rfl | hlt'
    · exact hstop
    · exact h.unstopped j hlt' hj
  · rw [h.resolved, hres]
    constructor
    · rintro ((hs | ⟨rfl, ha⟩) | ⟨hle, hj, hr⟩)
      · exact .inl hs
      · exact .inr ⟨Nat.le_refl j, hlt, hpatch.mp ha⟩
      · exact .inr ⟨by omega, hj, hr⟩
    · rintro (hs | ⟨hle, hj, hr⟩)
      · exact .inl (.inl hs)
      · rcases Nat.eq_or_lt_of_le hle with rfl | hlt'
        · exact .inl (.inr ⟨rfl, hpatch.mpr hr⟩)
        · exact .inr ⟨hlt', hj, hr⟩
  · rw [h.before j (by omega)]
    have hne : i ≠ j := by omega
    unfold SagaCoordinator.applyAttempts
    split
    · exact (Instance.record_ne hne).trans (Instance.record_ne hne)
    · exact (Instance.record_ne hne).trans (Instance.record_ne hne)
  · rcases Nat.eq_or_lt_of_le hle with rfl | hlt'
    · rw [h.before i (Nat.lt_succ_self i)] at hrec
      cases ha : a.patch with
      | some patch =>
        rw [SagaCoordinator.applyAttempts, ha] at hrec
        have hdone := Option.some.inj
          ((Instance.record_self (Instance.record_self hself)).symm.trans hrec)
        rw [← hdone, ← hpatch, ha]
        simp
      | none =>
        rw [SagaCoordinator.applyAttempts, ha] at hrec
        have hdone := Option.some.inj
          ((Instance.record_self (Instance.record_self hself)).symm.trans hrec)
        rw [← hdone, ← hpatch, ha]
        simp
    · exact h.records j record hlt' hrec

theorem Ahead.next {a : SagaCoordinator.Attempts Thrown Ctx} {t : Journal} (h : Ahead plan i inst s)
    (hexec : ∀ k, k ≠ i → t.executions.count k = s.executions.count k)
    (hres : ∀ k, k ∈ t.resolved ↔ k ∈ s.resolved ∨ k = i ∧ a.patch.isSome) :
    Ahead plan (i + 1) (SagaCoordinator.applyAttempts i a (inst.begin i)) t := by
  refine ⟨?_, fun j hj => ?_, fun j hj hmem => ?_⟩
  · unfold SagaCoordinator.applyAttempts
    split
    · exact Instance.length_setRecord.trans (Instance.length_setRecord.trans h.length)
    · exact Instance.length_setRecord.trans (Instance.length_setRecord.trans h.length)
  · rw [hexec j (by omega)]
    exact h.executions j (by omega)
  · rcases (hres j).mp hmem with hmem | ⟨rfl, -⟩
    · exact h.resolved j (by omega) hmem
    · omega

theorem Ahead.through {inst' : Instance Ctx} (h : Ahead plan i inst s) (hge : plan.steps.length ≤ i)
    (hsteps : inst'.steps = inst.steps) (hstatus : inst'.status = .completed) :
    Through plan script i inst inst' s s := by
  have hlen : inst'.steps.length = plan.steps.length := hsteps ▸ h.length
  refine ⟨hstatus, hlen, fun j _ _ => by omega, fun j => ?_, fun _ _ => by rw [hsteps],
    fun j record hij hrec => ?_⟩
  · constructor
    · exact .inl
    · rintro (h | ⟨_, _, -⟩)
      · exact h
      · omega
  · have hlt := (List.getElem?_eq_some_iff.mp hrec).1
    omega

/-- A step that stops the loop ends the run without having resolved. -/
theorem alone_stopped {ok : WorkflowCall → Input (Outcome Ctx) → Journal → Prop} (message : String)
    {status : Status} {inst₀ : Instance Ctx} {s₀ : Journal} (hstatus : status ≠ .completed)
    (hlt : i < plan.steps.length) (hstop : Stops plan script i) (hnot : i ∉ s.resolved) :
    Alone ok (fun r t => ∃ inst', r = .ok inst' ∧
        (Through plan script i inst₀ inst' s₀ t ∨ Stopped plan script i inst' t))
      (SagaCoordinator.failAndCompensate plan.definition inst i message status) s := by
  refine Alone.mono (fun r t ⟨⟨inst', hr, hst⟩, hres⟩ => ⟨inst', hr, .inr ⟨?_, i, ?_⟩⟩)
    (alone_failAndCompensate message status)
  · rw [hst]
    exact hstatus
  · refine ⟨Nat.le_refl i, hlt, hstop, ?_⟩
    rw [hres]
    exact hnot

theorem Slips.not_fails (h : Slips plan script i) : ¬ Fails plan script i := by
  rintro ⟨-, value, ⟨k, hk, hv⟩, ht⟩
  rcases h.2 with hz | ⟨value', ⟨k', hk', hv'⟩, hf⟩
  · omega
  · obtain rfl : k = k' := by omega
    have hsame := Except.error.inj (hv.symm.trans hv')
    rw [hsame, hf] at ht
    cases ht

theorem alone_runSteps :
    ∀ (rest : List (Step WorkflowCall (Outcome Ctx) Journal Thrown Ctx)) (i : ℕ) (inst : Instance Ctx)
      (s : Journal), plan.definition.steps.drop i = rest → i ≤ plan.steps.length →
      Ahead plan i inst s →
      Alone (Follows script) (fun r t => ∃ inst', r = .ok inst' ∧
          (Through plan script i inst inst' s t ∨ Stopped plan script i inst' t))
        (SagaCoordinator.runSteps plan.definition (script.start + plan.timeoutMs) i rest inst) s := by
  intro rest
  induction rest with
  | nil =>
    intro i inst s hdrop hle hahead
    have hge : plan.steps.length ≤ i := by
      rw [← Plan.length_steps Ctx plan]
      exact List.drop_eq_nil_iff.mp hdrop
    exact Alone.done ⟨_, rfl, .inl (hahead.through hge rfl rfl)⟩
  | cons step rest ih =>
    intro i inst s hdrop hle hahead
    obtain ⟨hstep, hdrop'⟩ := next_of_drop hdrop
    obtain ⟨shape, hshape, rfl⟩ := Plan.step_eq hstep
    have hlt : i < plan.steps.length := (List.getElem?_eq_some_iff.mp hshape).1
    have hfresh : i ∉ s.resolved := hahead.resolved i (Nat.le_refl i)
    refine Alone.callBind fun input hnow => ⟨fun now hb => ?_, fun e he => (nomatch he)⟩
    have hclock : now = script.clock i := (Except.ok.inj hb).symm.trans hnow
    subst hclock
    by_cases hlate : script.start + plan.timeoutMs < script.clock i
    · rw [if_pos hlate]
      refine alone_stopped _ ?_ hlt (.inl hlate) hfresh
      exact fun h => nomatch h
    rw [if_neg hlate]
    have hzero := hahead.executions i (Nat.le_refl i)
    refine Alone.bind (alone_attemptLoop shape inst.context _ 0 none s hzero) (fun a t ht => ?_)
      fun e t ht => (nomatch ht.1)
    obtain ⟨ha, hexec, hres⟩ := ht
    rw [Plan.rounds_eq hshape] at ha hres
    have ha' := Except.ok.inj ha
    rw [← ha'] at hres
    have hnext := hahead.next hexec hres
    have hcont : ¬ Fails plan script i → (a.patch.isSome ↔ Resolves plan script i) →
        Alone (Follows script) (fun r t => ∃ inst', r = .ok inst' ∧
          (Through plan script i inst inst' s t ∨ Stopped plan script i inst' t))
          (SagaCoordinator.runSteps plan.definition (script.start + plan.timeoutMs) (i + 1) rest
            (SagaCoordinator.applyAttempts i a (inst.begin i))) t := by
      intro hfails hpatch
      refine Alone.mono (fun r u ⟨inst', hr, h⟩ => ⟨inst', hr, ?_⟩) (ih (i + 1) _ t hdrop' hlt hnext)
      rcases h with h | h
      · exact .inl (h.cons hlt hahead.length (not_or.mpr ⟨hlate, hfails⟩) hpatch hres)
      · exact .inr h.of_succ
    have hends := loop_ends plan script i
    dsimp only at hends
    rw [← ha'] at hends
    rcases hends with ⟨hresolves, m, patch, heq⟩ | ⟨hfails, hnone, e, he⟩ | ⟨hslips, hnone, he⟩
    · have hlast : a.lastError.filter Caught.truthy = none := by rw [heq]; rfl
      rw [hlast]
      exact hcont (fun h => h.1 hresolves) ⟨fun _ => hresolves, fun _ => by rw [heq]; rfl⟩
    · rw [he]
      refine alone_stopped _ ?_ hlt (.inr hfails) ?_
      · exact fun h => nomatch h
      · rw [hres, hnone]
        rintro (h | ⟨-, h⟩)
        · exact hfresh h
        · cases h
    · rw [he]
      refine hcont hslips.not_fails ⟨fun h => ?_, fun h => (hslips.1 h).elim⟩
      rw [hnone] at h
      cases h

end Steps

/-! ### Faithful reports -/

/-- Completed is reported exactly when every step resolved, and then every record says so. -/
def Faithful (plan : Plan) (inst : Instance Ctx) (t : Journal) : Prop :=
  (inst.status = .completed ↔ ∀ j < plan.steps.length, j ∈ t.resolved) ∧
    (inst.status = .completed → ∀ record ∈ inst.steps, record.status = .completed)

theorem alone_run (plan : Plan) (script : Script Ctx) (ctx : Ctx) :
    Alone (Follows script) (fun r t => ∃ inst', r = .ok inst' ∧
        (Through plan script 0 (SagaCoordinator.initial plan.definition ctx) inst' {} t ∨
          Stopped plan script 0 inst' t)) (plan.run ctx) {} := by
  refine Alone.callBind fun input hnow => ⟨fun now hb => ?_, fun e he => (nomatch he)⟩
  have hstart : now = script.start := (Except.ok.inj hb).symm.trans hnow
  subst hstart
  refine alone_runSteps _ 0 _ {} rfl (Nat.zero_le _) ⟨?_, fun _ _ => rfl, fun _ _ h => (nomatch h)⟩
  rw [SagaCoordinator.initial, List.length_map, Plan.length_steps]

/-- A workflow that follows a script is reported faithfully exactly when no step slips through, or
another one stops it. -/
theorem run_faithful (plan : Plan) (script : Script Ctx) (ctx : Ctx) (inst : Instance Ctx)
    (t : Journal) (h : Pool.Ran (Follows script) (plan.run ctx) {} (.ok inst) t) :
    Faithful plan inst t ↔
      ((∃ j < plan.steps.length, Slips plan script j) → ∃ j < plan.steps.length, Stops plan script j) := by
  obtain ⟨inst', heq, hend⟩ := ran_alone (alone_run plan script ctx) h
  obtain rfl := Except.ok.inj heq
  rcases hend with hthrough | hstopped
  · have hres : ∀ j < plan.steps.length, j ∈ t.resolved ↔ Resolves plan script j := by
      intro j hj
      rw [hthrough.resolved]
      constructor
      · rintro (h | ⟨-, -, h⟩)
        · cases h
        · exact h
      · exact fun h => .inr ⟨Nat.zero_le j, hj, h⟩
    constructor
    · rintro hf ⟨j, hj, hslips⟩
      exact (hslips.1 ((hres j hj).mp (hf.1.mp hthrough.status j hj))).elim
    · intro hcond
      have hall : ∀ j < plan.steps.length, Resolves plan script j := by
        intro j hj
        rcases loop_ends plan script j with ⟨hr, -⟩ | ⟨hf, -⟩ | ⟨hs, -⟩
        · exact hr
        · exact (hthrough.unstopped j (Nat.zero_le j) hj (.inr hf)).elim
        · obtain ⟨k, hk, hstop⟩ := hcond ⟨j, hj, hs⟩
          exact (hthrough.unstopped k (Nat.zero_le k) hk hstop).elim
      refine ⟨⟨fun _ j hj => (hres j hj).mpr (hall j hj), fun _ => hthrough.status⟩, ?_⟩
      intro _ record hmem
      obtain ⟨j, hj⟩ := List.mem_iff_getElem?.mp hmem
      have hlt := (List.getElem?_eq_some_iff.mp hj).1
      rw [hthrough.length] at hlt
      exact (hthrough.records j record (Nat.zero_le j) hj).mpr (hall j hlt)
  · obtain ⟨j, -, hj, hstop, hnot⟩ := hstopped.stop
    refine ⟨fun _ _ => ⟨j, hj, hstop⟩, fun _ => ⟨⟨fun h => (hstopped.status h).elim, fun h => ?_⟩, fun h =>
      (hstopped.status h).elim⟩⟩
    exact (hnot (h j hj)).elim

def flaky : Plan := { steps := [{ name := "flaky", retry := ⟨some (some 3)⟩ }, { name := "plain" }] }

/-- The first attempt of the first step rejects, everything else resolves. -/
def transient : Script Unit where
  start := 0
  clock _ := 0
  attempt j k := if j = 0 ∧ k = 0 then .rejects (.error "transient") else .resolves id

/-- The answers of the script in the order in which a workflow asks for them. -/
def transientReplies : List (Input (Outcome Unit)) :=
  replies ([.resolves id, .resolves id] ++ List.replicate 3 (.rejects (.error "transient")) ++
    List.replicate 7 (.resolves id))

theorem run_faithful_flaky : ∃ inst t,
    Pool.Ran (Follows transient) (flaky.run ()) {} (.ok inst) t ∧ t.executions = [0, 0, 1] ∧
      Faithful flaky inst t := by
  have hrun : Pool.Ran (Follows transient) (flaky.run ()) {} _ _ :=
    ⟨transientReplies, ⟨rfl, rfl, rfl, rfl, rfl, rfl, rfl, rfl, rfl, rfl, rfl, rfl, trivial⟩, rfl, rfl⟩
  refine ⟨_, _, hrun, rfl, (run_faithful flaky transient () _ _ hrun).mpr ?_⟩
  rintro ⟨j, hj, hnot, -⟩
  refine absurd ?_ hnot
  have hcases : j = 0 ∨ j = 1 := by
    change j < 2 at hj
    omega
  rcases hcases with rfl | rfl
  · exact ⟨1, by decide, id, rfl⟩
  · exact ⟨0, by decide, id, rfl⟩

def careless : Plan := { steps := [{ name := "careless" }] }

/-- Every attempt rejects with `undefined`. -/
def silent : Script Unit where
  start := 0
  clock _ := 0
  attempt _ _ := .rejects .undefined

/-- A step that rejects with `undefined` is reported completed. -/
theorem completed_without_resolving :
    ¬ ∀ (plan : Plan) (script : Script Unit) (inst : Instance Unit) (t : Journal),
      Pool.Ran (Follows script) (plan.run ()) {} (.ok inst) t → Faithful plan inst t := by
  intro h
  have hrun : Pool.Ran (Follows silent) (careless.run ()) {} _ _ :=
    ⟨replies (List.replicate 5 (.rejects .undefined)), ⟨rfl, rfl, rfl, rfl, rfl, trivial⟩, rfl, rfl⟩
  have hall := (h careless silent _ _ hrun).1.mp rfl 0 (by decide)
  cases hall

end ElectronicsCart.Workflow
