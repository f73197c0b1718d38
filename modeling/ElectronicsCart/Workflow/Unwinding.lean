import ElectronicsCart.Workflow.Journal

/-!
# How a workflow that stops is unwound

Runs of the coordinator with the attempts it gave up running on beside it.  An abandoned attempt
only settles: it starts no step and calls no compensation.
-/

namespace ElectronicsCart.Workflow

open Interleaving

variable {Ctx : Type}

/-! ### The status of a step -/

section Status

variable {inst : Instance Ctx} {i j : ℕ} {f : StepRecord → StepRecord}

def Instance.statusOf (inst : Instance Ctx) (j : ℕ) : Option StepStatus :=
  inst.steps[j]?.map StepRecord.status

/-- The step resolved, whether or not it was compensated since. -/
def Instance.completed (inst : Instance Ctx) (j : ℕ) : Bool :=
  inst.statusOf j == some .completed || inst.statusOf j == some .compensated

theorem statusOf_ne (h : i ≠ j) : (inst.setRecord i f).statusOf j = inst.statusOf j := by
  rw [Instance.statusOf, Instance.record_ne h, Instance.statusOf]

theorem statusOf_self {status : StepStatus} (hf : ∀ record, (f record).status = status)
    (h : i < inst.steps.length) : (inst.setRecord i f).statusOf i = some status := by
  have hrec : inst.steps[i]? = some inst.steps[i] := List.getElem?_eq_getElem h
  rw [Instance.statusOf, Instance.record_self hrec, Option.map_some, hf]

theorem completed_congr {inst' : Instance Ctx} (h : inst'.statusOf j = inst.statusOf j) :
    inst'.completed j = inst.completed j := by
  rw [Instance.completed, h, Instance.completed]

end Status

/-! ### The coordinator beside abandoned attempts -/

structure LateOnly (s t : Journal) : Prop where
  executions : t.executions = s.executions
  compensations : t.compensations = s.compensations
  compensated : t.compensated = s.compensated
  resolved : s.resolved ⊆ t.resolved

theorem LateOnly.refl (s : Journal) : LateOnly s s := ⟨rfl, rfl, rfl, fun _ h => h⟩

theorem LateOnly.trans {s t u : Journal} (h : LateOnly s t) (h' : LateOnly t u) : LateOnly s u :=
  ⟨h'.executions.trans h.executions, h'.compensations.trans h.compensations,
    h'.compensated.trans h.compensated, fun _ hm => h'.resolved (h.resolved hm)⟩

theorem lateOnly_settle (j : ℕ) (outcome : Outcome Ctx) (s : Journal) :
    LateOnly s (s.settle j outcome) := by
  refine ⟨rfl, rfl, rfl, fun k hk => ?_⟩
  cases outcome with
  | resolves patch => exact List.mem_append_left [j] hk
  | rejects value => exact hk
  | throws value => exact hk

def coordinator : Discipline WorkflowCall (Input (Outcome Ctx)) Journal where
  rely := LateOnly
  guar _ _ _ _ := True
  refl := LateOnly.refl
  trans := LateOnly.trans

def abandoned : Discipline WorkflowCall (Input (Outcome Ctx)) Journal :=
  Discipline.free fun _ _ s t => LateOnly s t

def Coordinated {α : Type} (ok : WorkflowCall → Input (Outcome Ctx) → Journal → Prop)
    (Q : Except Thrown α → Journal → Prop) (p : Observed Ctx α) (s : Journal) : Prop :=
  Holds ⟨ok, fun _ => True⟩ abandoned coordinator Q p s

/-- The `n`-th attempt of the step may throw or reject with a falsy value. -/
def MayEndFalsy (ok : WorkflowCall → Input (Outcome Ctx) → Journal → Prop) (j n : ℕ) : Prop :=
  ∃ i s value, value.truthy = false ∧
    (ok (.execute j) i s ∧ s.executions.count j + 1 = n ∧ i.reply = .throws value ∨
      ok (.settle j) i s ∧ s.executions.count j = n ∧ i.reply.result = .error value)

section Rules

variable {α β : Type} {ok : WorkflowCall → Input (Outcome Ctx) → Journal → Prop}
  {Q : Except Thrown α → Journal → Prop} {R : Except Thrown β → Journal → Prop} {s : Journal}

theorem Coordinated.mono {Q' : Except Thrown α → Journal → Prop} {p : Observed Ctx α}
    (hQ : ∀ r t, Q r t → Q' r t) (h : Coordinated ok Q p s) : Coordinated ok Q' p s :=
  Holds.mono (fun r t _ => hQ r t) h

theorem Coordinated.bind {p : Observed Ctx β} {k : β → Observed Ctx α} (hp : Coordinated ok R p s)
    (hk : ∀ b t, R (.ok b) t → Coordinated ok Q (k b) t)
    (herr : ∀ e t, R (.error e) t → Q (.error e) t) : Coordinated ok Q (p.bind k) s := by
  refine Holds.bind (Holds.mono ?_ hp) trivial
  rintro (e | b) t - ht
  · exact herr e t ht
  · exact hk b t ht

theorem Coordinated.attemptBind {p : Observed Ctx β} {k : Except Thrown β → Observed Ctx α}
    (hp : Coordinated ok R p s) (hk : ∀ r t, R r t → Coordinated ok Q (k r) t) :
    Coordinated ok Q (p.attempt.bind k) s :=
  Holds.bind (Holds.attempt (Holds.mono (fun r t _ ht => hk r t ht) hp)) trivial

end Rules

/-! ### Attempts -/

/-- `m` more executions of step `j`. -/
structure Attempted (j m : ℕ) (s t : Journal) : Prop where
  executions : t.executions = s.executions ++ List.replicate m j
  compensations : t.compensations = s.compensations
  compensated : t.compensated = s.compensated
  resolved : s.resolved ⊆ t.resolved

section Attempts

variable {ok : WorkflowCall → Input (Outcome Ctx) → Journal → Prop} {j m : ℕ} {s t u : Journal}

theorem Attempted.late (h : Attempted j m s t) (h' : LateOnly t u) : Attempted j m s u :=
  ⟨h'.executions.trans h.executions, h'.compensations.trans h.compensations,
    h'.compensated.trans h.compensated, fun _ hm => h'.resolved (h.resolved hm)⟩

theorem LateOnly.attempted (h : LateOnly s t) (h' : Attempted j m t u) : Attempted j m s u :=
  ⟨h.executions ▸ h'.executions, h'.compensations.trans h.compensations,
    h'.compensated.trans h.compensated, fun _ hm => h'.resolved (h.resolved hm)⟩

theorem Attempted.trans {m' : ℕ} (h : Attempted j m s t) (h' : Attempted j m' t u) :
    Attempted j (m + m') s u := by
  refine ⟨?_, h'.compensations.trans h.compensations, h'.compensated.trans h.compensated,
    fun _ hm => h'.resolved (h.resolved hm)⟩
  rw [h'.executions, h.executions, List.append_assoc, List.replicate_add]

theorem attempted_execute (outcome : Outcome Ctx) : Attempted j 1 s (s.execute j outcome) :=
  ⟨rfl, rfl, rfl, fun _ h => h⟩

theorem Attempted.count (h : Attempted j m s t) :
    t.executions.count j = s.executions.count j + m := by
  rw [h.executions, List.count_append, List.count_replicate_self]

theorem coordinated_attemptOnce (shape : Shape) (ctx : Ctx) : Coordinated ok
    (fun r t => Attempted j 1 s t ∧ (∀ patch, r = .ok patch → j ∈ t.resolved) ∧
      ∀ e, r = .error e → e.truthy = true ∨ MayEndFalsy ok j (s.executions.count j + 1))
    (SagaCoordinator.attemptOnce j (observedStep j shape) ctx) s := by
  refine Holds.callBind fun t ht _ i ho => ⟨trivial, trivial, ?_⟩
  have hstart : Attempted j 1 s (t.execute j i.reply) :=
    LateOnly.attempted ht (attempted_execute i.reply)
  have hawait : Coordinated ok (fun r u => Attempted j 1 s u ∧ (∀ patch, r = .ok patch → j ∈ u.resolved) ∧
      ∀ e, r = .error e → e.truthy = true ∨ MayEndFalsy ok j (s.executions.count j + 1))
      (SagaCoordinator.withTimeout j shape.name (promise j)) (t.execute j i.reply) := by
    refine Holds.race_call (fun _ _ _ _ => trivial) (fun u hu _ => ?_)
      (fun u i' _ _ => ⟨trivial, lateOnly_settle j i'.reply u⟩) (Holds.call ?_)
    · exact ⟨hstart.late hu, fun _ h => (nomatch h), fun e he => .inl (Except.error.inj he ▸ rfl)⟩
    · intro u hu _ i' ho'
      refine ⟨trivial, trivial, fun u' hu' _ => ⟨?_, fun patch hp => ?_, fun e he => ?_⟩⟩
      · exact (hstart.late hu).late ((lateOnly_settle j i'.reply u).trans hu')
      · have hmem : j ∈ (u.settle j i'.reply).resolved := by
          cases hreply : i'.reply with
          | resolves p => exact List.mem_append_right _ (List.mem_singleton.mpr rfl)
          | rejects value => rw [hreply] at hp; cases hp
          | throws value => rw [hreply] at hp; cases hp
        exact hu'.resolved hmem
      · cases ht : e.truthy with
        | true => exact .inl rfl
        | false => exact .inr ⟨i', u, e, ht, .inr ⟨ho', (hstart.late hu).count, he⟩⟩
  cases hreply : i.reply with
  | throws value =>
    intro u hu _
    rw [hreply] at hstart
    refine ⟨hstart.late hu, fun _ h => (nomatch h), fun e he => ?_⟩
    obtain rfl := Except.error.inj he
    cases hv : value.truthy with
    | true => exact .inl rfl
    | false => exact .inr ⟨i, t, value, hv, .inl ⟨ho, by rw [ht.executions], hreply⟩⟩
  | resolves patch => rw [hreply] at hawait; exact hawait
  | rejects value => rw [hreply] at hawait; exact hawait

/-- What the retry loop of step `j` leaves. -/
structure Looped (ok : WorkflowCall → Input (Outcome Ctx) → Journal → Prop) (j n : ℕ)
    (last : Option Thrown) (a : SagaCoordinator.Attempts Thrown Ctx) (s t : Journal) : Prop where
  attempted : ∃ m ≤ n, Attempted j m s t
  resolved : ∀ patch, a.patch = some patch → a.lastError = none ∧ j ∈ t.resolved
  rejected : a.patch = none → n = 0 ∧ a.lastError = last ∨
    0 < n ∧ ∃ e, a.lastError = some e ∧
      (e.truthy = true ∨ MayEndFalsy ok j (s.executions.count j + n))

theorem coordinated_attemptLoop (shape : Shape) (ctx : Ctx) :
    ∀ n made last (s : Journal), Coordinated ok (fun r t => ∃ a, r = .ok a ∧ Looped ok j n last a s t)
      (SagaCoordinator.attemptLoop j (observedStep j shape) ctx n made last) s := by
  intro n
  induction n with
  | zero =>
    intro made last s t ht _
    refine ⟨_, rfl, ⟨0, Nat.le_refl 0, ?_⟩, fun _ h => (nomatch h), fun _ => .inl ⟨rfl, rfl⟩⟩
    have hzero : Attempted j 0 s s := ⟨(List.append_nil _).symm, rfl, rfl, fun _ h => h⟩
    exact hzero.late ht
  | succ n ih =>
    intro made last s
    refine Coordinated.attemptBind (coordinated_attemptOnce shape ctx) fun r t ⟨hatt, hok, herr⟩ => ?_
    cases r with
    | ok patch =>
      intro u hu _
      refine ⟨_, rfl, ⟨1, by omega, hatt.late hu⟩, fun _ _ => ⟨rfl, hu.resolved (hok patch rfl)⟩, ?_⟩
      exact fun h => (nomatch h)
    | error e =>
      refine Coordinated.mono (fun r u ⟨a, hr, h⟩ => ⟨a, hr, ?_, h.resolved,
        fun hnone => .inr ⟨Nat.succ_pos n, ?_⟩⟩)
        (ih (made + 1) (some e) t)
      · obtain ⟨m, hm, ham⟩ := h.attempted
        exact ⟨1 + m, by omega, hatt.trans ham⟩
      · rcases h.rejected hnone with ⟨rfl, hlast⟩ | ⟨-, hlast⟩
        · exact ⟨e, hlast, herr e rfl⟩
        · rwa [hatt.count, Nat.add_assoc, Nat.add_comm 1] at hlast

end Attempts

/-! ### Compensations -/

/-- The steps below `i` that completed and have a compensation, the last one first. -/
def compensable (plan : Plan) (inst : Instance Ctx) (i : ℕ) : List ℕ :=
  (List.range i).reverse.filter fun j => plan.compensates j && inst.completed j

/-- What the loop of `failAndCompensate` from step `i - 1` down leaves. -/
structure Unwound (plan : Plan) (i : ℕ) (inst inst' : Instance Ctx) (s t : Journal) : Prop where
  executions : t.executions = s.executions
  resolved : s.resolved ⊆ t.resolved
  compensations : t.compensations = s.compensations ++ compensable plan inst i
  above : ∀ j, i ≤ j → inst'.statusOf j = inst.statusOf j
  completed : ∀ j, inst'.completed j = inst.completed j
  compensated : ∀ j, j ∈ t.compensated ↔
    j ∈ s.compensated ∨ j < i ∧ inst'.statusOf j = some .compensated

section Compensations

variable {plan : Plan} {i : ℕ} {inst inst' : Instance Ctx} {s t u : Journal}
  {ok : WorkflowCall → Input (Outcome Ctx) → Journal → Prop}

theorem compensable_succ : compensable plan inst (i + 1) =
    if plan.compensates i && inst.completed i then i :: compensable plan inst i
    else compensable plan inst i := by
  rw [compensable, List.range_succ, List.reverse_append, List.reverse_singleton, List.singleton_append,
    List.filter_cons]
  rfl

theorem compensable_congr (h : ∀ j, inst'.completed j = inst.completed j) :
    compensable plan inst' i = compensable plan inst i := by
  rw [compensable, compensable]
  congr 1
  funext j
  rw [h]

theorem Unwound.skip (h : Unwound plan i inst inst' s t)
    (hnot : (plan.compensates i && inst.completed i) = false)
    (hst : inst.statusOf i ≠ some .compensated) : Unwound plan (i + 1) inst inst' s t := by
  have habove := h.above i (Nat.le_refl i)
  refine ⟨h.executions, h.resolved, ?_, fun j hj => h.above j (by omega), h.completed, fun j => ?_⟩
  · rw [h.compensations, compensable_succ, hnot]
    rfl
  · rw [h.compensated]
    constructor
    · exact fun hj => hj.imp_right fun hj => ⟨by omega, hj.2⟩
    · rintro (hj | ⟨hlt, hj⟩)
      · exact .inl hj
      · rcases Nat.lt_succ_iff_lt_or_eq.mp hlt with hlt | rfl
        · exact .inr ⟨hlt, hj⟩
        · rw [habove] at hj
          exact (hst hj).elim

theorem mem_compensated {outcome : Outcome Ctx} {j : ℕ} :
    j ∈ (s.compensate i outcome).compensated ↔
      j ∈ s.compensated ∨ j = i ∧ ∃ patch, outcome.result = .ok patch := by
  cases outcome <;> simp [Journal.compensate, Outcome.result]

theorem coordinated_compensation (ctx : Ctx) : Coordinated ok
    (fun r t => t.executions = s.executions ∧ s.resolved ⊆ t.resolved ∧
      t.compensations = s.compensations ++ [i] ∧
      ∀ j, j ∈ t.compensated ↔ j ∈ s.compensated ∨ j = i ∧ r = .ok ())
    (compensation i ctx) s := by
  refine Holds.call fun t ht _ input _ => ⟨trivial, trivial, fun u hu _ => ?_⟩
  refine ⟨hu.executions.trans ht.executions, fun _ h => hu.resolved (ht.resolved h), ?_, fun j => ?_⟩
  · have hcall : (t.compensate i input.reply).compensations = t.compensations ++ [i] := rfl
    rw [hu.compensations, hcall, ht.compensations]
  · have hresult : (∃ patch, input.reply.result = .ok patch) ↔
        (input.reply.result.map fun _ => ()) = .ok () := by
      cases input.reply.result with
      | ok patch => exact ⟨fun _ => rfl, fun _ => ⟨patch, rfl⟩⟩
      | error e => exact ⟨fun ⟨_, h⟩ => (nomatch h), fun h => (nomatch h)⟩
    rw [hu.compensated, mem_compensated, ht.compensated, hresult]

theorem status_noteCompensation (outcome : Except Thrown Unit) (record : StepRecord)
    (h : record.status = .completed) : (SagaCoordinator.noteCompensation outcome record).status =
      if outcome = .ok () then .compensated else .completed := by
  cases outcome with
  | ok _ => rfl
  | error e =>
    rw [if_neg fun h => nomatch h]
    exact h

theorem Unwound.cons {outcome : Except Thrown Unit} {record : StepRecord}
    (hrec : inst.steps[i]? = some record) (hdone : record.status = .completed)
    (hcomp : plan.compensates i = true)
    (hcall : t.executions = s.executions ∧ s.resolved ⊆ t.resolved ∧
      t.compensations = s.compensations ++ [i] ∧
      ∀ j, j ∈ t.compensated ↔ j ∈ s.compensated ∨ j = i ∧ outcome = .ok ())
    (h : Unwound plan i (inst.setRecord i (SagaCoordinator.noteCompensation outcome)) inst' t u) :
    Unwound plan (i + 1) inst inst' s u := by
  obtain ⟨hexec, hres, hcalls, hundone⟩ := hcall
  have hst : (inst.setRecord i (SagaCoordinator.noteCompensation outcome)).statusOf i =
      some (if outcome = .ok () then .compensated else .completed) := by
    rw [Instance.statusOf, Instance.record_self hrec, Option.map_some,
      status_noteCompensation outcome record hdone]
  have hold : inst.statusOf i = some .completed := by
    rw [Instance.statusOf, hrec, Option.map_some, hdone]
  have hsame : ∀ j, (inst.setRecord i (SagaCoordinator.noteCompensation outcome)).completed j =
      inst.completed j := by
    intro j
    by_cases hj : i = j
    · subst hj
      rw [Instance.completed, hst, Instance.completed, hold]
      split <;> rfl
    · exact completed_congr (statusOf_ne hj)
  have hself : inst.completed i = true := by
    rw [Instance.completed, hold]
    rfl
  refine ⟨h.executions.trans hexec, fun _ hm => h.resolved (hres hm), ?_, fun j hj => ?_,
    fun j => (h.completed j).trans (hsame j), fun j => ?_⟩
  · rw [h.compensations, hcalls, compensable_congr hsame, compensable_succ, hcomp, hself,
      List.append_assoc]
    rfl
  · rw [h.above j (by omega), statusOf_ne (by omega)]
  · have hi := h.above i (Nat.le_refl i)
    rw [hst] at hi
    rw [h.compensated, hundone]
    constructor
    · rintro ((hj | ⟨rfl, hr⟩) | ⟨hlt, hj⟩)
      · exact .inl hj
      · refine .inr ⟨Nat.lt_succ_self j, ?_⟩
        rw [hi, if_pos hr]
      · exact .inr ⟨by omega, hj⟩
    · rintro (hj | ⟨hlt, hj⟩)
      · exact .inl (.inl hj)
      · rcases Nat.lt_succ_iff_lt_or_eq.mp hlt with hlt | rfl
        · exact .inr ⟨hlt, hj⟩
        · refine .inl (.inr ⟨rfl, ?_⟩)
          rw [hi] at hj
          by_contra hne
          rw [if_neg hne] at hj
          cases hj

theorem coordinated_compensateFrom :
    ∀ i (inst : Instance Ctx) (s : Journal), (∀ j < i, inst.statusOf j ≠ some .compensated) →
      Coordinated ok (fun r t => ∃ inst', r = .ok inst' ∧ Unwound plan i inst inst' s t)
        (SagaCoordinator.compensateFrom plan.definition i inst) s := by
  intro i
  induction i with
  | zero =>
    intro inst s _ t ht _
    refine ⟨inst, rfl, ht.executions, ht.resolved, ?_, fun _ _ => rfl, fun _ => rfl, fun j => ?_⟩
    · rw [ht.compensations]
      exact (List.append_nil _).symm
    · rw [ht.compensated]
      exact ⟨.inl, fun h => h.resolve_right fun h => absurd h.1 (Nat.not_lt_zero j)⟩
  | succ i ih =>
    intro inst s hnone
    have hi := hnone i (Nat.lt_succ_self i)
    have hless : ∀ j < i, inst.statusOf j ≠ some .compensated := fun j hj => hnone j (by omega)
    have hskip : (plan.compensates i && inst.completed i) = false →
        Coordinated ok (fun r t => ∃ inst', r = .ok inst' ∧ Unwound plan (i + 1) inst inst' s t)
          (SagaCoordinator.compensateFrom plan.definition i inst) s := fun hnot =>
      Coordinated.mono (fun r t ⟨inst', hr, h⟩ => ⟨inst', hr, h.skip hnot hi⟩) (ih inst s hless)
    unfold SagaCoordinator.compensateFrom
    split
    next compensate record hcomp hrec =>
      obtain ⟨hcan, rfl⟩ := Plan.compensate_eq hcomp
      split
      next hdone =>
        refine Coordinated.attemptBind (coordinated_compensation inst.context) fun r t hcall => ?_
        refine Coordinated.mono (fun r u ⟨inst', hr, h⟩ => ⟨inst', hr, h.cons hrec hdone hcan hcall⟩)
          (ih _ t fun j hj => ?_)
        rw [statusOf_ne (by omega)]
        exact hless j hj
      next hdone =>
        refine hskip ?_
        have hst : inst.statusOf i = some record.status := by
          rw [Instance.statusOf, hrec, Option.map_some]
        rw [hst] at hi
        have hne : inst.completed i = false := by
          rw [Instance.completed, hst]
          have hne' : record.status ≠ .compensated := fun h => hi (congrArg some h)
          simp [hdone, hne']
        rw [hne, Bool.and_false]
    next hno =>
      refine hskip ?_
      cases hcan : plan.compensates i with
      | false => rfl
      | true =>
        have hrec : inst.steps[i]? = none := by
          by_contra hsome
          obtain ⟨record, hrec⟩ := Option.ne_none_iff_exists'.mp hsome
          exact hno _ record (Plan.compensation_eq hcan) hrec
        rw [Bool.true_and, Instance.completed, Instance.statusOf, hrec]
        rfl

end Compensations

/-! ### Whole runs -/

/-- A step below the one that is next: it resolved, or the loop passed it by. -/
def Passed (ok : WorkflowCall → Input (Outcome Ctx) → Journal → Prop) (plan : Plan)
    (inst : Instance Ctx) (s : Journal) (j : ℕ) : Prop :=
  inst.statusOf j = some .completed ∧ j ∈ s.resolved ∨
    inst.statusOf j = some .running ∧
      (plan.maxAttempts j = 0 ∨ MayEndFalsy ok j (plan.maxAttempts j))

/-- The state of the loop before step `i`. -/
structure Forward (ok : WorkflowCall → Input (Outcome Ctx) → Journal → Prop) (plan : Plan) (i : ℕ)
    (inst : Instance Ctx) (s : Journal) : Prop where
  length : inst.steps.length = plan.steps.length
  executed : ∀ j ∈ s.executions, j < i
  attempts : ∀ j, s.executions.count j ≤ plan.maxAttempts j
  compensations : s.compensations = []
  compensated : s.compensated = []
  ahead : ∀ j, i ≤ j → j < plan.steps.length → inst.statusOf j = some .pending
  passed : ∀ j < i, Passed ok plan inst s j

/-- The state in which the loop stops at step `i`. -/
structure Halting (ok : WorkflowCall → Input (Outcome Ctx) → Journal → Prop) (plan : Plan) (i : ℕ)
    (status : Status) (inst : Instance Ctx) (s : Journal) : Prop where
  lt : i < plan.steps.length
  stopped : status = .failed ∧ inst.statusOf i = some .failed ∧ 0 < plan.maxAttempts i ∨
    status = .timedOut ∧ inst.statusOf i = some .pending
  executed : ∀ j ∈ s.executions, j < i ∨ j = i ∧ status = .failed
  attempts : ∀ j, s.executions.count j ≤ plan.maxAttempts j
  compensations : s.compensations = []
  compensated : s.compensated = []
  ahead : ∀ j, i < j → inst.completed j = false
  passed : ∀ j < i, Passed ok plan inst s j

/-- A workflow that stopped at step `i`, and how it was unwound. -/
structure StoppedAt (ok : WorkflowCall → Input (Outcome Ctx) → Journal → Prop) (plan : Plan) (i : ℕ)
    (inst : Instance Ctx) (t : Journal) : Prop where
  lt : i < plan.steps.length
  stopped : inst.status = .failed ∧ inst.statusOf i = some .failed ∧ 0 < plan.maxAttempts i ∨
    inst.status = .timedOut ∧ inst.statusOf i = some .pending
  executed : ∀ j ∈ t.executions, j < i ∨ j = i ∧ inst.status = .failed
  attempts : ∀ j, t.executions.count j ≤ plan.maxAttempts j
  compensations : t.compensations = compensable plan inst i
  compensated : ∀ j, inst.statusOf j = some .compensated ↔ j ∈ t.compensated
  resolved : ∀ j, inst.completed j = true → j ∈ t.resolved
  below : ∀ j < i, inst.completed j = true ∨
    plan.maxAttempts j = 0 ∨ MayEndFalsy ok j (plan.maxAttempts j)

section Runs

variable {plan : Plan} {i : ℕ} {inst inst' : Instance Ctx} {s t : Journal} {status : Status}
  {ok : WorkflowCall → Input (Outcome Ctx) → Journal → Prop}

theorem Passed.completed {j : ℕ} (h : Passed ok plan inst s j) :
    inst.completed j = true ∧ j ∈ s.resolved ∨
      inst.completed j = false ∧
        (plan.maxAttempts j = 0 ∨ MayEndFalsy ok j (plan.maxAttempts j)) := by
  rcases h with ⟨hst, hmem⟩ | ⟨hst, hwhy⟩
  · refine .inl ⟨?_, hmem⟩
    rw [Instance.completed, hst]
    rfl
  · refine .inr ⟨?_, hwhy⟩
    rw [Instance.completed, hst]
    rfl

theorem Halting.incomplete (h : Halting ok plan i status inst s) : inst.completed i = false := by
  rcases h.stopped with ⟨-, hst, -⟩ | ⟨-, hst⟩
  · rw [Instance.completed, hst]
    rfl
  · rw [Instance.completed, hst]
    rfl

theorem completed_of_compensated {j : ℕ} (h : inst.statusOf j = some .compensated) :
    inst.completed j = true := by
  rw [Instance.completed, h]
  rfl

theorem Halting.unwound (h : Halting ok plan i status inst s) (hu : Unwound plan i inst inst' s t) :
    StoppedAt ok plan i { inst' with status := status } t := by
  have hcompleted : ∀ j, Instance.completed { inst' with status := status } j = inst.completed j :=
    hu.completed
  have hstatus : ∀ j, Instance.statusOf { inst' with status := status } j = inst'.statusOf j :=
    fun _ => rfl
  have habove : ∀ j, i ≤ j → inst'.statusOf j ≠ some .compensated := by
    intro j hj hst
    have hdone := (hu.completed j).symm.trans (completed_of_compensated hst)
    rcases Nat.eq_or_lt_of_le hj with rfl | hlt
    · rw [h.incomplete] at hdone
      cases hdone
    · rw [h.ahead j hlt] at hdone
      cases hdone
  refine ⟨h.lt, ?_, fun j hj => ?_, fun j => ?_, ?_, fun j => ?_, fun j hj => ?_, fun j hj => ?_⟩
  · rw [hstatus, hu.above i (Nat.le_refl i)]
    exact h.stopped
  · rw [hu.executions] at hj
    exact h.executed j hj
  · rw [hu.executions]
    exact h.attempts j
  · rw [hu.compensations, h.compensations, List.nil_append]
    exact (compensable_congr hcompleted).symm
  · rw [hu.compensated, h.compensated, hstatus]
    constructor
    · intro hst
      refine .inr ⟨?_, hst⟩
      by_contra hge
      exact habove j (by omega) hst
    · rintro (hj | ⟨-, hst⟩)
      · cases hj
      · exact hst
  · rw [hcompleted] at hj
    rcases Nat.lt_trichotomy j i with hlt | rfl | hgt
    · rcases (h.passed j hlt).completed with ⟨-, hmem⟩ | ⟨hno, -⟩
      · exact hu.resolved hmem
      · rw [hno] at hj
        cases hj
    · rw [h.incomplete] at hj
      cases hj
    · rw [h.ahead j hgt] at hj
      cases hj
  · rw [hcompleted]
    exact (h.passed j hj).completed.imp And.left And.right

theorem coordinated_failAndCompensate (message : String) (h : Halting ok plan i status inst s) :
    Coordinated ok (fun r t => ∃ inst', r = .ok inst' ∧ StoppedAt ok plan i inst' t)
      (SagaCoordinator.failAndCompensate plan.definition inst i message status) s := by
  have hnone : ∀ j < i, Instance.statusOf { inst with status := .compensating, error := some message } j ≠
      some .compensated := by
    intro j hj hst
    have hst' : inst.statusOf j = some .compensated := hst
    rcases h.passed j hj with ⟨hc, -⟩ | ⟨hr, -⟩
    · rw [hst'] at hc
      cases hc
    · rw [hst'] at hr
      cases hr
  refine Coordinated.bind (coordinated_compensateFrom i _ s hnone) (fun inst' t ht u hu _ => ?_)
    fun e t ⟨inst', hr, _⟩ => (nomatch hr)
  obtain ⟨inst'', hr, hunw⟩ := ht
  cases hr
  refine ⟨_, rfl, ?_⟩
  have hunw' : Unwound plan i inst inst' s u :=
    ⟨hu.executions.trans hunw.executions, fun _ hm => hu.resolved (hunw.resolved hm),
      hu.compensations.trans hunw.compensations, hunw.above, hunw.completed,
      fun j => by rw [hu.compensated]; exact hunw.compensated j⟩
  exact h.unwound hunw'

theorem Forward.late (h : Forward ok plan i inst s) (hl : LateOnly s t) : Forward ok plan i inst t :=
  ⟨h.length, fun j hj => h.executed j (hl.executions ▸ hj), fun j => hl.executions ▸ h.attempts j,
    hl.compensations.trans h.compensations, hl.compensated.trans h.compensated, h.ahead,
    fun j hj => (h.passed j hj).imp_left fun hp => ⟨hp.1, hl.resolved hp.2⟩⟩

theorem Forward.timedOut (h : Forward ok plan i inst s) (hlt : i < plan.steps.length) :
    Halting ok plan i .timedOut inst s := by
  refine ⟨hlt, .inr ⟨rfl, h.ahead i (Nat.le_refl i) hlt⟩, fun j hj => .inl (h.executed j hj),
    h.attempts, h.compensations, h.compensated, fun j hj => ?_, h.passed⟩
  by_cases hj' : j < plan.steps.length
  · rw [Instance.completed, h.ahead j (by omega) hj']
    rfl
  · have hnone : inst.steps[j]? = none := by
      rw [List.getElem?_eq_none_iff, h.length]
      omega
    rw [Instance.completed, Instance.statusOf, hnone]
    rfl

section Step

variable {a : SagaCoordinator.Attempts Thrown Ctx}

theorem statusOf_applyAttempts_ne {j : ℕ} (h : i ≠ j) :
    (SagaCoordinator.applyAttempts i a (inst.begin i)).statusOf j = inst.statusOf j := by
  unfold SagaCoordinator.applyAttempts
  split
  · exact (statusOf_ne h).trans (statusOf_ne h)
  · exact (statusOf_ne h).trans (statusOf_ne h)

theorem statusOf_applyAttempts (h : i < inst.steps.length) :
    (SagaCoordinator.applyAttempts i a (inst.begin i)).statusOf i =
      some (if a.patch.isSome then .completed else .running) := by
  have hrec : inst.steps[i]? = some inst.steps[i] := List.getElem?_eq_getElem h
  cases ha : a.patch with
  | some patch =>
    rw [SagaCoordinator.applyAttempts, ha]
    exact congrArg (Option.map StepRecord.status) (Instance.record_self (Instance.record_self hrec))
  | none =>
    rw [SagaCoordinator.applyAttempts, ha]
    exact congrArg (Option.map StepRecord.status) (Instance.record_self (Instance.record_self hrec))

theorem length_applyAttempts :
    (SagaCoordinator.applyAttempts i a (inst.begin i)).steps.length = inst.steps.length := by
  unfold SagaCoordinator.applyAttempts
  split
  · exact Instance.length_setRecord.trans Instance.length_setRecord
  · exact Instance.length_setRecord.trans Instance.length_setRecord

theorem Forward.unattempted (h : Forward ok plan i inst s) : s.executions.count i = 0 :=
  List.count_eq_zero.mpr fun hmem => absurd (h.executed i hmem) (Nat.lt_irrefl i)

theorem Forward.attempted {n : ℕ} {last : Option Thrown} (h : Forward ok plan i inst s)
    (hl : Looped ok i n last a s t) (hn : n = plan.maxAttempts i) :
    (∀ j ∈ t.executions, j < i ∨ j = i) ∧ (∀ j, t.executions.count j ≤ plan.maxAttempts j) ∧
      t.compensations = [] ∧ t.compensated = [] := by
  obtain ⟨m, hm, hatt⟩ := hl.attempted
  refine ⟨fun j hj => ?_, fun j => ?_, hatt.compensations.trans h.compensations,
    hatt.compensated.trans h.compensated⟩
  · rw [hatt.executions, List.mem_append] at hj
    exact hj.imp (h.executed j) List.eq_of_mem_replicate
  · rw [hatt.executions, List.count_append, List.count_replicate]
    by_cases hj : i = j
    · subst hj
      simp only [h.unattempted, beq_self_eq_true, if_true]
      omega
    · rw [if_neg (by simpa using hj), Nat.add_zero]
      exact h.attempts j

theorem Looped.keeps_passed {n j : ℕ} {last : Option Thrown} (hl : Looped ok i n last a s t)
    (hj : j < i) (h : Passed ok plan inst s j) :
    Passed ok plan (SagaCoordinator.applyAttempts i a (inst.begin i)) t j := by
  obtain ⟨m, -, hatt⟩ := hl.attempted
  rw [Passed, statusOf_applyAttempts_ne (by omega)]
  exact h.imp_left fun hp => ⟨hp.1, hatt.resolved hp.2⟩

theorem Forward.next {n : ℕ} (h : Forward ok plan i inst s) (hlt : i < plan.steps.length)
    (hl : Looped ok i n none a s t) (hn : n = plan.maxAttempts i)
    (hlast : a.lastError.filter Caught.truthy = none) :
    Forward ok plan (i + 1) (SagaCoordinator.applyAttempts i a (inst.begin i)) t := by
  obtain ⟨hexec, hcount, hcomp, hundone⟩ := h.attempted hl hn
  have hself := statusOf_applyAttempts (a := a) (h.length ▸ hlt)
  refine ⟨length_applyAttempts.trans h.length, fun j hj => ?_, hcount, hcomp, hundone,
    fun j hj hj' => ?_, fun j hj => ?_⟩
  · rcases hexec j hj with hlt | rfl
    · omega
    · exact Nat.lt_succ_self j
  · rw [statusOf_applyAttempts_ne (by omega)]
    exact h.ahead j (by omega) hj'
  · rcases Nat.lt_succ_iff_lt_or_eq.mp hj with hj | rfl
    · exact hl.keeps_passed hj (h.passed j hj)
    · rw [Passed, hself]
      cases ha : a.patch with
      | some patch => exact .inl ⟨rfl, (hl.resolved patch ha).2⟩
      | none =>
        refine .inr ⟨rfl, ?_⟩
        rcases hl.rejected ha with ⟨hzero, -⟩ | ⟨-, e, he, htruthy | hfalsy⟩
        · exact .inl (hn.symm.trans hzero)
        · rw [he, Option.filter_some] at hlast
          exact absurd (hlast.symm.trans (if_pos htruthy)) (by simp)
        · rw [h.unattempted, Nat.zero_add, hn] at hfalsy
          exact .inr hfalsy

theorem Forward.failed {n : ℕ} {e : Thrown} (h : Forward ok plan i inst s)
    (hlt : i < plan.steps.length) (hl : Looped ok i n none a s t) (hn : n = plan.maxAttempts i)
    (hlast : a.lastError.filter Caught.truthy = some e) {f : StepRecord → StepRecord}
    (hf : ∀ record, (f record).status = .failed) :
    Halting ok plan i .failed
      ((SagaCoordinator.applyAttempts i a (inst.begin i)).setRecord i f) t := by
  obtain ⟨hexec, hcount, hcomp, hundone⟩ := h.attempted hl hn
  have hlen : i < (SagaCoordinator.applyAttempts i a (inst.begin i)).steps.length := by
    rw [length_applyAttempts, h.length]
    exact hlt
  have hother : ∀ j, i ≠ j → ((SagaCoordinator.applyAttempts i a (inst.begin i)).setRecord i f).statusOf j =
      inst.statusOf j := fun j hj => (statusOf_ne hj).trans (statusOf_applyAttempts_ne hj)
  have hpositive : 0 < plan.maxAttempts i := by
    cases ha : a.patch with
    | some patch =>
      rw [(hl.resolved patch ha).1] at hlast
      cases hlast
    | none =>
      rcases hl.rejected ha with ⟨-, hnone⟩ | ⟨hpos, -⟩
      · rw [hnone] at hlast
        cases hlast
      · omega
  refine ⟨hlt, .inl ⟨rfl, statusOf_self hf hlen, hpositive⟩, fun j hj => ?_, hcount, hcomp, hundone,
    fun j hj => ?_, fun j hj => ?_⟩
  · exact (hexec j hj).imp_right fun hj => ⟨hj, rfl⟩
  · rw [completed_congr (hother j (by omega))]
    exact (h.timedOut hlt).ahead j hj
  · rw [Passed, statusOf_ne (by omega)]
    exact hl.keeps_passed hj (h.passed j hj)

end Step

theorem coordinated_runSteps {deadline : ℕ} :
    ∀ (rest : List (Step WorkflowCall (Outcome Ctx) Journal Thrown Ctx)) (i : ℕ) (inst : Instance Ctx)
      (s : Journal), plan.definition.steps.drop i = rest → Forward ok plan i inst s →
      Coordinated ok (fun r t => ∃ inst', r = .ok inst' ∧
          (inst'.status = .completed ∨ ∃ k, StoppedAt ok plan k inst' t))
        (SagaCoordinator.runSteps plan.definition deadline i rest inst) s := by
  intro rest
  induction rest with
  | nil => exact fun i inst s _ _ t _ _ => ⟨_, rfl, .inl rfl⟩
  | cons step rest ih =>
    intro i inst s hdrop hfwd
    obtain ⟨hstep, hdrop'⟩ := next_of_drop hdrop
    obtain ⟨shape, hshape, rfl⟩ := Plan.step_eq hstep
    have hlt : i < plan.steps.length := (List.getElem?_eq_some_iff.mp hshape).1
    refine Holds.callBind fun s' hs' _ input _ => ⟨trivial, trivial, ?_⟩
    have hfwd' := hfwd.late hs'
    dsimp only
    split
    · exact Coordinated.mono (fun r t ⟨inst', hr, h⟩ => ⟨inst', hr, .inr ⟨i, h⟩⟩)
        (coordinated_failAndCompensate _ (hfwd'.timedOut hlt))
    refine Coordinated.bind (coordinated_attemptLoop shape inst.context _ 0 none s') ?_
      fun e t ⟨a, hr, _⟩ => (nomatch hr)
    rintro a t ⟨a', ha, hl⟩
    cases ha
    rw [Plan.rounds_eq hshape] at hl
    cases hlast : a.lastError.filter Caught.truthy with
    | some e =>
      exact Coordinated.mono (fun r t ⟨inst', hr, h⟩ => ⟨inst', hr, .inr ⟨i, h⟩⟩)
        (coordinated_failAndCompensate _ (hfwd'.failed hlt hl rfl hlast fun _ => rfl))
    | none => exact ih (i + 1) _ t hdrop' (hfwd'.next hlt hl rfl hlast)

end Runs

theorem coordinated_run (ok : WorkflowCall → Input (Outcome Ctx) → Journal → Prop) (plan : Plan)
    (ctx : Ctx) : Coordinated ok (fun r t => ∃ inst', r = .ok inst' ∧
      (inst'.status = .completed ∨ ∃ k, StoppedAt ok plan k inst' t)) (plan.run ctx) {} := by
  refine Holds.callBind fun s hs _ input _ => ⟨trivial, trivial, ?_⟩
  have hstart : Forward ok plan 0 (SagaCoordinator.initial plan.definition ctx) {} := by
    refine ⟨?_, fun j hj => (nomatch hj), fun j => Nat.zero_le _, rfl, rfl, fun j _ hj => ?_,
      fun j hj => (Nat.not_lt_zero j hj).elim⟩
    · rw [SagaCoordinator.initial, List.length_map, Plan.length_steps]
    · have hlen : j < (plan.definition : Definition _ _ _ _ Ctx).steps.length := by
        rw [Plan.length_steps]
        exact hj
      rw [Instance.statusOf, SagaCoordinator.initial, List.getElem?_map, List.getElem?_eq_getElem hlen]
      rfl
  exact coordinated_runSteps _ 0 _ s rfl (hstart.late hs)

def Plan.pool (plan : Plan) (ctx : Ctx) :
    Pool WorkflowCall (Input (Outcome Ctx)) Journal Thrown (Instance Ctx) :=
  ⟨[plan.run ctx], {}⟩

/-- However its attempts end and whenever they settle: a workflow that did not complete stopped at
one of its steps and was unwound from there. -/
theorem run_stopped {ok : WorkflowCall → Input (Outcome Ctx) → Journal → Prop} {plan : Plan}
    {ctx : Ctx} {sched : List (ℕ × Input (Outcome Ctx))} (hok : (plan.pool ctx).Admits ok sched)
    {inst : Instance Ctx} (hend : ((plan.pool ctx).run sched).threads[0]? = some (.done (.ok inst)))
    (hnot : inst.status ≠ .completed) :
    ∃ i, StoppedAt ok plan i inst ((plan.pool ctx).run sched).state := by
  obtain ⟨-, hpost⟩ := Pool.run_forked (fun _ _ _ _ _ => trivial) (fun _ _ _ _ h => ⟨h, trivial⟩) trivial
    (coordinated_run ok plan ctx) hok
  obtain ⟨inst', hr, hcase⟩ := hpost _ hend
  cases hr
  exact hcase.resolve_left hnot

def Outcome.throwsFalsy : Outcome Ctx → Bool
  | .throws value => !value.truthy
  | _ => false

def Outcome.endsFalsy : Outcome Ctx → Bool
  | .resolves _ => false
  | .rejects value => !value.truthy
  | .throws value => !value.truthy

/-- The last attempt of a step with a compensation throws or rejects with a falsy value. -/
def lastFalsy (plan : Plan) : WorkflowCall → Input (Outcome Ctx) → Journal → Bool
  | .execute j, i, s =>
    plan.compensates j && s.executions.count j + 1 == plan.maxAttempts j && i.reply.throwsFalsy
  | .settle j, i, s =>
    plan.compensates j && s.executions.count j == plan.maxAttempts j && i.reply.endsFalsy
  | _, _, _ => false

def Truthful (plan : Plan) (l : WorkflowCall) (i : Input (Outcome Ctx)) (s : Journal) : Prop :=
  lastFalsy plan l i s = false

instance (plan : Plan) (l : WorkflowCall) (i : Input (Outcome Ctx)) (s : Journal) :
    Decidable (Truthful plan l i s) :=
  inferInstanceAs (Decidable (_ = _))

theorem not_mayEndFalsy {plan : Plan} {j : ℕ} (hc : plan.compensates j = true) :
    ¬ MayEndFalsy (@Truthful Ctx plan) j (plan.maxAttempts j) := by
  rintro ⟨i, s, value, hv, ⟨ho, hcount, hreply⟩ | ⟨ho, hcount, hreply⟩⟩
  · simp [Truthful, lastFalsy, hc, hcount, hreply, Outcome.throwsFalsy, hv] at ho
  · have hends : i.reply.endsFalsy = true := by
      cases hr : i.reply <;> rw [hr] at hreply <;> cases hreply <;> simp [Outcome.endsFalsy, hv]
    simp [Truthful, lastFalsy, hc, hcount, hends] at ho

/-- A run that stopped at step `i` and called the compensations of all steps below. -/
structure FullyUnwound (plan : Plan) (i : ℕ) (inst : Instance Ctx) (t : Journal) : Prop where
  stopped : inst.status = .failed ∧ inst.statusOf i = some .failed ∧ 0 < plan.maxAttempts i ∨
    inst.status = .timedOut ∧ inst.statusOf i = some .pending
  executed : ∀ j ∈ t.executions, j < i ∨ j = i ∧ inst.status = .failed
  attempts : ∀ j, t.executions.count j ≤ plan.maxAttempts j
  compensations : t.compensations = (List.range i).reverse.filter plan.compensates
  compensated : ∀ j, inst.statusOf j = some .compensated ↔ j ∈ t.compensated

/-- A workflow that did not complete stopped at a step and was unwound from there, each step below
with its compensation, when every step that has one is attempted and does not end with a falsy
value. -/
theorem run_unwound (plan : Plan) (ctx : Ctx) (sched : List (ℕ × Input (Outcome Ctx)))
    (hattempted : ∀ j, plan.compensates j = true → plan.maxAttempts j ≠ 0)
    (hok : (plan.pool ctx).Admits (Truthful plan) sched) (inst : Instance Ctx)
    (hend : ((plan.pool ctx).run sched).threads[0]? = some (.done (.ok inst)))
    (hnot : inst.status ≠ .completed) :
    ∃ i < plan.steps.length, FullyUnwound plan i inst ((plan.pool ctx).run sched).state := by
  obtain ⟨i, h⟩ := run_stopped hok hend hnot
  have hbelow : ∀ j < i, plan.compensates j = true → inst.completed j = true := by
    intro j hj hc
    rcases h.below j hj with hdone | hzero | hfalsy
    · exact hdone
    · exact absurd hzero (hattempted j hc)
    · exact absurd hfalsy (not_mayEndFalsy hc)
  refine ⟨i, h.lt, h.stopped, h.executed, h.attempts, ?_, h.compensated⟩
  rw [h.compensations, compensable]
  refine List.filter_congr fun j hj => ?_
  have hlt : j < i := List.mem_range.mp (List.mem_reverse.mp hj)
  cases hc : plan.compensates j with
  | true => rw [hbelow j hlt hc, Bool.and_true]
  | false => rw [Bool.false_and]

def reserveAndPay : Plan := { steps := [{ name := "reserve", compensates := true }, { name := "pay" }] }

/-- The first step ends so, and the second one with an error. -/
def declined (reserve : Outcome Unit) : List (ℕ × Input (Outcome Unit)) :=
  (replies ([.resolves id, .resolves id] ++ List.replicate 4 reserve ++
    List.replicate 3 (.rejects (.error "payment declined")) ++ [.resolves id])).map fun i => (0, i)

theorem run_unwound_declined : ∃ inst t, t.compensations = [0] ∧
    ∃ i < 2, FullyUnwound reserveAndPay i (inst : Instance Unit) t := by
  have hattempted : ∀ j, reserveAndPay.compensates j = true → reserveAndPay.maxAttempts j ≠ 0 := by
    intro j hc
    match j with
    | 0 => decide
    | 1 => cases hc
    | j + 2 => cases hc
  exact ⟨_, _, rfl, run_unwound reserveAndPay () (declined (.resolves id)) hattempted
    (by decide +kernel) _ rfl (fun h => nomatch h)⟩

/-- A step that rejected with `undefined` is not compensated when a later one fails. -/
theorem step_left_uncompensated :
    ¬ ∀ (plan : Plan) (sched : List (ℕ × Input (Outcome Unit))) (inst : Instance Unit) (i : ℕ),
      ((plan.pool ()).run sched).threads[0]? = some (.done (.ok inst)) → inst.status = .failed →
      inst.statusOf i = some .failed →
      ((plan.pool ()).run sched).state.compensations = (List.range i).reverse.filter plan.compensates := by
  intro h
  have hlist := h reserveAndPay (declined (.rejects .undefined)) _ 1 rfl rfl rfl
  exact absurd hlist (by decide)

end ElectronicsCart.Workflow
