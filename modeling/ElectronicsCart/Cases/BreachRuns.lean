import ElectronicsCart.Cases.Runs

/-!
# Breaches of the service levels

`CaseManager.evaluateSla` tests a case against the policy of its kind.  A service ticket may have a
`service_sla` of its own, of which only the `dueAt` of its snapshot knows, and `isResponseBreached`
does not look at the status.
-/

namespace ElectronicsCart.Cases

open Interleaving Relational

/-! ### Deadlines -/

/-- The `service_sla` of a ticket that has one, else the policy of the kind. -/
def governingSla (ref : CaseRef) (s : CareState) : CaseSlaPolicy :=
  match ref.kind with
  | .serviceTicket => ServiceTicketStore.policy
    ((ServiceTicketStore.findRow ref.id s).bind fun row => row.serviceSlaId.bind s.slas.find?)
  | kind => (CASE_DEFINITIONS kind).sla

section Judgement

variable (kind : CaseKind) (sla : CaseSlaPolicy) (snap : CaseSnapshot) (now : ℕ)

def Terminal : Prop := snap.status ∈ (CASE_DEFINITIONS kind).terminalStatuses

instance : Decidable (Terminal kind snap) := inferInstanceAs (Decidable (_ ∈ _))

def PastResponse : Prop := computeResponseDueAt snap.openedAt snap.priority sla < now

def PastResolve : Prop := computeDueAt snap.openedAt snap.priority sla < now

/-- Of a priority at which the kind escalates a case that nobody is assigned to. -/
def Hurried : Prop := ∃ p, (CASE_DEFINITIONS kind).escalation.maxPriority = some p ∧ snap.priority.val ≤ p

structure Judged (r : CaseManager.SlaResult) : Prop where
  response : r.responseBreached = true ↔
    ¬ Terminal kind snap ∧ snap.assigneeId = none ∧ PastResponse sla snap now
  resolve : r.resolveBreached = true ↔ ¬ Terminal kind snap ∧ PastResolve sla snap now
  escalated : Terminal kind snap → r.escalated = false

/-- The tests of the code and the governing service levels agree on a case. -/
structure PolicyAgrees : Prop where
  closed : Terminal kind snap → snap.assigneeId = none →
    ¬ PastResponse (CASE_DEFINITIONS kind).sla snap now ∧
      (snap.escalatedAt = none → ¬ Hurried kind snap)
  unassigned : ¬ Terminal kind snap → snap.assigneeId = none →
    (PastResponse (CASE_DEFINITIONS kind).sla snap now ↔ PastResponse sla snap now)
  overdue : ¬ Terminal kind snap → PastResolve sla snap now → snap.closedAt = none

end Judgement

variable {kind : CaseKind} {sla : CaseSlaPolicy} {snap : CaseSnapshot} {now : ℕ}

theorem isResponseBreached_iff : isResponseBreached snap sla now = true ↔
    snap.assigneeId = none ∧ PastResponse sla snap now := by
  simp [isResponseBreached, PastResponse]

/-- A snapshot that is due when `governing` says so. -/
def DueBy (governing sla : CaseSlaPolicy) (snap : CaseSnapshot) : Prop :=
  snap.dueAt.getD (computeDueAt snap.openedAt snap.priority sla) =
    computeDueAt snap.openedAt snap.priority governing

theorem isResolveBreached_iff (hdue : DueBy sla (CASE_DEFINITIONS kind).sla snap) :
    isResolveBreached snap (CASE_DEFINITIONS kind).sla (CASE_DEFINITIONS kind).terminalStatuses now =
      true ↔ ¬ Terminal kind snap ∧ snap.closedAt = none ∧ PastResolve sla snap now := by
  unfold DueBy at hdue
  simp [isResolveBreached, Terminal, PastResolve, hdue, and_assoc]

theorem any_maxPriority_iff : (CASE_DEFINITIONS kind).escalation.maxPriority.any
    (fun p => decide (snap.priority.val ≤ p)) = true ↔ Hurried kind snap := by
  simp [Hurried, Option.any_eq_true]

theorem shouldEscalate_iff (hdue : DueBy sla (CASE_DEFINITIONS kind).sla snap) :
    shouldEscalate kind snap now = true ↔
      ((CASE_DEFINITIONS kind).escalation.unassignedPastResponse = true ∧ snap.assigneeId = none ∧
        PastResponse (CASE_DEFINITIONS kind).sla snap now ∨
      (CASE_DEFINITIONS kind).escalation.unresolvedPastResolve = true ∧ ¬ Terminal kind snap ∧
        snap.closedAt = none ∧ PastResolve sla snap now) ∨
      Hurried kind snap ∧ snap.assigneeId = none := by
  simp only [shouldEscalate, Bool.or_eq_true, Bool.and_eq_true, isResponseBreached_iff,
    isResolveBreached_iff hdue, any_maxPriority_iff, Option.isNone_iff_eq_none]

/-- What `evaluateSla` answers for a snapshot. -/
structure Answers (kind : CaseKind) (snap : CaseSnapshot) (now : ℕ) (r : CaseManager.SlaResult) :
    Prop where
  response : r.responseBreached = isResponseBreached snap (CASE_DEFINITIONS kind).sla now
  resolve : r.resolveBreached = isResolveBreached snap (CASE_DEFINITIONS kind).sla
    (CASE_DEFINITIONS kind).terminalStatuses now
  escalated : r.escalated = true ↔ shouldEscalate kind snap now = true ∧ snap.escalatedAt = none

theorem not_escalated_of_closed {r : CaseManager.SlaResult}
    (hdue : DueBy sla (CASE_DEFINITIONS kind).sla snap) (hr : Answers kind snap now r)
    (hagrees : PolicyAgrees kind sla snap now) (hterm : Terminal kind snap) : r.escalated = false := by
  by_contra hesc
  obtain ⟨hshould, hunmarked⟩ := hr.escalated.mp (by simpa using hesc)
  rcases (shouldEscalate_iff hdue).mp hshould with (⟨-, hnone, hpast⟩ | ⟨-, hopen, -⟩) | ⟨hhurried, hnone⟩
  · exact (hagrees.closed hterm hnone).1 hpast
  · exact hopen hterm
  · exact (hagrees.closed hterm hnone).2 hunmarked hhurried

theorem judged_iff {r : CaseManager.SlaResult} (hdue : DueBy sla (CASE_DEFINITIONS kind).sla snap)
    (hr : Answers kind snap now r) : Judged kind sla snap now r ↔ PolicyAgrees kind sla snap now := by
  have hresponse : r.responseBreached = true ↔
      snap.assigneeId = none ∧ PastResponse (CASE_DEFINITIONS kind).sla snap now := by
    rw [hr.response, isResponseBreached_iff]
  have hresolve : r.resolveBreached = true ↔
      ¬ Terminal kind snap ∧ snap.closedAt = none ∧ PastResolve sla snap now := by
    rw [hr.resolve, isResolveBreached_iff hdue]
  constructor
  · intro hj
    refine ⟨fun hterm hnone => ⟨fun hpast => ?_, fun hunmarked hhurried => ?_⟩,
      fun hopen hnone => ⟨fun hpast => ?_, fun hpast => ?_⟩, fun hopen hpast => ?_⟩
    · exact (hj.response.mp (hresponse.mpr ⟨hnone, hpast⟩)).1 hterm
    · have hshould : shouldEscalate kind snap now = true :=
        (shouldEscalate_iff hdue).mpr (.inr ⟨hhurried, hnone⟩)
      have hesc := hr.escalated.mpr ⟨hshould, hunmarked⟩
      rw [hj.escalated hterm] at hesc
      cases hesc
    · exact (hj.response.mp (hresponse.mpr ⟨hnone, hpast⟩)).2.2
    · exact (hresponse.mp (hj.response.mpr ⟨hopen, hnone, hpast⟩)).2
    · exact (hresolve.mp (hj.resolve.mpr ⟨hopen, hpast⟩)).2.1
  · intro hagrees
    refine ⟨hresponse.trans ⟨fun h => ?_, fun h => ?_⟩, hresolve.trans ⟨fun h => ?_, fun h => ?_⟩,
      not_escalated_of_closed hdue hr hagrees⟩
    · obtain ⟨hnone, hpast⟩ := h
      have hopen : ¬ Terminal kind snap := fun hterm => (hagrees.closed hterm hnone).1 hpast
      exact ⟨hopen, hnone, (hagrees.unassigned hopen hnone).mp hpast⟩
    · obtain ⟨hopen, hnone, hpast⟩ := h
      exact ⟨hnone, (hagrees.unassigned hopen hnone).mpr hpast⟩
    · exact ⟨h.1, h.2.2⟩
    · exact ⟨h.1, hagrees.overdue h.1 h.2, h.2⟩

/-! ### Support cases -/

/-- The due time of a case in memory is the one of its kind. -/
def OnSchedule (kind : CaseKind) (snap : CaseSnapshot) : Prop :=
  snap.dueAt = some (computeDueAt snap.openedAt snap.priority (CASE_DEFINITIONS kind).sla)

def Scheduled (s : CareState) : Prop :=
  ∀ ref snap, s.memoryCases ref = some snap → OnSchedule ref.kind snap

def KeepsSchedule {α : Type} (p : CareProg α) : Prop :=
  p.Every (fun _ _ _ => True) fun _ _ s s' => Scheduled s → Scheduled s'

theorem Scheduled.update {ref : CaseRef} {s : CareState} (hs : Scheduled s)
    (h : OnSchedule ref.kind snap) :
    Scheduled { s with memoryCases := Function.update s.memoryCases ref (some snap) } := by
  intro other found hfound
  by_cases hother : other = ref
  · subst hother
    obtain rfl : snap = found := by simpa using hfound
    exact h
  · exact hs other found (by simpa [Function.update_of_ne hother] using hfound)

namespace KeepsSchedule

variable {α β : Type}

theorem bind {p : CareProg α} {k : α → CareProg β} (hp : KeepsSchedule p)
    (hk : ∀ a, KeepsSchedule (k a)) : KeepsSchedule (p.bind k) :=
  Prog.Every.bind hp hk

theorem call {l : CareCall} {f : CareInput → CareState → Except Failure β × CareState}
    (h : ∀ i s, (f i s).2.memoryCases = s.memoryCases) : KeepsSchedule (Prog.call l f) := by
  refine Prog.every_call fun i s _ hs => ?_
  unfold Scheduled
  rw [h i s]
  exact hs

theorem change {l : CareCall} {ref : CaseRef} {f : CareInput → CaseSnapshot → CaseSnapshot}
    (h : ∀ i c, OnSchedule ref.kind c → OnSchedule ref.kind (f i c)) :
    KeepsSchedule (InMemoryCaseStore.change l ref f) := by
  refine Prog.every_call fun i s _ hs => ?_
  cases hc : s.memoryCases ref with
  | none => exact hs
  | some c => exact hs.update (h i c (hs ref c hc))

theorem publish (event : CaseEvent) : KeepsSchedule (publish event) := call fun _ _ => rfl

theorem publishIf (c : Bool) (event : CaseEvent) : KeepsSchedule (CaseManager.publishIf c event) := by
  cases c with
  | true => exact publish event
  | false => trivial

theorem appendTimeline (ref : CaseRef) (entry : CaseTimelineEntry) :
    KeepsSchedule (InMemoryCaseStore.appendTimeline ref entry) := call fun _ _ => rfl

theorem openCase (ref : CaseRef) (priority : Option CasePriority) (assigneeId : Option ℕ)
    (status : CaseStatus) : KeepsSchedule (InMemoryCaseStore.openCase ref priority assigneeId status) :=
  Prog.every_call fun _ _ _ hs => hs.update rfl

theorem saveStatus (ref : CaseRef) (status : CaseStatus) (actorId : Option ℕ) :
    KeepsSchedule (InMemoryCaseStore.saveStatus ref status actorId) := change fun _ _ h => h

theorem assign (ref : CaseRef) (assigneeId : ℕ) (actorId : Option ℕ) :
    KeepsSchedule (InMemoryCaseStore.assign ref assigneeId actorId) := change fun _ _ h => h

theorem setPriority (ref : CaseRef) (priority : CasePriority) (actorId : Option ℕ) :
    KeepsSchedule (InMemoryCaseStore.setPriority ref priority actorId) := change fun _ _ _ => rfl

theorem markEscalated (ref : CaseRef) (now : ℕ) :
    KeepsSchedule (InMemoryCaseStore.markEscalated ref now) := change fun _ _ h => h

theorem orThrow (e : Failure) (o : Option α) : KeepsSchedule (Prog.orThrow e o) :=
  Prog.every_orThrow e o

theorem require (id : ℕ) : KeepsSchedule (CaseManager.require ⟨.support, id⟩) :=
  (call fun _ _ => rfl).bind fun _ => orThrow _ _

theorem settled (id : ℕ) (result : Option CaseSnapshot) :
    KeepsSchedule (CaseManager.settled ⟨.support, id⟩ result) := by
  cases result with
  | none => exact require id
  | some snap => trivial

theorem announce (ref : CaseRef) (current target : CaseStatus) (snap : CaseSnapshot) :
    KeepsSchedule (CaseManager.announce ref current target snap) := by
  refine (publish _).bind fun _ => ?_
  split
  · exact publish _
  · trivial

theorem transition (id : ℕ) (target : CaseStatus) (actorId : Option ℕ) (reason : Option String) :
    KeepsSchedule (CaseManager.transition ⟨.support, id⟩ target actorId reason) := by
  refine (require id).bind fun current => bind ?_ fun result => ?_
  · refine bind (Prog.every_ensure _ _) fun _ => ?_
    split
    · trivial
    · refine (saveStatus _ target actorId).bind fun _ => (appendTimeline _ _).bind fun _ => ?_
      exact (publish _).bind fun _ => trivial
  · exact (settled id _).bind fun snap => (announce _ _ _ snap).bind fun _ => trivial

theorem afterEscalation (id : ℕ) (opts : CaseManager.SlaOptions) (snap : CaseSnapshot)
    (reason : EscalationReason) :
    KeepsSchedule (CaseManager.afterEscalation ⟨.support, id⟩ opts snap reason) := by
  unfold CaseManager.afterEscalation
  split
  · trivial
  · split
    · exact transition id _ _ _
    · trivial

theorem evaluateSla (id : ℕ) (opts : CaseManager.SlaOptions) :
    KeepsSchedule (CaseManager.evaluateSla ⟨.support, id⟩ opts) := by
  refine (require id).bind fun snap => bind (call fun _ _ => rfl) fun now => ?_
  refine (publishIf _ _).bind fun _ => (publishIf _ _).bind fun _ => ?_
  split
  · refine bind ?_ fun _ => trivial
    refine (markEscalated _ now).bind fun marked => (orThrow _ _).bind fun c => ?_
    refine (appendTimeline _ _).bind fun _ => (publish _).bind fun _ => ?_
    exact afterEscalation id _ _ _
  · trivial

end KeepsSchedule

/-- What the manager is asked for support cases. -/
inductive SupportRequest where
  | openSupportCase (id : ℕ) (priority : Option CasePriority) (assigneeId : Option ℕ)
  | change (id : ℕ) (request : CaseRequest)
  | addNote (id : ℕ) (note : CaseNoteInput)
  | addAttachment (id : ℕ) (file : CaseAttachmentMeta) (actorId : Option ℕ)
  | evaluateSla (id : ℕ) (opts : CaseManager.SlaOptions)

def SupportRequest.prog : SupportRequest → CareProg Unit
  | .openSupportCase id priority assigneeId => do
    let _ ← CaseManager.openSupportCase id priority assigneeId
  | .change id request => request.prog ⟨.support, id⟩
  | .addNote id note => CaseManager.addNote ⟨.support, id⟩ note
  | .addAttachment id file actorId => CaseManager.addAttachment ⟨.support, id⟩ file actorId
  | .evaluateSla id opts => do
    let _ ← CaseManager.evaluateSla ⟨.support, id⟩ opts

theorem SupportRequest.keepsSchedule (request : SupportRequest) : KeepsSchedule request.prog := by
  cases request with
  | openSupportCase id priority assigneeId =>
    refine KeepsSchedule.bind ?_ fun _ => trivial
    refine (KeepsSchedule.openCase _ priority assigneeId _).bind fun _ => ?_
    exact (KeepsSchedule.publish _).bind fun _ => trivial
  | change id request =>
    cases request with
    | transition target actorId reason =>
      exact (KeepsSchedule.transition id target actorId reason).bind fun _ => trivial
    | assign assigneeId actorId =>
      refine KeepsSchedule.bind ?_ fun _ => trivial
      refine (KeepsSchedule.assign _ assigneeId actorId).bind fun _ => ?_
      refine (KeepsSchedule.appendTimeline _ _).bind fun _ => (KeepsSchedule.orThrow _ _).bind fun _ => ?_
      exact (KeepsSchedule.publish _).bind fun _ => trivial
    | setPriority priority actorId =>
      refine KeepsSchedule.bind ?_ fun _ => trivial
      refine (KeepsSchedule.setPriority _ priority actorId).bind fun _ => ?_
      exact (KeepsSchedule.appendTimeline _ _).bind fun _ => trivial
  | addNote id note =>
    refine (KeepsSchedule.require id).bind fun _ => KeepsSchedule.bind (.call fun _ _ => rfl) fun _ => ?_
    refine (KeepsSchedule.appendTimeline _ _).bind fun _ => ?_
    refine KeepsSchedule.bind (.call fun _ _ => rfl) fun _ => (KeepsSchedule.orThrow _ _).bind fun _ => ?_
    exact KeepsSchedule.publish _
  | addAttachment id file actorId =>
    refine (KeepsSchedule.require id).bind fun _ => KeepsSchedule.bind (.call fun _ _ => rfl) fun _ => ?_
    exact KeepsSchedule.appendTimeline _ _
  | evaluateSla id opts => exact (KeepsSchedule.evaluateSla id opts).bind fun _ => trivial

/-- The state after some requests on support cases, whose calls come in any order. -/
def afterSupport (requests : List SupportRequest) (start : CareState) (sched : List (ℕ × CareInput)) :
    CareState :=
  (Pool.run ⟨requests.map SupportRequest.prog, start⟩ sched).state

theorem scheduled_afterSupport {requests : List SupportRequest} {start : CareState}
    {sched : List (ℕ × CareInput)} (hfresh : start.memoryCases = fun _ => none) :
    Scheduled (afterSupport requests start sched) := by
  have hstart : Scheduled start := by
    intro ref snap h
    rw [hfresh] at h
    cases h
  have hany : Pool.Admits anyCall ⟨requests.map SupportRequest.prog, start⟩ sched :=
    Pool.admits_of_forall (fun _ _ _ => trivial) _ _
  refine Pool.inv_run (fun p hp => ?_) hstart hany
  obtain ⟨request, -, rfl⟩ := List.mem_map.mp hp
  exact Prog.Every.imp (fun _ _ _ _ => trivial) (fun _ _ _ _ h hs => hs h.2) request.keepsSchedule

/-! ### Evaluations -/

theorem dueBy_of_loaded {ref : CaseRef} {rank : ℕ → ℕ} {s : CareState} (hs : Scheduled s)
    (h : loaded ref rank s = some snap) :
    DueBy (governingSla ref s) (CASE_DEFINITIONS ref.kind).sla snap := by
  -- the kinds whose store computes it from a policy
  have hset : ∀ {sla' : CaseSlaPolicy}, snap.dueAt = some (computeDueAt snap.openedAt snap.priority sla') →
      governingSla ref s = sla' → DueBy (governingSla ref s) (CASE_DEFINITIONS ref.kind).sla snap := by
    intro sla' hdue hsla
    rw [DueBy, hdue, hsla, Option.getD_some]
  obtain ⟨kind, id⟩ := ref
  cases kind
  case warrantyClaim =>
    obtain ⟨row, -, rfl⟩ := Option.map_eq_some_iff.mp h
    exact hset rfl rfl
  case rma =>
    obtain ⟨row, -, rfl⟩ := Option.map_eq_some_iff.mp h
    exact hset rfl rfl
  case serviceTicket =>
    obtain ⟨row, hrow, rfl⟩ := Option.map_eq_some_iff.mp h
    refine hset rfl ?_
    simp only [governingSla, hrow, Option.bind_some]
  case repairJob =>
    obtain ⟨row, -, rfl⟩ := Option.map_eq_some_iff.mp h
    exact hset rfl rfl
  case support => exact hset (hs _ _ h) rfl

def clockReads (now : ℕ) : CareCall → CareInput → Bool
  | .clock _ given, i => given.getD i.now == now
  | _, _ => true

/-- The rows that tie come in the order of `rank`, and the case is judged as of `now`. -/
def EvaluatedAt (rank : ℕ → ℕ) (now : ℕ) (l : CareCall) (i : CareInput) (_ : CareState) : Prop :=
  i.rank = rank ∧ clockReads now l i = true

theorem evaluateSla_answers {ref : CaseRef} {opts : CaseManager.SlaOptions} {rank : ℕ → ℕ}
    {s : CareState} : Alone (EvaluatedAt rank now) (Returns fun r _ =>
      ∃ snap, loaded ref rank s = some snap ∧ Answers ref.kind snap now r)
      (CaseManager.evaluateSla ref opts) s := by
  refine requireBind (G := fun _ _ _ _ => True) (fun _ _ _ => trivial) (fun j snap hj hsnap => ?_)
    fun _ => trivial
  rw [hj.1] at hsnap
  refine Alone.callBind fun i hi => ⟨fun time htime => ?_, fun _ _ => trivial⟩
  obtain rfl : time = now := (Except.ok.inj htime).symm.trans (beq_iff_eq.mp hi.2)
  refine Alone.bind (Alone.any _ _) (fun _ t _ => ?_) fun _ _ _ => trivial
  refine Alone.bind (Alone.any _ _) (fun _ u _ => ?_) fun _ _ _ => trivial
  split
  next hdue =>
    refine Alone.bind (Alone.any _ _) (fun last v _ => ?_) fun _ _ _ => trivial
    exact .done ⟨snap, hsnap, rfl, rfl, fun _ => hdue, fun _ => rfl⟩
  next hdue => exact .done ⟨snap, hsnap, rfl, rfl, fun h => (nomatch h), fun h => absurd h hdue⟩

/-- A case is judged by the service levels that govern it exactly when the tests of the code agree
with them. -/
theorem evaluateSla_judged_iff (requests : List SupportRequest) (start : CareState)
    (sched : List (ℕ × CareInput)) (ref : CaseRef) (opts : CaseManager.SlaOptions) (rank : ℕ → ℕ)
    (now : ℕ) (snap : CaseSnapshot) (r : CaseManager.SlaResult) (s' : CareState)
    (hfresh : start.memoryCases = fun _ => none)
    (hsnap : loaded ref rank (afterSupport requests start sched) = some snap)
    (hrun : Pool.Ran (EvaluatedAt rank now) (CaseManager.evaluateSla ref opts)
      (afterSupport requests start sched) (.ok r) s') :
    Judged ref.kind (governingSla ref (afterSupport requests start sched)) snap now r ↔
      PolicyAgrees ref.kind (governingSla ref (afterSupport requests start sched)) snap now := by
  obtain ⟨found, hfound, hanswers⟩ := ran_alone evaluateSla_answers hrun
  obtain rfl := Option.some.inj (hsnap.symm.trans hfound)
  exact judged_iff (dueBy_of_loaded (scheduled_afterSupport hfresh) hsnap) hanswers

theorem evaluatedAt_callsAt {time now n : ℕ} {p : CareProg CaseManager.SlaResult} {s : CareState}
    (h : Pool.SoloAdmits (fun l i _ => clockReads now l i = true) p s (callsAt time n)) :
    Pool.SoloAdmits (EvaluatedAt id now) p s (callsAt time n) := by
  refine Pool.soloAdmits_imp (fun i hi l t hclock => ⟨?_, hclock⟩) h
  rw [List.eq_of_mem_replicate hi]

def openedSupport : CareState :=
  afterSupport [.openSupportCase 0 none none] {} (careTurns 0 [0, 0])

def openedSnapshot : CaseSnapshot where
  kind := .support
  id := 0
  status := .open
  priority := normalPriority
  openedAt := 0
  dueAt := some 86400000

def lateResponse : CaseManager.SlaResult where
  responseBreached := true
  resolveBreached := false
  escalated := true
  snapshot := { openedSnapshot with
    status := .escalated, escalatedAt := some 3600001 }

theorem support_judged :
    Judged .support (governingSla ⟨.support, 0⟩ openedSupport) openedSnapshot 3600001 lateResponse := by
  have hran : Pool.Ran (EvaluatedAt id 3600001) (CaseManager.evaluateSla ⟨.support, 0⟩ {})
      openedSupport (.ok lateResponse) _ :=
    ⟨callsAt 3600001 15, evaluatedAt_callsAt (by decide +kernel), by decide +kernel, rfl⟩
  refine (evaluateSla_judged_iff [.openSupportCase 0 none none] {} (careTurns 0 [0, 0])
    ⟨.support, 0⟩ {} id 3600001 openedSnapshot _ _ rfl (by decide +kernel) hran).mpr ⟨?_, ?_, ?_⟩
  · exact fun hterm => absurd hterm (by decide)
  · exact fun _ _ => Iff.rfl
  · exact fun _ _ => rfl

def closedClaim : CareState where
  claims := Table.empty.insert fun n =>
    { id := n, registrationId := 0, status := .closed, resolvedAt := some 3600000 }

def closedSnapshot : CaseSnapshot :=
  WarrantyClaimStore.snapshot
    { id := 0, registrationId := 0, status := .closed, resolvedAt := some 3600000 }

/-- A claim is never assigned, and once closed it is reported as unanswered. -/
theorem closed_claim_breached :
    ¬ ∀ (requests : List SupportRequest) (start : CareState) (sched : List (ℕ × CareInput))
      (ref : CaseRef) (opts : CaseManager.SlaOptions) (rank : ℕ → ℕ) (now : ℕ) (snap : CaseSnapshot)
      (r : CaseManager.SlaResult) (s' : CareState), start.memoryCases = (fun _ => none) →
      loaded ref rank (afterSupport requests start sched) = some snap →
      Pool.Ran (EvaluatedAt rank now) (CaseManager.evaluateSla ref opts)
        (afterSupport requests start sched) (.ok r) s' →
      Judged ref.kind (governingSla ref (afterSupport requests start sched)) snap now r := by
  intro h
  have hran : Pool.Ran (EvaluatedAt id 14400001) (CaseManager.evaluateSla ⟨.warrantyClaim, 0⟩ {})
      closedClaim (.ok ⟨true, false, true, { closedSnapshot with escalatedAt := some 14400001 }⟩) _ :=
    ⟨callsAt 14400001 15, evaluatedAt_callsAt (by decide +kernel), by decide +kernel, rfl⟩
  have hjudged := h [] closedClaim [] ⟨.warrantyClaim, 0⟩ {} id 14400001 closedSnapshot _ _ rfl
    (by decide +kernel) hran
  have hescalated := hjudged.escalated (by decide)
  cases hescalated

end ElectronicsCart.Cases
