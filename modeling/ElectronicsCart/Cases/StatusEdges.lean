import ElectronicsCart.Cases.EventRuns

/-!
# Statuses of tickets and repair jobs

`CaseManager.transition` takes an edge of the graph of its kind.  The stores of tickets and of repair
jobs set the status `assigned` themselves when a case is assigned, whatever its status was.
-/

namespace ElectronicsCart.Cases

open Interleaving Relational ServiceOpsService

/-! ### Changes of a status -/

/-- The status in the row of a ticket, deleted or not. -/
def ticketStatus (id : ℕ) (s : CareState) : Option CaseStatus :=
  (s.tickets.find? id).map ServiceTicket.status

/-- Every change of a status is an edge, whatever the order of tied status rows. -/
structure EdgeStep (s s' : CareState) : Prop where
  tickets : ∀ id, ∀ current ∈ ticketStatus id s, ∃ next ∈ ticketStatus id s',
    Edge serviceTicketStateMachine current next
  kept : ∀ id, (s.jobs.find? id).isSome = true → (s'.jobs.find? id).isSome = true
  jobs : ∀ id, (s.jobs.find? id).isSome = true → ∀ rank rank',
    Edge supportCaseStateMachine (RepairJobStore.readCaseStatus id rank s)
      (RepairJobStore.readCaseStatus id rank' s')

/-- No tie of status rows matters, and a job has none before it is there. -/
structure Dated (s : CareState) : Prop where
  clear : ∀ id rank rank',
    RepairJobStore.readCaseStatus id rank s = RepairJobStore.readCaseStatus id rank' s
  rows : ∀ id, s.jobs.find? id = none → statusRows id s = []

def Kept (s s' : CareState) : Prop :=
  Dated s → Dated s' ∧ EdgeStep s s'

structure SameStatuses (s s' : CareState) : Prop where
  tickets : ∀ id, ∀ current ∈ ticketStatus id s, current ∈ ticketStatus id s'
  jobs : ∀ id, (s.jobs.find? id).isSome = true → (s'.jobs.find? id).isSome = true
  statusRows : ∀ id, statusRows id s' = statusRows id s

theorem SameStatuses.of_cases {s s' : CareState} (h : SameCases s s') : SameStatuses s s' where
  tickets id current hc := by rwa [ticketStatus, h.tickets]
  jobs id hj := by rwa [h.jobs]
  statusRows := h.statusRows

theorem SameStatuses.refl (s : CareState) : SameStatuses s s := .of_cases (.refl s)

theorem SameStatuses.of_tables {s s' : CareState} (htickets : s'.tickets = s.tickets)
    (hjobs : s'.jobs = s.jobs) (haudits : s'.audits = s.audits) : SameStatuses s s' where
  tickets id current hc := by rwa [ticketStatus, htickets]
  jobs id hj := by rwa [hjobs]
  statusRows id := by rw [Cases.statusRows, haudits, Cases.statusRows]

theorem SameStatuses.kept {s s' : CareState} (h : SameStatuses s s') :
    Kept s s' := by
  intro hs
  have hread : ∀ id rank, RepairJobStore.readCaseStatus id rank s' =
      RepairJobStore.readCaseStatus id rank s := fun id rank => readCaseStatus_of_rows (h.statusRows id)
  refine ⟨⟨fun id rank rank' => ?_, fun id hnone => ?_⟩, ⟨fun id current hc => ?_, h.jobs, ?_⟩⟩
  · rw [hread, hread]
    exact hs.clear id rank rank'
  · rw [h.statusRows]
    refine hs.rows id (Option.not_isSome_iff_eq_none.mp fun hsome => ?_)
    simpa [hnone] using h.jobs id hsome
  · exact ⟨current, h.tickets id current hc, .inl rfl⟩
  · intro id _ rank rank'
    rw [hread]
    exact .inl (hs.clear id rank' rank)

/-! ### Writes -/

section Writes

variable {s : CareState} {id : ℕ}

theorem SameStatuses.updateJobs {g : RepairJob → RepairJob} {hg : ∀ r, key (g r) = key r} :
    SameStatuses s { s with jobs := s.jobs.update id g hg } where
  tickets _ _ hc := hc
  jobs j hj := by
    rw [Table.find?_update hg, Option.isSome_map]
    exact hj
  statusRows _ := rfl

theorem SameStatuses.insertJob {mk : ℕ → RepairJob} {hmk : ∀ n, key (mk n) = n} :
    SameStatuses s { s with jobs := s.jobs.insert mk hmk } where
  tickets _ _ hc := hc
  jobs j hj := by
    obtain ⟨row, hrow⟩ := Option.isSome_iff_exists.mp hj
    rw [Table.find?_insert_of_some hmk hrow]
    rfl
  statusRows _ := rfl

theorem SameStatuses.insertTicket {mk : ℕ → ServiceTicket} {hmk : ∀ n, key (mk n) = n} :
    SameStatuses s { s with tickets := s.tickets.insert mk hmk } where
  tickets j current hc := by
    obtain ⟨row, hrow, rfl⟩ := Option.map_eq_some_iff.mp hc
    exact Option.map_eq_some_iff.mpr ⟨row, Table.find?_insert_of_some hmk hrow, rfl⟩
  jobs _ hj := hj
  statusRows _ := rfl

theorem SameStatuses.updateTickets {g : ServiceTicket → ServiceTicket} {hg : ∀ r, key (g r) = key r}
    (hstatus : ∀ r, (g r).status = r.status) :
    SameStatuses s { s with tickets := s.tickets.update id g hg } where
  tickets j current hc := by
    obtain ⟨row, hrow, rfl⟩ := Option.map_eq_some_iff.mp hc
    rw [ticketStatus, Table.find?_update hg, hrow]
    refine congrArg some ?_
    by_cases hkey : key row = id
    · exact (congrArg ServiceTicket.status (if_pos hkey)).trans (hstatus row)
    · exact congrArg ServiceTicket.status (if_neg hkey)
  jobs _ hj := hj
  statusRows _ := rfl

/-- A write of tickets that takes the status of one along an edge. -/
theorem kept_ticket {g : ServiceTicket → ServiceTicket} {hg : ∀ r, key (g r) = key r}
    (hedge : ∀ r, s.tickets.find? id = some r → Edge serviceTicketStateMachine r.status (g r).status) :
    Kept s { s with tickets := s.tickets.update id g hg } := by
  intro hs
  refine ⟨⟨hs.clear, hs.rows⟩, ⟨fun j current hc => ?_, fun _ hj => hj, fun j _ rank rank' =>
    .inl (hs.clear j rank' rank)⟩⟩
  obtain ⟨row, hrow, rfl⟩ := Option.map_eq_some_iff.mp hc
  by_cases hj : j = id
  · subst hj
    exact ⟨_, Option.map_eq_some_iff.mpr ⟨_, Table.find?_update_self hg hrow, rfl⟩, hedge row hrow⟩
  · refine ⟨row.status, Option.map_eq_some_iff.mpr ⟨row, ?_, rfl⟩, .inl rfl⟩
    rw [Table.find?_update_ne hg hj]
    exact hrow

def IsStatusOf (id : ℕ) (status : CaseStatus) (now : ℕ) (row : ServiceAuditLog) : Prop :=
  row.repairJobId = some id ∧ row.action = .caseStatus ∧ row.metadata = .status status ∧
    row.createdAt = now ∧ row.deleted = false

theorem kept_job {row : ℕ → ServiceAuditLog} {hrow : ∀ n, key (row n) = n} {status : CaseStatus}
    {now : ℕ} (hstatus : IsStatusOf id status now (row s.audits.next))
    (hjob : (s.jobs.find? id).isSome = true) (hlatest : Latest id now s)
    (hedge : Edge supportCaseStateMachine (RepairJobStore.readCaseStatus id (fun n => n) s) status) :
    Kept s { s with audits := s.audits.insert row hrow } := by
  intro hs
  obtain ⟨hid, haction, hmeta, hnow, hdel⟩ := hstatus
  have hpick : ∀ j, RepairJobStore.isStatusRow j (row s.audits.next) = decide (j = id) := by
    intro j
    simp [RepairJobStore.isStatusRow, hid, haction, beq_eq_decide, eq_comm]
  have hself : ∀ rank, RepairJobStore.readCaseStatus id rank
      { s with audits := s.audits.insert row hrow } = status := by
    intro rank
    refine readCaseStatus_insert (by simp [hpick]) hdel ?_ (by rwa [hnow])
    simp [RepairJobStore.rowStatus, hmeta]
  have hrows : ∀ j, j ≠ id → statusRows j { s with audits := s.audits.insert row hrow } =
      statusRows j s := by
    intro j hj
    simp [statusRows, Table.insert, List.filter_append, hpick, hj]
  refine ⟨⟨fun j rank rank' => ?_, fun j hnone => ?_⟩, ⟨fun _ current hc => ⟨current, hc, .inl rfl⟩,
    fun _ hj => hj, fun j _ rank rank' => ?_⟩⟩
  · by_cases hj : j = id
    · rw [hj, hself, hself]
    · rw [readCaseStatus_of_rows (hrows j hj), readCaseStatus_of_rows (hrows j hj)]
      exact hs.clear j rank rank'
  · have hj : j ≠ id := by
      rintro rfl
      rw [hnone] at hjob
      cases hjob
    rw [hrows j hj]
    exact hs.rows j hnone
  · by_cases hj : j = id
    · rw [hj, hself, hs.clear id rank fun n => n]
      exact hedge
    · rw [readCaseStatus_of_rows (hrows j hj)]
      exact .inl (hs.clear j rank' rank)

theorem kept_writeAudit {status : CaseStatus} {actorId : Option ℕ} {now : ℕ} {s' : CareState} {u : Unit}
    (hw : writeAudit ⟨.repairJob, id⟩ .caseStatus actorId (.status status) now s = .ok (u, s'))
    (hlatest : Latest id now s)
    (hedge : Edge supportCaseStateMachine (RepairJobStore.readCaseStatus id (fun n => n) s) status) :
    Kept s s' := by
  obtain ⟨hexists, rfl⟩ := writeAudit_eq_ok.mp hw
  exact kept_job ⟨rfl, rfl, rfl, rfl, rfl⟩ hexists hlatest hedge

end Writes

/-! ### Calls -/

def assignedTicket : CareCall → Option (ℕ × ℕ)
  | .assign ref assigneeId => if ref.kind = .serviceTicket then some (ref.id, assigneeId) else none
  | _ => none

/-- The job whose status becomes `assigned`. -/
def markedJob : CareCall → Option ℕ
  | .markAssigned id => some id
  | _ => none

/-- A ticket or a job is assigned while an edge leads to `assigned`, and status rows are stamped in
order. -/
def Assignable (l : CareCall) (i : CareInput) (s : CareState) : Prop :=
  i.fails = false →
    (∀ a ∈ assignedTicket l, (s.technicians.find? a.2).isSome = true →
      ∀ current ∈ ticketStatus a.1 s, Edge serviceTicketStateMachine current .assigned) ∧
    (∀ id ∈ markedJob l, Latest id i.now s ∧
      Edge supportCaseStateMachine (RepairJobStore.readCaseStatus id (fun n => n) s) .assigned) ∧
    ∀ id ∈ savedJob l, Latest id i.now s

instance (l : CareCall) (i : CareInput) (s : CareState) : Decidable (Assignable l i s) :=
  inferInstanceAs (Decidable (_ → _ ∧ _ ∧ _))

/-- The labels under which no status of a ticket or a job is saved. -/
def steady : CareCall → Bool
  | .saveStatus ref _ => ref.kind != .serviceTicket && ref.kind != .repairJob
  | .openJob _ => false
  | _ => true

theorem Effect.sameStatuses {l : CareCall} {i : CareInput} {s s' : CareState} (hl : steady l = true)
    (hassign : assignedTicket l = none) (hmark : markedJob l = none) (h : Effect l i s s') :
    SameStatuses s s' := by
  by_cases hquiet : quiet l = true
  · exact .of_cases (h.same hquiet)
  rcases h with rfl | ⟨-, h⟩
  · exact .refl _
  unfold Writes at h
  split at h <;> try exact absurd rfl hquiet
  next ref status =>
    unfold SavesStatus at h
    split at h
    · obtain ⟨current, h⟩ := h
      obtain ⟨-, rfl⟩ := WarrantyClaimStore.writeStatus_cases h
      exact .of_tables rfl rfl rfl
    · obtain ⟨current, h⟩ := h
      obtain ⟨-, rfl⟩ := RmaStore.writeStatus_cases h
      exact .of_tables rfl rfl rfl
    next hk => simp [steady, hk] at hl
    next hk => simp [steady, hk] at hl
    · obtain ⟨_, _, _, _, rfl⟩ := h
      exact .of_tables rfl rfl rfl
  next id status =>
    obtain ⟨-, rfl⟩ := RepairJobStore.writeClose_cases h
    exact .updateJobs
  next ref assigneeId =>
    unfold Assigns at h
    split at h
    next hk => simp [assignedTicket, hk] at hassign
    · obtain ⟨-, rfl⟩ := RepairJobStore.writeTechnician_cases h
      exact .updateJobs
    · obtain ⟨_, _, _, _, rfl⟩ := h
      exact .of_tables rfl rfl rfl
    · exact h.elim
  next => cases hmark
  next ref priority =>
    unfold SetsPriority at h
    split at h
    · obtain ⟨-, rfl⟩ := ServiceTicketStore.writePriority_cases h
      exact .updateTickets fun _ => rfl
    · obtain ⟨_, _, _, _, rfl⟩ := h
      exact .of_tables rfl rfl rfl
    · exact h.elim
  next ref note =>
    rcases h with ⟨-, row, hrow, -, rfl⟩ | ⟨-, actorId, body, h⟩ | ⟨notes, h⟩
    · exact .of_tables rfl rfl rfl
    · exact .of_cases (.writeAudit (by simp) h)
    · obtain ⟨-, rfl⟩ := RepairJobStore.writeNote_cases h
      exact .updateJobs
  next =>
    obtain ⟨customerId, dto, row, h⟩ := h
    obtain ⟨mk, hmk, -, -, rfl⟩ := ServiceOpsService.insertTicket_cases h
    exact .insertTicket
  next =>
    obtain ⟨dto, technicianId, row, h⟩ := h
    obtain ⟨mk, hmk, -, rfl⟩ := ServiceOpsService.insertJob_cases h
    exact .insertJob
  next => cases hl
  next id status =>
    obtain ⟨dto, startedAt, -, h⟩ := h
    obtain ⟨-, rfl⟩ := ServiceOpsService.writePatch_cases h
    exact .updateJobs
  next =>
    obtain ⟨customerId, plan, row, h⟩ := h
    obtain ⟨mk, hmk, -, -, rfl⟩ := WarrantyService.insertRegistration_cases h
    exact .of_tables rfl rfl rfl
  next =>
    obtain ⟨customerId, reg, amount, row, -, h⟩ := h
    obtain ⟨mk, hmk, -, -, rfl⟩ := WarrantyService.insertClaim_cases h
    exact .of_tables rfl rfl rfl
  next =>
    obtain ⟨plan, start, finish, amount, row, h⟩ := h
    obtain ⟨-, -, mk, hmk, -, -, rfl⟩ := WarrantyService.writeExtension_cases h
    exact .of_tables rfl rfl rfl
  · exact h.elim

theorem Effect.keptStatuses {l : CareCall} {i : CareInput} {s s' : CareState} (hl : steady l = true)
    (ho : Assignable l i s) (h : Effect l i s s') : Kept s s' := by
  cases hmark : markedJob l with
  | some id =>
    rcases h with rfl | ⟨hfail, h⟩
    · exact (SameStatuses.refl _).kept
    unfold markedJob at hmark
    split at hmark <;> cases hmark
    obtain ⟨actorId, h⟩ := h
    obtain ⟨hlatest, hedge⟩ := (ho (hfail rfl)).2.1 id rfl
    exact kept_writeAudit h hlatest hedge
  | none =>
    cases hassign : assignedTicket l with
    | none => exact (h.sameStatuses hl hassign hmark).kept
    | some a =>
      rcases h with rfl | ⟨hfail, h⟩
      · exact (SameStatuses.refl _).kept
      have hassigned := hassign
      unfold assignedTicket at hassign
      split at hassign <;> try cases hassign
      next ref assigneeId =>
        split at hassign
        next hk =>
          obtain rfl := Option.some.inj hassign
          simp only [Writes, Assigns, hk] at h
          obtain ⟨-, htech, rfl⟩ := ServiceTicketStore.writeAssign_cases h
          have hf : i.fails = false := hfail (by simp [fallible, hk])
          refine kept_ticket fun r hr => (ho hf).1 _ hassigned htech r.status ?_
          exact Option.map_eq_some_iff.mpr ⟨r, hr, rfl⟩
        next => cases hassign

/-! ### Programs -/

abbrev Lawful {α : Type} (p : CareProg α) (s : CareState) : Prop :=
  Within Assignable (fun _ _ t t' => Kept t t') (fun _ _ => True) p s

theorem kept_of_same {s s' : CareState} (h : SameLoads s s') :
    Kept s s' :=
  (SameStatuses.of_cases h.toSameCases).kept

theorem kept_refl {s : CareState} : Kept s s :=
  kept_of_same (.refl s)

theorem steady_of_quiet {l : CareCall} (h : quiet l = true) : steady l = true := by
  unfold steady
  split <;> first | rfl | cases h

theorem steady_of_assignment {l : CareCall} (h : ofAssignment l = true) : steady l = true := by
  have hl := (Bool.and_eq_true_iff.mp h).2
  unfold steady
  split <;> first | rfl | cases hl

section Programs

variable {α β : Type} {s : CareState} {ref : CaseRef} {actorId : Option ℕ}

theorem Calls.steady {p : CareProg α} (hp : Calls Cases.idle p) : Calls Cases.steady p :=
  hp.quiet.mono fun _ => steady_of_quiet

theorem lawful_calls {p : CareProg α} (hp : Calls steady p) : Lawful p s := by
  have hkept : p.Every Assignable fun l i t t' => True → Kept t t' ∧ True := by
    refine Prog.Every.imp (fun _ _ _ _ => trivial) ?_ hp
    intro l i t t' ho h _
    exact ⟨h.2.keptStatuses h.1 ho, trivial⟩
  exact (Within.of_admitted hkept trivial).mono fun _ _ _ => trivial

theorem lawful_idle {p : CareProg α} (hp : Calls idle p) : Lawful p s := lawful_calls hp.steady

theorem lawful_bind {p : CareProg β} {k : β → CareProg α} (hp : Lawful p s)
    (hk : ∀ b t, Lawful (k b) t) : Lawful (p.bind k) s :=
  Within.bind hp (fun b t _ => hk b t) fun _ _ _ => trivial

theorem lawful_withLock {key : CareLock} {token : ℕ} {fn : CareProg α} (hfn : ∀ t, Lawful fn t) :
    Lawful (LockService.withLock key token fn) s :=
  .withLock (fun _ _ _ => kept_refl)
    (fun _ _ _ _ => kept_of_same ⟨.of_audits rfl rfl rfl rfl rfl rfl rfl, rfl, rfl⟩)
    (fun _ => trivial) (fun _ _ _ h => h) (fun _ _ _ => trivial) fun _ => hfn _

theorem lawful_saveStatus {status : CaseStatus} {snap : CaseSnapshot} {rank : ℕ → ℕ}
    (hsnap : loaded ref rank s = some snap)
    (hedge : Edge (CASE_DEFINITIONS ref.kind).stateMachine snap.status status) :
    Lawful ((getStore ref.kind).saveStatus ref status actorId) s := by
  obtain ⟨kind, id⟩ := ref
  cases kind
  case serviceTicket =>
    obtain ⟨row, hrow, rfl⟩ := Option.map_eq_some_iff.mp hsnap
    refine .queryBind (fun _ => kept_refl) (fun _ _ _ => ?_) fun _ _ _ => trivial
    refine .orThrowBind (fun current _ => ?_) fun _ => trivial
    refine .atomicBind (fun _ => kept_refl) (fun _ _ u _ _ hw => ⟨?_, lawful_calls ?_⟩)
      fun _ _ _ _ => trivial
    · obtain ⟨-, rfl⟩ := ServiceTicketStore.writeStatus_cases hw
      refine kept_ticket fun r hr => ?_
      obtain rfl := Option.some.inj (hr.symm.trans (Option.filter_eq_some_iff.mp hrow).1)
      exact hedge
    · exact (calls_ticketHistory rfl rfl).bind fun _ => .query rfl
  case repairJob =>
    refine idleBind (fun _ _ _ _ => kept_of_same) (calls_jobLoad rfl) (fun _ t ht => ?_)
      fun _ _ _ => trivial
    rw [← loaded_same ht] at hsnap
    obtain ⟨row, hrow, rfl⟩ := Option.map_eq_some_iff.mp hsnap
    refine .atomicBind (fun _ => kept_refl) (fun i _ u ho hf hw => ⟨fun hs => ?_, lawful_calls ?_⟩)
      fun _ _ _ _ => trivial
    · refine kept_writeAudit hw ((ho hf).2.2 id rfl) ?_ hs
      rw [hs.clear id _ rank]
      exact hedge
    · refine .bind (.atomic rfl fun _ _ _ _ h => .inr h) fun _ => ?_
      exact (calls_auditAppend (by simp) rfl).bind fun _ => calls_jobLoad rfl
  case warrantyClaim =>
    refine lawful_calls (.queryBind rfl fun _ => .orThrowBind fun current => ?_)
    refine .bind (.atomic rfl fun _ _ _ _ h => .inr ⟨current, h⟩) fun _ => ?_
    exact (calls_claimHistory rfl).bind fun _ => .query rfl
  case rma =>
    refine lawful_calls (.queryBind rfl fun _ => .orThrowBind fun current => ?_)
    refine .bind (.atomic rfl fun _ _ _ _ h => .inr ⟨current, h⟩) fun _ => ?_
    exact (calls_auditAppend (by simp) rfl).bind fun _ => .query rfl
  case support =>
    exact lawful_calls (calls_change rfl rfl (fun _ _ h => h) fun _ _ _ h => h)

theorem lawful_transition {target : CaseStatus} {reason : Option String} :
    Lawful (CaseManager.transition ref target actorId reason) s := by
  refine requireBind (fun _ _ _ => kept_refl) (fun i snap _ hsnap => ?_) fun _ => trivial
  refine lawful_bind (.ensureBind (fun hcan => ?_) fun _ => trivial) fun result t => lawful_idle ?_
  · split
    · exact .done trivial
    · refine lawful_bind (lawful_saveStatus hsnap (.of_canTransition hcan)) fun _ t => lawful_idle ?_
      exact (calls_append rfl).bind fun _ => (calls_publish rfl).bind fun _ => .done _
  · exact (calls_settled rfl).bind fun snap => calls_announce.idle.bind fun _ => .done _

theorem lawful_assign {assigneeId : ℕ} : Lawful (CaseManager.assign ref assigneeId actorId) s := by
  refine lawful_calls ((calls_assign.mono fun _ => steady_of_assignment).bind fun found => ?_)
  refine (calls_append rfl).bind fun _ => .orThrowBind fun snap => ?_
  exact (calls_publish rfl).bind fun _ => .done _

/-! ### Requests -/

theorem lawful_createTicket {customerId : ℕ} {dto : CreateTicketDto} :
    Lawful (createTicket customerId dto) s := by
  refine lawful_calls (.queryBind rfl fun center => .orThrowBind fun _ => ?_)
  refine .bind (.atomic rfl fun _ _ b _ h => .inr ⟨customerId, dto, b, h⟩) fun ticket => ?_
  refine calls_recordOpened.idle.steady.bind fun _ => (calls_publish rfl).bind fun _ => ?_
  exact calls_enqueue.idle.steady.bind fun _ => calls_repoAudit.idle.steady

theorem lawful_assignTechnician {token actor ticketId technicianId : ℕ} :
    Lawful (assignTechnician token actor ticketId technicianId) s := by
  refine lawful_withLock fun t => lawful_bind (lawful_calls (.query rfl)) fun tech t => ?_
  refine lawful_bind (lawful_calls (.orThrow _ _)) fun _ t => ?_
  refine lawful_bind (lawful_calls (.query rfl)) fun found t => ?_
  refine lawful_bind (lawful_calls (.orThrow _ _)) fun ticket t => ?_
  have hrest : ∀ t, Lawful (do
      let _ ← CaseManager.assign ⟨.serviceTicket, ticketId⟩ technicianId (some actor)
      repoAudit { ticketId := some ticketId } "service.assign" (some actor) none
      invalidateCache) t := fun t => lawful_bind lawful_assign fun _ t =>
    lawful_idle (calls_repoAudit.idle.bind fun _ => calls_invalidateCache.idle)
  split
  · exact lawful_bind lawful_transition fun _ t => hrest t
  · exact hrest t

theorem lawful_createDiagnostic {actor ticketId : ℕ} :
    Lawful (createDiagnostic actor ticketId) s := by
  refine lawful_bind (lawful_calls (.query rfl)) fun found t => ?_
  refine lawful_bind (lawful_calls (.orThrow _ _)) fun ticket t => ?_
  have hreport : Calls idle createReport :=
    .atomic rfl fun _ _ _ _ h => .inl (Prod.mk.inj (Except.ok.inj h)).2.symm
  have hrest : ∀ t, Lawful (do
      createReport
      if ticket.serialNumberId.isSome then do
        createReport
        invalidateCache
      else pure ()
      repoAudit { ticketId := some ticketId } "service.diagnostic" (some actor) none) t := by
    refine fun t => lawful_idle (hreport.bind fun _ => ?_)
    split
    · exact hreport.bind fun _ => calls_invalidateCache.idle.bind fun _ => calls_repoAudit.idle
    · exact calls_repoAudit.idle
  by_cases hassigned : ticket.status = .assigned
  · dsimp only
    rw [if_pos hassigned]
    exact lawful_bind lawful_transition fun _ t => hrest t
  · dsimp only
    rw [if_neg hassigned]
    exact hrest t

theorem lawful_closeTicket {actor ticketId : ℕ} : Lawful (closeTicket actor ticketId) s := by
  refine lawful_bind lawful_transition fun snap t => lawful_idle ?_
  exact (calls_publish rfl).bind fun _ => calls_repoAudit.idle.bind fun _ => .done _

/-- The new job has no status row yet, and counts as open. -/
theorem kept_writeOpen {ticketId actor now : ℕ} {mk : ℕ → RepairJob} {hmk : ∀ n, key (mk n) = n}
    {u : CareState} {b : Unit} (hs : Dated s)
    (hw : writeOpen (mk s.jobs.next).id ticketId actor now
      { s with jobs := s.jobs.insert mk hmk } = .ok (b, u)) :
    Kept { s with jobs := s.jobs.insert mk hmk } u := by
  obtain ⟨hjob, rfl⟩ := ServiceOpsService.writeOpen_cases hw
  have hnone : s.jobs.find? (mk s.jobs.next).id = none := by
    refine Table.find?_eq_none_iff.mpr fun r hr => ?_
    rw [show (mk s.jobs.next).id = s.jobs.next from hmk _]
    exact (s.jobs.fresh r hr).ne
  have hrows : statusRows (mk s.jobs.next).id { s with jobs := s.jobs.insert mk hmk } = [] :=
    hs.rows _ hnone
  refine kept_job ⟨rfl, rfl, rfl, rfl, rfl⟩ hjob (fun r hr => ?_) (.inl ?_)
  · rw [hrows] at hr
    cases hr
  · exact (readCaseStatus_of_nil hrows).symm

theorem lawful_createRepairJob {actor : ℕ} {dto : CreateRepairJobDto} (hs : Dated s) :
    Lawful (createRepairJob actor dto) s := by
  refine .queryBind (fun _ => kept_refl) (fun i _ _ => ?_) fun _ _ _ => trivial
  refine .orThrowBind (fun ticket _ => ?_) fun _ => trivial
  refine .atomicBind (fun _ => kept_refl) (fun i job u _ _ hw => ?_) fun _ _ _ _ => trivial
  obtain ⟨mk, hmk, rfl, rfl⟩ := ServiceOpsService.insertJob_cases hw
  refine ⟨SameStatuses.insertJob.kept, ?_⟩
  refine .atomicBind (fun _ => kept_refl) (fun i _ u _ _ hw => ⟨kept_writeOpen hs hw, ?_⟩)
    fun _ _ _ _ => trivial
  refine lawful_bind (lawful_idle calls_recordOpened.idle) fun _ t => ?_
  have hrest : ∀ t, Lawful (do
      publish (.domain "repair.started" (mk s.jobs.next).id)
      enqueue "warranty.repair.notify"
      repoAudit { ticketId := some dto.ticketId, repairJobId := some (mk s.jobs.next).id }
        "repair.create" (some actor) none) t := by
    refine fun t => lawful_idle ((calls_publish rfl).bind fun _ => ?_)
    exact calls_enqueue.idle.bind fun _ => calls_repoAudit.idle
  split
  · exact lawful_bind lawful_assign fun _ t => hrest t
  · exact hrest t

theorem lawful_patchRepairJob {token actor id : ℕ} {dto : PatchRepairJobDto} :
    Lawful (patchRepairJob token actor id dto) s := by
  refine lawful_withLock fun t => lawful_bind (lawful_calls (.query rfl)) fun found t => ?_
  refine lawful_bind (lawful_calls (.orThrow _ _)) fun job t => lawful_bind ?_ fun status t => ?_
  · refine lawful_bind (lawful_idle (calls_require rfl)) fun current t => ?_
    split
    · exact lawful_bind lawful_transition fun _ _ => .done trivial
    · exact .done trivial
  · refine lawful_calls (Calls.bind ?_ fun _ => Calls.bind ?_ fun _ => ?_)
    · unfold patchDetails
      split
      · exact .atomic rfl fun _ _ _ _ h => .inr ⟨dto, job.startedAt, rfl, h⟩
      · exact .done _
    · refine (calls_publishIf rfl).bind fun _ => ?_
      split
      · exact .queryBind rfl fun _ => .orThrowBind fun _ => calls_publish rfl
      · exact .done _
    · exact calls_repoAudit.idle.steady.bind fun _ => .done _

end Programs

inductive ServiceRequest where
  | createTicket (customerId : ℕ) (dto : CreateTicketDto)
  | assignTechnician (token actorId ticketId technicianId : ℕ)
  | createDiagnostic (actorId ticketId : ℕ)
  | closeTicket (actorId ticketId : ℕ)
  | createRepairJob (actorId : ℕ) (dto : CreateRepairJobDto)
  | patchRepairJob (token actorId id : ℕ) (dto : PatchRepairJobDto)
  | transition (ref : CaseRef) (target : CaseStatus) (actorId : Option ℕ) (reason : Option String)
  | assign (ref : CaseRef) (assigneeId : ℕ) (actorId : Option ℕ)
deriving DecidableEq

def ServiceRequest.prog : ServiceRequest → CareProg Unit
  | .createTicket customerId dto => ServiceOpsService.createTicket customerId dto
  | .assignTechnician token actorId ticketId technicianId =>
    ServiceOpsService.assignTechnician token actorId ticketId technicianId
  | .createDiagnostic actorId ticketId => ServiceOpsService.createDiagnostic actorId ticketId
  | .closeTicket actorId ticketId => do
    let _ ← ServiceOpsService.closeTicket actorId ticketId
  | .createRepairJob actorId dto => ServiceOpsService.createRepairJob actorId dto
  | .patchRepairJob token actorId id dto => do
    let _ ← ServiceOpsService.patchRepairJob token actorId id dto
  | .transition ref target actorId reason => do
    let _ ← CaseManager.transition ref target actorId reason
  | .assign ref assigneeId actorId => do
    let _ ← CaseManager.assign ref assigneeId actorId

theorem lawful_request {s : CareState} (hs : Dated s) (q : ServiceRequest) : Lawful q.prog s := by
  cases q with
  | createTicket customerId dto => exact lawful_createTicket
  | assignTechnician token actorId ticketId technicianId => exact lawful_assignTechnician
  | createDiagnostic actorId ticketId => exact lawful_createDiagnostic
  | closeTicket actorId ticketId => exact lawful_bind lawful_closeTicket fun _ _ => .done trivial
  | createRepairJob actorId dto => exact lawful_createRepairJob hs
  | patchRepairJob token actorId id dto =>
    exact lawful_bind lawful_patchRepairJob fun _ _ => .done trivial
  | transition ref target actorId reason =>
    exact lawful_bind lawful_transition fun _ _ => .done trivial
  | assign ref assigneeId actorId => exact lawful_bind lawful_assign fun _ _ => .done trivial

/-! ### Runs -/

/-- A ticket or a job that is closed or cancelled stays so. -/
structure EndedStays (s s' : CareState) : Prop where
  tickets : ∀ id, ∀ current ∈ ticketStatus id s, current = .closed ∨ current = .cancelled →
    current ∈ ticketStatus id s'
  jobs : ∀ id, (s.jobs.find? id).isSome = true → ∀ rank rank' current,
    RepairJobStore.readCaseStatus id rank s = current → current = .closed ∨ current = .cancelled →
      (s'.jobs.find? id).isSome = true ∧ RepairJobStore.readCaseStatus id rank' s' = current

theorem EdgeStep.endedStays {s s' : CareState} (h : EdgeStep s s') : EndedStays s s' where
  tickets id current hc hended := by
    obtain ⟨next, hnext, hedge⟩ := h.tickets id current hc
    have hterm : current ∈ (CASE_DEFINITIONS .serviceTicket).terminalStatuses := by
      rcases hended with rfl | rfl <;> decide
    rwa [@Edge.terminal .serviceTicket _ _ hedge hterm] at hnext
  jobs id hjob rank rank' current hc hended := by
    have hterm : current ∈ (CASE_DEFINITIONS .repairJob).terminalStatuses := by
      rcases hended with rfl | rfl <;> decide
    refine ⟨h.kept id hjob, ?_⟩
    have hedge := h.jobs id hjob rank rank'
    rw [hc] at hedge
    exact @Edge.terminal .repairJob _ _ hedge hterm

theorem EndedStays.refl {s : CareState} (hs : Dated s) : EndedStays s s where
  tickets _ _ hc _ := hc
  jobs id hjob rank rank' _ hc _ := ⟨hjob, (hs.clear id rank' rank).trans hc⟩

theorem EndedStays.trans {a b c : CareState} (h : EndedStays a b) (h' : EndedStays b c) :
    EndedStays a c where
  tickets id current hc hended := h'.tickets id current (h.tickets id current hc hended) hended
  jobs id hjob rank rank' current hc hended := by
    obtain ⟨hjob', hc'⟩ := h.jobs id hjob rank rank' current hc hended
    exact h'.jobs id hjob' rank' rank' current hc' hended

def Ordered (s s' : CareState) : Prop := Dated s → Dated s' ∧ EndedStays s s'

theorem Ordered.trans {a b c : CareState} (h : Ordered a b) (h' : Ordered b c) : Ordered a c := by
  intro ha
  obtain ⟨hb, hab⟩ := h ha
  obtain ⟨hc, hbc⟩ := h' hb
  exact ⟨hc, hab.trans hbc⟩

/-- In every sequence of requests that are assignable, what is closed or cancelled stays so, and every
call of the next request changes statuses along edges only. -/
theorem statuses_follow_edges {s s' : CareState} {calls : List (ServiceRequest × Except Failure Unit)}
    (hs : Dated s) (hrun : Pool.History Assignable ServiceRequest.prog s calls s') :
    EndedStays s s' ∧ ∀ (q : ServiceRequest) (inputs : List CareInput),
      Pool.SoloAdmits Assignable q.prog s' inputs → ∀ n,
        EdgeStep (Pool.solo q.prog s' (inputs.take n)).state
          (Pool.solo q.prog s' (inputs.take (n + 1))).state := by
  have hlast : Dated s' ∧ EndedStays s s' := by
    refine hrun.invariant (P := fun _ t => Dated t ∧ EndedStays s t) ⟨hs, .refl hs⟩ ?_
    rintro calls t q r u ⟨ht, hst⟩ ⟨inputs, ha, -, rfl⟩
    have hkept : ∀ a b, Kept a b → Ordered a b :=
      fun a b h ha => ⟨(h ha).1, (h ha).2.endedStays⟩
    have hstep : Ordered t (Pool.solo q.prog t inputs).state :=
      Pool.solo_related (W := ⟨Assignable, fun _ => True⟩) (R := Ordered)
        (fun t ht => ⟨ht, .refl ht⟩) Ordered.trans (fun _ _ a b h => hkept a b h) trivial
        (lawful_request ht q) ha
    obtain ⟨hu, htu⟩ := hstep ht
    exact ⟨hu, hst.trans htu⟩
  refine ⟨hlast.2, fun q inputs ha n => ?_⟩
  have hq := lawful_request hlast.1 q
  have hdated := hq.invariant (fun _ _ _ _ h ht => (h ht).1) ha hlast.1 n
  exact (hq.steps (R := Kept) (fun _ => kept_refl) (fun _ _ _ _ h => h) ha n hdated).2

def ticking (start n : ℕ) : List CareInput :=
  (List.range n).map fun k => { now := start + k, reply := () }

def served (q : ServiceRequest) (s : CareState) (start : ℕ) : CarePool Unit :=
  Pool.solo q.prog s (ticking start 26)

/-- The ticket has a technician, and a job that is assigned to the same. -/
def jobOpened : CareState :=
  (served (.createRepairJob 5 { ticketId := 0 })
    (served (.assignTechnician 1 5 0 0) newTicket 0).state 100).state

theorem dated_of_no_rows {s : CareState} (h : s.audits.rows = []) : Dated s where
  clear id rank rank' := by simp [RepairJobStore.readCaseStatus, auditRows, h]
  rows id _ := by simp [statusRows, h]

/-- The repair is started after the ticket and the job were assigned. -/
theorem statuses_follow_edges_repair :
    EndedStays newTicket jobOpened ∧ ∀ n,
      EdgeStep (Pool.solo (ServiceRequest.patchRepairJob 2 5 0 { status := some .inProgress }).prog
          jobOpened ((ticking 200 26).take n)).state
        (Pool.solo (ServiceRequest.patchRepairJob 2 5 0 { status := some .inProgress }).prog
          jobOpened ((ticking 200 26).take (n + 1))).state := by
  have hrun := statuses_follow_edges (dated_of_no_rows (s := newTicket) rfl)
    (.snoc (.snoc .nil (q := .assignTechnician 1 5 0 0) (r := .ok ())
        ⟨ticking 0 26, by decide +kernel, by decide +kernel, rfl⟩)
      (q := .createRepairJob 5 { ticketId := 0 }) (r := .ok ())
        ⟨ticking 100 26, by decide +kernel, by decide +kernel, rfl⟩)
  exact ⟨hrun.1, hrun.2 (.patchRepairJob 2 5 0 { status := some .inProgress }) (ticking 200 26)
    (by decide +kernel)⟩

def closedTicket : CareState :=
  { newTicket with tickets := Table.empty.insert fun n => { id := n, status := .closed } }

/-- A ticket that is closed gets a technician, and is assigned again. -/
theorem closed_ticket_assigned :
    Dated closedTicket ∧ ticketStatus 0 closedTicket = some .closed ∧
      ¬ Edge serviceTicketStateMachine .closed .assigned ∧
      ∃ s', Pool.History anyCall ServiceRequest.prog closedTicket
        [(.assignTechnician 1 5 0 0, .ok ())] s' ∧ ticketStatus 0 s' = some .assigned := by
  refine ⟨dated_of_no_rows rfl, by decide +kernel, by decide +kernel, _, .snoc .nil
    ⟨ticking 0 26, Pool.soloAdmits_of_forall fun _ _ _ _ => trivial, ?_, rfl⟩, ?_⟩
  · decide +kernel
  · decide +kernel

end ElectronicsCart.Cases
