import ElectronicsCart.Cases.Registrations

/-!
# What the calls do to the cases

`Effect` says for every label what its call may have done.  `Calls S p` holds when every call of `p`
has a label in `S` and only that effect; `quiet` labels leave the rows of all cases alone, and
`plain` ones record no escalation.
-/

namespace ElectronicsCart.Cases

open Interleaving Relational

/-! ### Transactions -/

theorem writeAudit_eq_ok {ref : CaseRef} {action : AuditAction} {actorId : Option ℕ}
    {metadata : AuditMetadata} {now : ℕ} {s s' : CareState} {u : Unit} :
    writeAudit ref action actorId metadata now s = .ok (u, s') ↔ caseExists ref s = true ∧
      s' = { s with audits := s.audits.insert (auditRow ref action actorId metadata now) } := by
  simp only [writeAudit, bind_eq_ok, check_eq_ok, pure_eq_ok, Prod.mk.injEq, true_and, exists_const]
  exact and_congr_right fun _ => eq_comm

section Transactions

variable {s s' : CareState} {id now : ℕ} {status : CaseStatus} {u : Unit}

theorem WarrantyClaimStore.writeStatus_cases {current : WarrantyClaim}
    (h : writeStatus current id status now s = .ok (u, s')) :
    (∃ r, s.claims.find? id = some r) ∧ s' = { s with
      claims := s.claims.update id (save current status now) (key_save current status now) } := by
  simp only [writeStatus, bind_eq_ok, existing_eq_ok, pure_eq_ok, Prod.mk.injEq, true_and] at h
  obtain ⟨r, hr, rfl⟩ := h
  exact ⟨⟨r, hr⟩, rfl⟩

theorem RmaStore.writeStatus_cases {current : RmaRequest}
    (h : writeStatus current id status now s = .ok (u, s')) :
    (∃ r, s.rmas.find? id = some r) ∧ s' = { s with
      rmas := s.rmas.update id (save current status now) (key_save current status now) } := by
  simp only [writeStatus, bind_eq_ok, existing_eq_ok, pure_eq_ok, Prod.mk.injEq, true_and] at h
  obtain ⟨r, hr, rfl⟩ := h
  exact ⟨⟨r, hr⟩, rfl⟩

theorem ServiceTicketStore.writeStatus_cases {current : ServiceTicket}
    (h : writeStatus current id status now s = .ok (u, s')) :
    (∃ r, s.tickets.find? id = some r) ∧ s' = { s with
      tickets := s.tickets.update id (save current status now) (key_save current status now) } := by
  simp only [writeStatus, bind_eq_ok, existing_eq_ok, pure_eq_ok, Prod.mk.injEq, true_and] at h
  obtain ⟨r, hr, rfl⟩ := h
  exact ⟨⟨r, hr⟩, rfl⟩

theorem ServiceTicketStore.writeAssign_cases {assigneeId : ℕ}
    (h : writeAssign id assigneeId now s = .ok (u, s')) :
    (∃ r, s.tickets.find? id = some r) ∧ (s.technicians.find? assigneeId).isSome = true ∧
      s' = { s with
        tickets := s.tickets.update id (assignTo assigneeId now) (key_assignTo assigneeId now) } := by
  simp only [writeAssign, bind_eq_ok, existing_eq_ok, check_eq_ok, pure_eq_ok, Prod.mk.injEq, true_and,
    exists_const] at h
  obtain ⟨r, hr, htech, rfl⟩ := h
  exact ⟨⟨r, hr⟩, htech, rfl⟩

theorem ServiceTicketStore.writePriority_cases {priority : CasePriority}
    (h : writePriority id priority s = .ok (u, s')) :
    (∃ r, s.tickets.find? id = some r) ∧ s' = { s with
      tickets := s.tickets.update id fun r => { r with priority := priority.val } } := by
  simp only [writePriority, bind_eq_ok, existing_eq_ok, pure_eq_ok, Prod.mk.injEq, true_and] at h
  obtain ⟨r, hr, rfl⟩ := h
  exact ⟨⟨r, hr⟩, rfl⟩

theorem RepairJobStore.writeClose_cases
    (h : writeClose id status now s = .ok (u, s')) :
    (∃ r, s.jobs.find? id = some r) ∧ s' = { s with
      jobs := s.jobs.update id (close status now) (key_close status now) } := by
  simp only [writeClose, bind_eq_ok, existing_eq_ok, pure_eq_ok, Prod.mk.injEq, true_and] at h
  obtain ⟨r, hr, rfl⟩ := h
  exact ⟨⟨r, hr⟩, rfl⟩

theorem RepairJobStore.writeTechnician_cases {assigneeId : ℕ}
    (h : writeTechnician id assigneeId s = .ok (u, s')) :
    (∃ r, s.jobs.find? id = some r) ∧ s' = { s with
      jobs := s.jobs.update id fun r => { r with technicianId := some assigneeId } } := by
  simp only [writeTechnician, bind_eq_ok, existing_eq_ok, check_eq_ok, pure_eq_ok, Prod.mk.injEq, true_and,
    exists_const] at h
  obtain ⟨r, hr, -, rfl⟩ := h
  exact ⟨⟨r, hr⟩, rfl⟩

theorem RepairJobStore.writeNote_cases {notes : String}
    (h : writeNote id notes s = .ok (u, s')) :
    (∃ r, s.jobs.find? id = some r) ∧ s' = { s with
      jobs := s.jobs.update id fun r => { r with repairNotes := some notes } } := by
  simp only [writeNote, bind_eq_ok, existing_eq_ok, pure_eq_ok, Prod.mk.injEq, true_and] at h
  obtain ⟨r, hr, rfl⟩ := h
  exact ⟨⟨r, hr⟩, rfl⟩

theorem writeServiceAudit_cases {links : AuditLinks} {action : String} {actorId : Option ℕ}
    {change : Option CaseStatus}
    (h : writeServiceAudit links action actorId change now s = .ok (u, s')) :
    links.repairJobId.all (fun id => (s.jobs.find? id).isSome) = true ∧ s' = { s with
      audits := s.audits.insert fun n =>
        { id := n, ticketId := links.ticketId, claimId := links.claimId
          repairJobId := links.repairJobId, action := .domain action, actorId
          metadata := .payload change, createdAt := now } } := by
  simp only [writeServiceAudit, bind_eq_ok, check_eq_ok, pure_eq_ok, Prod.mk.injEq, true_and,
    exists_const] at h
  obtain ⟨-, -, hjob, rfl⟩ := h
  exact ⟨hjob, rfl⟩

theorem ServiceOpsService.insertTicket_cases {customerId : ℕ} {dto : CreateTicketDto} {row : ServiceTicket}
    (h : insertTicket customerId dto now s = .ok (row, s')) :
    ∃ mk : ℕ → ServiceTicket, ∃ hmk : ∀ n, key (mk n) = n, row = mk s.tickets.next ∧
      (∀ n, (mk n).status = .created) ∧ s' = { s with tickets := s.tickets.insert mk hmk } := by
  simp only [insertTicket, bind_eq_ok, check_eq_ok, pure_eq_ok, Prod.mk.injEq, exists_const] at h
  obtain ⟨-, -, rfl, rfl⟩ := h
  exact ⟨_, _, rfl, fun _ => rfl, rfl⟩

theorem ServiceOpsService.insertJob_cases {dto : CreateRepairJobDto} {technicianId : Option ℕ} {row : RepairJob}
    (h : insertJob dto technicianId now s = .ok (row, s')) :
    ∃ mk : ℕ → RepairJob, ∃ hmk : ∀ n, key (mk n) = n, row = mk s.jobs.next ∧
      s' = { s with jobs := s.jobs.insert mk hmk } := by
  simp only [insertJob, bind_eq_ok, check_eq_ok, pure_eq_ok, Prod.mk.injEq, exists_const] at h
  obtain ⟨-, -, -, rfl, rfl⟩ := h
  exact ⟨_, _, rfl, rfl⟩

theorem ServiceOpsService.writeOpen_cases {ticketId actorId : ℕ}
    (h : writeOpen id ticketId actorId now s = .ok (u, s')) :
    (s.jobs.find? id).isSome = true ∧ s' = { s with audits := s.audits.insert fun n =>
      { id := n, ticketId := some ticketId, repairJobId := some id, action := .caseStatus
        actorId := some actorId, metadata := .status .open, createdAt := now } } := by
  simp only [writeOpen, bind_eq_ok, check_eq_ok, pure_eq_ok, Prod.mk.injEq, true_and,
    exists_const] at h
  obtain ⟨hjob, -, rfl⟩ := h
  exact ⟨hjob, rfl⟩

theorem ServiceOpsService.writePatch_cases {dto : PatchRepairJobDto} {startedAt : Option ℕ}
    (h : writePatch id dto startedAt now s = .ok (u, s')) :
    (∃ r, s.jobs.find? id = some r) ∧ s' = { s with
      jobs := s.jobs.update id (applyPatch dto startedAt now) (key_applyPatch dto startedAt now) } := by
  simp only [writePatch, bind_eq_ok, existing_eq_ok, check_eq_ok, pure_eq_ok, Prod.mk.injEq, true_and,
    exists_const] at h
  obtain ⟨r, hr, -, -, rfl⟩ := h
  exact ⟨⟨r, hr⟩, rfl⟩

theorem WarrantyService.insertRegistration_cases {customerId serialId : ℕ} {plan : WarrantyPlan}
    {row : WarrantyRegistration}
    (h : insertRegistration customerId plan serialId now s = .ok (row, s')) :
    ∃ mk : ℕ → WarrantyRegistration, ∃ hmk : ∀ n, key (mk n) = n, row = mk s.registrations.next ∧
      (∀ n, (mk n).serialNumberId = some serialId) ∧
      s' = { s with registrations := s.registrations.insert mk hmk } := by
  simp only [insertRegistration, bind_eq_ok, check_eq_ok, pure_eq_ok, Prod.mk.injEq, exists_const] at h
  obtain ⟨-, -, rfl, rfl⟩ := h
  exact ⟨_, _, rfl, fun _ => rfl, rfl⟩

theorem WarrantyService.insertClaim_cases {customerId : ℕ} {reg : WarrantyRegistration} {amount : Option ℚ}
    {row : WarrantyClaim}
    (h : insertClaim customerId reg amount now s = .ok (row, s')) :
    ∃ mk : ℕ → WarrantyClaim, ∃ hmk : ∀ n, key (mk n) = n, row = mk s.claims.next ∧
      (∀ n, (mk n).registrationId = reg.id) ∧ s' = { s with claims := s.claims.insert mk hmk } := by
  simp only [insertClaim, bind_eq_ok, check_eq_ok, pure_eq_ok, Prod.mk.injEq, exists_const] at h
  obtain ⟨-, -, -, rfl, rfl⟩ := h
  exact ⟨_, _, rfl, fun _ => rfl, rfl⟩

theorem WarrantyService.writeExtension_cases {plan : WarrantyPlan} {start finish : ℕ} {amount : Option ℚ}
    {row : WarrantyExtension}
    (h : writeExtension id plan start finish amount s = .ok (row, s')) :
    Calendar.toDate start ≤ Calendar.toDate finish ∧ (∃ r, s.registrations.find? id = some r) ∧
      ∃ mk : ℕ → WarrantyExtension, ∃ hmk : ∀ n, key (mk n) = n, row = mk s.extensions.next ∧
        (∀ n, (mk n).registrationId = id ∧ (mk n).endDate = Calendar.toDate finish) ∧
        s' = { s with
          extensions := s.extensions.insert mk hmk
          registrations := s.registrations.update id (setEndDate (Calendar.toDate finish))
            (key_setEndDate (Calendar.toDate finish)) } := by
  simp only [writeExtension, bind_eq_ok, existing_eq_ok, check_eq_ok, pure_eq_ok, Prod.mk.injEq,
    exists_const] at h
  obtain ⟨hle, -, r, hr, -, rfl, rfl⟩ := h
  exact ⟨of_decide_eq_true hle, ⟨r, hr⟩, _, _, rfl, fun _ => ⟨rfl, rfl⟩, rfl⟩

end Transactions

/-- A copy of the snapshot put back; a mark of escalation is not taken away. -/
def MemoryChange (ref : CaseRef) (s s' : CareState) : Prop :=
  ∃ snap snap' : CaseSnapshot, s.memoryCases ref = some snap ∧
    (snap.escalatedAt ≠ none → snap'.escalatedAt ≠ none) ∧
    s' = { s with memoryCases := Function.update s.memoryCases ref (some snap') }

def SavesStatus (ref : CaseRef) (status : CaseStatus) (now : ℕ) (s s' : CareState) : Prop :=
  match ref.kind with
  | .warrantyClaim =>
    ∃ current, WarrantyClaimStore.writeStatus current ref.id status now s = .ok ((), s')
  | .rma => ∃ current, RmaStore.writeStatus current ref.id status now s = .ok ((), s')
  | .serviceTicket =>
    ∃ current, ServiceTicketStore.writeStatus current ref.id status now s = .ok ((), s')
  | .repairJob =>
    ∃ actorId, writeAudit ref .caseStatus actorId (.status status) now s = .ok ((), s')
  | .support => MemoryChange ref s s'

def Assigns (ref : CaseRef) (assigneeId now : ℕ) (s s' : CareState) : Prop :=
  match ref.kind with
  | .serviceTicket => ServiceTicketStore.writeAssign ref.id assigneeId now s = .ok ((), s')
  | .repairJob => RepairJobStore.writeTechnician ref.id assigneeId s = .ok ((), s')
  | .support => MemoryChange ref s s'
  | _ => False

def SetsPriority (ref : CaseRef) (priority : CasePriority) (s s' : CareState) : Prop :=
  match ref.kind with
  | .serviceTicket => ServiceTicketStore.writePriority ref.id priority s = .ok ((), s')
  | .support => MemoryChange ref s s'
  | _ => False

def AddsHistory (ref : CaseRef) (now : ℕ) (p : TicketStatusHistory → Prop) (s s' : CareState) : Prop :=
  ref.kind = .serviceTicket ∧ ∃ row : ℕ → TicketStatusHistory, ∃ hrow : ∀ n, key (row n) = n,
    (∀ n, ((row n).ticketId = ref.id ∧ (row n).changedAt = now ∧ (row n).deleted = false) ∧ p (row n)) ∧
      s' = { s with ticketHistory := s.ticketHistory.insert row hrow }

def AddsNote (ref : CaseRef) (note : CaseNoteInput) (now : ℕ) (s s' : CareState) : Prop :=
  AddsHistory ref now (fun h => h.fromStatus = none ∧ h.notes = some note.body) s s' ∨
    (ref.kind = .rma ∧ ∃ actorId body,
      writeAudit ref (.domain "rma.note") actorId (.rmaNote ref.id body) now s = .ok ((), s')) ∨
    ∃ notes, RepairJobStore.writeNote ref.id notes s = .ok ((), s')

def Appends (ref : CaseRef) (type : TimelineType) (now : ℕ) (s s' : CareState) : Prop :=
  ∃ entry : CaseTimelineEntry, entry.type = type ∧
    ((ref.kind ≠ .support ∧ writeAudit ref (.case type) entry.actorId (entryMetadata ref entry now)
        now s = .ok ((), s')) ∨
      (ref.kind = .support ∧ s' = { s with
        memoryTimelines := Function.update s.memoryTimelines ref
          (s.memoryTimelines ref ++ [entry.stamped now]) }))

def Writes (l : CareCall) (now : ℕ) (s s' : CareState) : Prop :=
  match l with
  | .acquire _ _ => ∃ m, s' = { s with locks := m }
  | .release _ _ => ∃ m, s' = { s with locks := m }
  | .saveStatus ref status => SavesStatus ref status now s s'
  | .createHistory ref => AddsHistory ref now (fun _ => True) s s'
  | .closeJob id status => RepairJobStore.writeClose id status now s = .ok ((), s')
  | .assign ref assigneeId => Assigns ref assigneeId now s s'
  | .markAssigned id => ∃ actorId,
    writeAudit ⟨.repairJob, id⟩ .caseStatus actorId (.status .assigned) now s = .ok ((), s')
  | .setPriority ref priority => SetsPriority ref priority s s'
  | .addNote ref note => AddsNote ref note now s s'
  | .appendTimeline ref type => Appends ref type now s s'
  | .markEscalated ref => ∃ snap time, s.memoryCases ref = some snap ∧ s' = { s with
    memoryCases := Function.update s.memoryCases ref (some { snap with escalatedAt := some time }) }
  | .publish event => s' = { s with published := s.published ++ [event] }
  | .audit links => ∃ action actorId status,
    writeServiceAudit links action actorId status now s = .ok ((), s')
  | .createTicket => ∃ customerId dto row,
    ServiceOpsService.insertTicket customerId dto now s = .ok (row, s')
  | .createJob => ∃ dto technicianId row,
    ServiceOpsService.insertJob dto technicianId now s = .ok (row, s')
  | .openJob id => ∃ ticketId actorId,
    ServiceOpsService.writeOpen id ticketId actorId now s = .ok ((), s')
  | .patchJob id status => ∃ dto startedAt, dto.status = status ∧
    ServiceOpsService.writePatch id dto startedAt now s = .ok ((), s')
  | .createRegistration serialId => ∃ customerId plan row,
    WarrantyService.insertRegistration customerId plan serialId now s = .ok (row, s')
  | .createClaim registrationId => ∃ customerId reg amount row, reg.id = registrationId ∧
    WarrantyService.insertClaim customerId reg amount now s = .ok (row, s')
  | .extend registrationId _ => ∃ plan start finish amount row,
    WarrantyService.writeExtension registrationId plan start finish amount s = .ok (row, s')
  | _ => False

/-- The calls that can fail, and then do nothing. -/
def fallible : CareCall → Bool
  | .openCase _ => false
  | .clock _ _ => false
  | .markEscalated _ => false
  | .publish _ => false
  | .release _ _ => false
  | .saveStatus ref _ => ref.kind != .support
  | .assign ref _ => ref.kind != .support
  | .setPriority ref _ => ref.kind != .support
  | .addNote ref _ => ref.kind != .support
  | .addAttachment ref => ref.kind != .support
  | .appendTimeline ref _ => ref.kind != .support
  | _ => true

def Effect (l : CareCall) (i : CareInput) (s s' : CareState) : Prop :=
  s' = s ∨ (fallible l = true → i.fails = false) ∧ Writes l i.now s s'

/-! ### Quiet calls -/

def statusRows (jobId : ℕ) (s : CareState) : List ServiceAuditLog :=
  s.audits.rows.filter fun r => RepairJobStore.isStatusRow jobId r && !r.deleted

/-- The tables of the cases and the status rows are as they were, and a new row of the audit log
names a repair job only if there is one. -/
structure SameCases (s s' : CareState) : Prop where
  claims : s'.claims = s.claims
  rmas : s'.rmas = s.rmas
  tickets : s'.tickets = s.tickets
  jobs : s'.jobs = s.jobs
  registrations : s'.registrations = s.registrations
  extensions : s'.extensions = s.extensions
  statusRows : ∀ id, statusRows id s' = statusRows id s
  links : ∀ r ∈ s'.audits.rows, r ∈ s.audits.rows ∨
    ∀ id, r.repairJobId = some id → (s.jobs.find? id).isSome = true

theorem SameCases.of_audits {s s' : CareState} (hclaims : s'.claims = s.claims)
    (hrmas : s'.rmas = s.rmas) (htickets : s'.tickets = s.tickets) (hjobs : s'.jobs = s.jobs)
    (hregs : s'.registrations = s.registrations) (hexts : s'.extensions = s.extensions)
    (haudits : s'.audits = s.audits) : SameCases s s' where
  claims := hclaims
  rmas := hrmas
  tickets := htickets
  jobs := hjobs
  registrations := hregs
  extensions := hexts
  statusRows _ := by simp only [Cases.statusRows, haudits]
  links r hr := .inl (haudits ▸ hr)

theorem SameCases.refl (s : CareState) : SameCases s s :=
  .of_audits rfl rfl rfl rfl rfl rfl rfl

theorem SameCases.trans {a b c : CareState} (h : SameCases a b) (h' : SameCases b c) :
    SameCases a c where
  claims := h'.claims.trans h.claims
  rmas := h'.rmas.trans h.rmas
  tickets := h'.tickets.trans h.tickets
  jobs := h'.jobs.trans h.jobs
  registrations := h'.registrations.trans h.registrations
  extensions := h'.extensions.trans h.extensions
  statusRows id := (h'.statusRows id).trans (h.statusRows id)
  links r hr := by
    rcases h'.links r hr with hr | hlink
    · exact h.links r hr
    · exact .inr (h.jobs ▸ hlink)

theorem SameCases.insertAudit {s : CareState} {row : ℕ → ServiceAuditLog}
    {hrow : ∀ n, key (row n) = n} (haction : ∀ n, (row n).action ≠ .caseStatus)
    (hlink : ∀ n id, (row n).repairJobId = some id → (s.jobs.find? id).isSome = true) :
    SameCases s { s with audits := s.audits.insert row hrow } where
  claims := rfl
  rmas := rfl
  tickets := rfl
  jobs := rfl
  registrations := rfl
  extensions := rfl
  statusRows id := by
    have hno : RepairJobStore.isStatusRow id (row s.audits.next) = false := by
      simp [RepairJobStore.isStatusRow, haction]
    simp [Cases.statusRows, Table.insert, List.filter_append, hno]
  links r hr := by
    rcases (Table.mem_insert hrow).mp hr with hr | rfl
    · exact .inl hr
    · exact .inr (hlink _)

theorem SameCases.writeAudit {ref : CaseRef} {action : AuditAction} {actorId : Option ℕ}
    {metadata : AuditMetadata} {now : ℕ} {s s' : CareState} {u : Unit}
    (haction : action ≠ .caseStatus)
    (h : writeAudit ref action actorId metadata now s = .ok (u, s')) : SameCases s s' := by
  obtain ⟨hexists, rfl⟩ := writeAudit_eq_ok.mp h
  refine .insertAudit (fun _ => haction) fun n id hid => ?_
  by_cases hk : ref.kind = .repairJob
  · simp only [auditRow, hk, if_true, Option.some.injEq] at hid
    simpa [caseExists, hk, hid] using hexists
  · simp [auditRow, hk] at hid

/-- The labels that leave the rows of the cases alone. -/
def quiet : CareCall → Bool
  | .saveStatus _ _ => false
  | .closeJob _ _ => false
  | .assign _ _ => false
  | .markAssigned _ => false
  | .setPriority _ _ => false
  | .addNote _ _ => false
  | .createTicket => false
  | .createJob => false
  | .openJob _ => false
  | .patchJob _ _ => false
  | .createRegistration _ => false
  | .createClaim _ => false
  | .extend _ _ => false
  | _ => true

theorem Effect.same {l : CareCall} {i : CareInput} {s s' : CareState} (hl : quiet l = true)
    (h : Effect l i s s') : SameCases s s' := by
  rcases h with rfl | ⟨-, h⟩
  · exact .refl _
  unfold Writes at h
  split at h <;> try cases hl
  · obtain ⟨m, rfl⟩ := h
    exact .of_audits rfl rfl rfl rfl rfl rfl rfl
  · obtain ⟨m, rfl⟩ := h
    exact .of_audits rfl rfl rfl rfl rfl rfl rfl
  · obtain ⟨-, row, hrow, -, rfl⟩ := h
    exact .of_audits rfl rfl rfl rfl rfl rfl rfl
  · obtain ⟨entry, -, ⟨-, hw⟩ | ⟨-, rfl⟩⟩ := h
    · exact .writeAudit (by simp) hw
    · exact .of_audits rfl rfl rfl rfl rfl rfl rfl
  · obtain ⟨snap, time, -, rfl⟩ := h
    exact .of_audits rfl rfl rfl rfl rfl rfl rfl
  · subst h
    exact .of_audits rfl rfl rfl rfl rfl rfl rfl
  · obtain ⟨action, actorId, status, hw⟩ := h
    obtain ⟨hjob, rfl⟩ := writeServiceAudit_cases hw
    refine .insertAudit (fun _ => by simp) fun n id hid => ?_
    dsimp only at hid
    rw [hid] at hjob
    exact hjob
  · exact h.elim

/-- The labels that neither escalate a case nor start one anew. -/
def plain : CareCall → Bool
  | .appendTimeline _ .escalated => false
  | .markEscalated _ => false
  | .publish (.escalated _ _ _ _ _) => false
  | .openCase _ => false
  | _ => true

/-- The labels under which a store is used for a write or a load. -/
def ofStore : CareCall → Bool
  | .load _ => true
  | .reload _ => true
  | .saved _ => true
  | .findCurrent _ => true
  | .saveStatus _ _ => true
  | .createHistory _ => true
  | .closeJob _ _ => true
  | .assign _ _ => true
  | .markAssigned _ => true
  | .setPriority _ _ => true
  | .addNote _ _ => true
  | .addAttachment _ => true
  | .appendTimeline _ type => type != .escalated
  | _ => false

/-- The labels that put no change of status on a timeline and start none. -/
def unrecorded : CareCall → Bool
  | .appendTimeline _ type => type != .statusChanged
  | .openCase _ => false
  | .openJob _ => false
  | _ => true

def ofUpdate (l : CareCall) : Bool := ofStore l && unrecorded l

/-- The labels under which no status is saved. -/
def unsaving : CareCall → Bool
  | .saveStatus _ _ => false
  | .openJob _ => false
  | _ => true

def ofAssignment (l : CareCall) : Bool := ofUpdate l && unsaving l

def unlocking : CareCall → Bool
  | .acquire _ _ => false
  | .release _ _ => false
  | _ => true

theorem plain_of_store {l : CareCall} (h : ofStore l = true) : plain l = true := by
  unfold plain
  split <;> first | rfl | cases h

theorem Effect.published {l : CareCall} {i : CareInput} {s s' : CareState} (hl : ofStore l = true)
    (h : Effect l i s s') : s'.published = s.published := by
  rcases h with rfl | ⟨-, h⟩
  · rfl
  unfold Writes at h
  split at h <;> try (cases hl; done)
  · unfold SavesStatus at h
    split at h
    · obtain ⟨current, h⟩ := h
      obtain ⟨-, rfl⟩ := WarrantyClaimStore.writeStatus_cases h
      rfl
    · obtain ⟨current, h⟩ := h
      obtain ⟨-, rfl⟩ := RmaStore.writeStatus_cases h
      rfl
    · obtain ⟨current, h⟩ := h
      obtain ⟨-, rfl⟩ := ServiceTicketStore.writeStatus_cases h
      rfl
    · obtain ⟨actorId, h⟩ := h
      obtain ⟨-, rfl⟩ := writeAudit_eq_ok.mp h
      rfl
    · obtain ⟨_, _, _, _, rfl⟩ := h
      rfl
  · obtain ⟨-, row, hrow, -, rfl⟩ := h
    rfl
  · obtain ⟨-, rfl⟩ := RepairJobStore.writeClose_cases h
    rfl
  · unfold Assigns at h
    split at h
    · obtain ⟨-, -, rfl⟩ := ServiceTicketStore.writeAssign_cases h
      rfl
    · obtain ⟨-, rfl⟩ := RepairJobStore.writeTechnician_cases h
      rfl
    · obtain ⟨_, _, _, _, rfl⟩ := h
      rfl
    · exact h.elim
  · obtain ⟨actorId, h⟩ := h
    obtain ⟨-, rfl⟩ := writeAudit_eq_ok.mp h
    rfl
  · unfold SetsPriority at h
    split at h
    · obtain ⟨-, rfl⟩ := ServiceTicketStore.writePriority_cases h
      rfl
    · obtain ⟨_, _, _, _, rfl⟩ := h
      rfl
    · exact h.elim
  · rcases h with ⟨-, row, hrow, -, rfl⟩ | ⟨-, actorId, body, h⟩ | ⟨notes, h⟩
    · rfl
    · obtain ⟨-, rfl⟩ := writeAudit_eq_ok.mp h
      rfl
    · obtain ⟨-, rfl⟩ := RepairJobStore.writeNote_cases h
      rfl
  · obtain ⟨entry, -, ⟨-, h⟩ | ⟨-, rfl⟩⟩ := h
    · obtain ⟨-, rfl⟩ := writeAudit_eq_ok.mp h
      rfl
    · rfl
  · exact h.elim

/-! ### Programs -/

/-- Every call has a label in `S` and the effect of its label. -/
def Calls {α : Type} (S : CareCall → Bool) (p : CareProg α) : Prop :=
  p.Every (fun _ _ _ => True) fun l i s s' => S l = true ∧ Effect l i s s'

def idle (l : CareCall) : Bool := quiet l && plain l

def calm (l : CareCall) : Bool := idle l && unlocking l

theorem Effect.locks {l : CareCall} {i : CareInput} {s s' : CareState} (hl : calm l = true)
    (h : Effect l i s s') : s'.locks = s.locks := by
  simp only [calm, idle, Bool.and_eq_true] at hl
  obtain ⟨⟨hquiet, hplain⟩, hunlocking⟩ := hl
  rcases h with rfl | ⟨-, h⟩
  · rfl
  unfold Writes at h
  split at h <;> try first | (cases hquiet; done) | (cases hplain; done) | (cases hunlocking; done)
  · obtain ⟨-, row, hrow, -, rfl⟩ := h
    rfl
  · obtain ⟨entry, -, ⟨-, h⟩ | ⟨-, rfl⟩⟩ := h
    · obtain ⟨-, rfl⟩ := writeAudit_eq_ok.mp h
      rfl
    · rfl
  · subst h
    rfl
  · obtain ⟨action, actorId, status, h⟩ := h
    obtain ⟨-, rfl⟩ := writeServiceAudit_cases h
    rfl
  · exact h.elim

variable {α β : Type} {S S' : CareCall → Bool}

namespace Calls

theorem mono {p : CareProg α} (hS : ∀ l, S l = true → S' l = true) (h : Calls S p) : Calls S' p :=
  Prog.Every.mono (fun _ _ _ _ _ h => ⟨hS _ h.1, h.2⟩) h

theorem quiet {p : CareProg α} (h : Calls idle p) : Calls quiet p :=
  h.mono fun _ hl => (Bool.and_eq_true_iff.mp hl).1

theorem plain {p : CareProg α} (h : Calls idle p) : Calls plain p :=
  h.mono fun _ hl => (Bool.and_eq_true_iff.mp hl).2

theorem idle {p : CareProg α} (h : Calls calm p) : Calls Cases.idle p :=
  h.mono fun _ hl => (Bool.and_eq_true_iff.mp hl).1

theorem store {p : CareProg α} (h : Calls ofStore p) : Calls Cases.plain p :=
  h.mono fun _ => plain_of_store

theorem update {p : CareProg α} (h : Calls ofUpdate p) : Calls ofStore p :=
  h.mono fun _ hl => (Bool.and_eq_true_iff.mp hl).1

theorem assignment {p : CareProg α} (h : Calls ofAssignment p) : Calls ofUpdate p :=
  h.mono fun _ hl => (Bool.and_eq_true_iff.mp hl).1

theorem query {l : CareCall} {f : CareInput → CareState → β} (hl : S l = true) :
    Calls S (query l f) :=
  every_query fun _ _ _ => ⟨hl, .inl rfl⟩

theorem atomic {l : CareCall} {f : CareInput → CareState → Except Failure (β × CareState)}
    (hl : S l = true) (h : ∀ i s b s', f i s = .ok (b, s') → s' = s ∨ Writes l i.now s s') :
    Calls S (atomic l f) :=
  every_atomic (fun _ _ _ => ⟨hl, .inl rfl⟩) fun i s b s' _ hfail hf =>
    ⟨hl, (h i s b s' hf).imp_right fun hw => ⟨fun _ => hfail, hw⟩⟩

theorem bind {p : CareProg α} {f : α → CareProg β} (hp : Calls S p) (hf : ∀ a, Calls S (f a)) :
    Calls S (p.bind f) :=
  Prog.Every.bind hp hf

theorem queryBind {l : CareCall} {f : CareInput → CareState → β} {k : β → CareProg α}
    (hl : S l = true) (hk : ∀ b, Calls S (k b)) : Calls S ((ElectronicsCart.query l f).bind k) :=
  bind (query hl) hk

theorem orThrow (e : Failure) (o : Option α) : Calls S (Prog.orThrow e o) :=
  Prog.every_orThrow e o

theorem orThrowBind {e : Failure} {o : Option α} {k : α → CareProg β} (hk : ∀ a, Calls S (k a)) :
    Calls S ((Prog.orThrow e o).bind k) :=
  bind (orThrow e o) hk

theorem done (r : Except Failure α) : Calls S (.done r) := trivial

theorem reading {l : CareCall} {f : CareInput → CareState → Except Failure β × CareState}
    (hl : S l = true) (h : ∀ i s, (f i s).2 = s) : Calls S (Prog.call l f) :=
  Prog.every_call fun i s _ => ⟨hl, .inl (h i s)⟩

end Calls

/-! ### Idle programs -/

theorem calls_publish {event : CaseEvent} (h : S (.publish event) = true) :
    Calls S (publish event) :=
  Prog.every_call fun _ _ _ => ⟨h, .inr ⟨fun hf => (nomatch hf), rfl⟩⟩

theorem calls_publishIf {c : Bool} {event : CaseEvent} (h : S (.publish event) = true) :
    Calls S (CaseManager.publishIf c event) := by
  cases c with
  | true => exact calls_publish h
  | false => exact .done _

theorem calls_auditAppend {ref : CaseRef} {entry : CaseTimelineEntry} (hk : ref.kind ≠ .support)
    (h : S (.appendTimeline ref entry.type) = true) : Calls S (appendTimeline ref entry) :=
  .atomic h fun _ _ _ _ hw => .inr ⟨entry, rfl, .inl ⟨hk, hw⟩⟩

theorem calls_append {ref : CaseRef} {entry : CaseTimelineEntry}
    (h : S (.appendTimeline ref entry.type) = true) :
    Calls S ((getStore ref.kind).appendTimeline ref entry) := by
  cases hk : ref.kind
  case support =>
    refine Prog.every_call fun _ _ _ => ⟨h, .inr ⟨fun hf => ?_, entry, rfl, .inr ⟨hk, rfl⟩⟩⟩
    simp [fallible, hk] at hf
  all_goals exact calls_auditAppend (by rw [hk]; decide) h

theorem calls_jobLoad {l : CareCall} {ref : CaseRef} (h : S l = true) :
    Calls S (RepairJobStore.load l ref) := by
  refine .queryBind h fun found => ?_
  cases found with
  | none => exact .done _
  | some row => exact .queryBind h fun _ => .done _

theorem calls_load {kind : CaseKind} {ref : CaseRef} (h : S (.load ref) = true) :
    Calls S ((getStore kind).load ref) := by
  cases kind
  case repairJob => exact calls_jobLoad h
  case support => exact .reading h fun _ _ => rfl
  all_goals exact .query h

theorem calls_require {ref : CaseRef} (h : S (.load ref) = true) :
    Calls S (CaseManager.require ref) :=
  (calls_load h).bind fun _ => .orThrow _ _

theorem calls_settled {ref : CaseRef} {o : Option CaseSnapshot} (h : S (.load ref) = true) :
    Calls S (CaseManager.settled ref o) := by
  cases o with
  | none => exact calls_require h
  | some snap => exact .done _

theorem calls_announce {ref : CaseRef} {current target : CaseStatus} {snap : CaseSnapshot} :
    Calls calm (CaseManager.announce ref current target snap) := by
  refine (calls_publish rfl).bind fun _ => ?_
  split
  · exact calls_publish rfl
  · exact .done _

theorem calls_recordOpened {ref : CaseRef} {snap : CaseSnapshot} :
    Calls calm (CaseManager.recordOpened ref snap) :=
  (calls_append rfl).bind fun _ => calls_publish rfl

theorem calls_repoAudit {links : AuditLinks} {action : String} {actorId : Option ℕ}
    {status : Option CaseStatus} : Calls calm (repoAudit links action actorId status) :=
  .atomic rfl fun _ _ _ _ h => .inr ⟨action, actorId, status, h⟩

theorem calls_enqueue {job : String} : Calls calm (enqueue job) :=
  .atomic rfl fun _ _ _ _ h => .inl (Prod.mk.inj (Except.ok.inj h)).2.symm

theorem calls_invalidateCache : Calls calm invalidateCache :=
  .atomic rfl fun _ _ _ _ h => .inl (Prod.mk.inj (Except.ok.inj h)).2.symm

/-! ### Writes of the stores -/

theorem calls_change {l : CareCall} {ref : CaseRef} {f : CareInput → CaseSnapshot → CaseSnapshot}
    (hl : S l = true) (hsafe : fallible l = false)
    (hf : ∀ i snap, snap.escalatedAt ≠ none → (f i snap).escalatedAt ≠ none)
    (hw : ∀ now s s', MemoryChange ref s s' → Writes l now s s') :
    Calls S (InMemoryCaseStore.change l ref f) := by
  refine Prog.every_call fun i s _ => ⟨hl, ?_⟩
  cases hs : s.memoryCases ref with
  | none => exact .inl rfl
  | some snap =>
    refine .inr ⟨fun h => ?_, hw _ _ _ ⟨snap, f i snap, hs, hf i snap, rfl⟩⟩
    rw [hsafe] at h
    cases h

theorem calls_claimHistory {ref : CaseRef} (h : S (.createHistory ref) = true) :
    Calls S (WarrantyClaimStore.createHistory ref) := by
  refine .atomic h fun _ s _ s' h => .inl ?_
  simp only [bind_eq_ok, check_eq_ok, pure_eq_ok, Prod.mk.injEq] at h
  obtain ⟨-, -, -, rfl⟩ := h
  rfl

theorem calls_ticketHistory {ref : CaseRef} {fromStatus : Option CaseStatus} {toStatus : CaseStatus}
    {notes : Option String} {actorId : Option ℕ} (hk : ref.kind = .serviceTicket)
    (h : S (.createHistory ref) = true) :
    Calls S (ServiceTicketStore.createHistory ref (.createHistory ref) fromStatus toStatus notes
      actorId) := by
  refine .atomic h fun _ s _ s' h => .inr ?_
  simp only [bind_eq_ok, check_eq_ok, pure_eq_ok, Prod.mk.injEq] at h
  obtain ⟨-, -, -, rfl⟩ := h
  exact ⟨hk, _, _, fun _ => ⟨⟨rfl, rfl, rfl⟩, trivial⟩, rfl⟩

theorem calls_saveStatus {ref : CaseRef} {status : CaseStatus} {actorId : Option ℕ} :
    Calls ofStore ((getStore ref.kind).saveStatus ref status actorId) := by
  obtain ⟨kind, id⟩ := ref
  cases kind
  case warrantyClaim =>
    refine .queryBind rfl fun _ => .orThrowBind fun current => ?_
    refine .bind (.atomic rfl fun _ _ _ _ h => .inr ⟨current, h⟩) fun _ => ?_
    exact (calls_claimHistory rfl).bind fun _ => .query rfl
  case rma =>
    refine .queryBind rfl fun _ => .orThrowBind fun current => ?_
    refine .bind (.atomic rfl fun _ _ _ _ h => .inr ⟨current, h⟩) fun _ => ?_
    exact (calls_auditAppend (by simp) rfl).bind fun _ => .query rfl
  case serviceTicket =>
    refine .queryBind rfl fun _ => .orThrowBind fun current => ?_
    refine .bind (.atomic rfl fun _ _ _ _ h => .inr ⟨current, h⟩) fun _ => ?_
    exact (calls_ticketHistory rfl rfl).bind fun _ => .query rfl
  case repairJob =>
    refine (calls_jobLoad rfl).bind fun _ => ?_
    refine .bind (.atomic rfl fun _ _ _ _ h => .inr ⟨actorId, h⟩) fun _ => ?_
    refine .bind (.atomic rfl fun _ _ _ _ h => .inr h) fun _ => ?_
    exact (calls_auditAppend (by simp) rfl).bind fun _ => calls_jobLoad rfl
  case support => exact calls_change rfl rfl (fun _ _ h => h) fun _ _ _ h => h

theorem calls_assign {ref : CaseRef} {assigneeId : ℕ} {actorId : Option ℕ} :
    Calls ofAssignment ((getStore ref.kind).assign ref assigneeId actorId) := by
  obtain ⟨kind, id⟩ := ref
  cases kind
  case warrantyClaim => exact (calls_auditAppend (by simp) rfl).bind fun _ => .query rfl
  case rma => exact (calls_auditAppend (by simp) rfl).bind fun _ => .query rfl
  case serviceTicket =>
    refine .bind (.atomic rfl fun _ _ _ _ h => .inr h) fun _ => ?_
    exact (calls_auditAppend (by simp) rfl).bind fun _ => .query rfl
  case repairJob =>
    refine .bind (.atomic rfl fun _ _ _ _ h => .inr h) fun _ => ?_
    refine .bind (.atomic rfl fun _ _ _ _ h => .inr ⟨actorId, h⟩) fun _ => ?_
    exact (calls_auditAppend (by simp) rfl).bind fun _ => calls_jobLoad rfl
  case support => exact calls_change rfl rfl (fun _ _ h => h) fun _ _ _ h => h

theorem calls_setPriority {ref : CaseRef} {priority : CasePriority} {actorId : Option ℕ} :
    Calls ofUpdate ((getStore ref.kind).setPriority ref priority actorId) := by
  obtain ⟨kind, id⟩ := ref
  cases kind
  case warrantyClaim =>
    exact (calls_auditAppend (by simp) rfl).bind fun _ => .queryBind rfl fun _ => .done _
  case rma =>
    exact (calls_auditAppend (by simp) rfl).bind fun _ => .queryBind rfl fun _ => .done _
  case serviceTicket =>
    refine .bind (.atomic rfl fun _ _ _ _ h => .inr h) fun _ => ?_
    refine (calls_auditAppend (by simp) rfl).bind fun _ => .queryBind rfl fun _ => ?_
    exact .orThrowBind fun _ => .done _
  case repairJob =>
    refine (calls_auditAppend (by simp) rfl).bind fun _ => (calls_jobLoad rfl).bind fun _ => .done _
  case support => exact calls_change rfl rfl (fun _ _ h => h) fun _ _ _ h => h

/-! ### Requests of the manager -/

theorem calls_transition {ref : CaseRef} {target : CaseStatus} {actorId : Option ℕ}
    {reason : Option String} : Calls plain (CaseManager.transition ref target actorId reason) := by
  refine (calls_require rfl).bind fun current => Calls.bind ?_ fun result => ?_
  · refine Calls.bind trivial fun _ => ?_
    split
    · exact .done _
    · refine calls_saveStatus.store.bind fun _ => (calls_append rfl).bind fun _ => ?_
      exact (calls_publish rfl).bind fun _ => .done _
  · exact (calls_settled rfl).bind fun snap => calls_announce.idle.plain.bind fun _ => .done _

theorem calls_afterEscalation {ref : CaseRef} {opts : CaseManager.SlaOptions} {snap : CaseSnapshot}
    {reason : EscalationReason} :
    Calls plain (CaseManager.afterEscalation ref opts snap reason) := by
  unfold CaseManager.afterEscalation
  split
  · exact .done _
  · split
    · exact calls_transition
    · exact .done _

theorem calls_managerAssign {ref : CaseRef} {assigneeId : ℕ} {actorId : Option ℕ} :
    Calls plain (CaseManager.assign ref assigneeId actorId) := by
  refine calls_assign.assignment.update.store.bind fun _ => (calls_append rfl).bind fun _ =>
    .orThrowBind fun _ => ?_
  exact (calls_publish rfl).bind fun _ => .done _

theorem calls_managerSetPriority {ref : CaseRef} {priority : CasePriority} {actorId : Option ℕ} :
    Calls plain (CaseManager.setPriority ref priority actorId) :=
  calls_setPriority.update.store.bind fun _ => (calls_append rfl).bind fun _ => .done _

end ElectronicsCart.Cases
