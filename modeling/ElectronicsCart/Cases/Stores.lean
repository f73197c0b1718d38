import ElectronicsCart.Cases.State

/-!
# Case stores

`InMemoryCaseStore` and the four stores of `modules/warranty/stores`.  Each store is registered for
its own kind, so the guard `ref.kind !== …` of their `load` never fires.  The steps inside a method
of the in-memory store are one step here.
-/

namespace ElectronicsCart.Cases

open Interleaving Relational

/-- `load(…)!` answers `null` when the row is soft-deleted. -/
structure CaseStore where
  load : CaseRef → CareProg (Option CaseSnapshot)
  saveStatus : CaseRef → CaseStatus → Option ℕ → CareProg (Option CaseSnapshot)
  assign : CaseRef → ℕ → Option ℕ → CareProg (Option CaseSnapshot)
  setPriority : CaseRef → CasePriority → Option ℕ → CareProg (Option CaseSnapshot)
  addNote : CaseRef → CaseNoteInput → CareProg Unit
  addAttachment : CaseRef → CaseAttachmentMeta → CareProg Unit
  appendTimeline : CaseRef → CaseTimelineEntry → CareProg Unit
  listTimeline : CaseRef → CareProg (List CaseTimelineEntry)
  markEscalated : Option (CaseRef → ℕ → CareProg (Option CaseSnapshot))

def notFoundRow : Failure := .constraint "P2025"

/-! ### The audit log -/

/-- The foreign keys of a row; the one of a return stands in its metadata. -/
def caseExists (ref : CaseRef) (s : CareState) : Bool :=
  match ref.kind with
  | .warrantyClaim => (s.claims.find? ref.id).isSome
  | .serviceTicket => (s.tickets.find? ref.id).isSome
  | .repairJob => (s.jobs.find? ref.id).isSome
  | .rma => true
  | .support => true

def auditRow (ref : CaseRef) (action : AuditAction) (actorId : Option ℕ) (metadata : AuditMetadata)
    (now n : ℕ) : ServiceAuditLog where
  id := n
  ticketId := if ref.kind = .serviceTicket then some ref.id else none
  claimId := if ref.kind = .warrantyClaim then some ref.id else none
  repairJobId := if ref.kind = .repairJob then some ref.id else none
  action := action
  actorId := actorId
  metadata := metadata
  createdAt := now

def writeAudit (ref : CaseRef) (action : AuditAction) (actorId : Option ℕ) (metadata : AuditMetadata)
    (now : ℕ) (s : CareState) : Except Failure (Unit × CareState) := do
  check (caseExists ref s) "service_audit_logs_fkey"
  return ((), { s with audits := s.audits.insert (auditRow ref action actorId metadata now) })

def CaseTimelineEntry.stamped (entry : CaseTimelineEntry) (now : ℕ) : CaseTimelineEntry :=
  { entry with stamp := some (entry.stamp.getD now) }

/-- The metadata under which `appendTimeline` keeps an entry. -/
def entryMetadata (ref : CaseRef) (entry : CaseTimelineEntry) (now : ℕ) : AuditMetadata :=
  .entry (entry.stamped now) (if ref.kind = .rma then some ref.id else none)

/-- `appendTimeline` of the four stores over the audit log. -/
def appendTimeline (ref : CaseRef) (entry : CaseTimelineEntry) : CareProg Unit :=
  atomic (.appendTimeline ref entry.type) fun i s =>
    writeAudit ref (.case entry.type) entry.actorId (entryMetadata ref entry i.now) i.now s

/-- A row of the audit log as an entry: `meta.type ?? 'status_changed'` and the fields beside. -/
def auditEntry (r : ServiceAuditLog) : CaseTimelineEntry :=
  match r.metadata with
  | .entry e _ => { e with stamp := some r.createdAt, actorId := r.actorId }
  | _ => { stamp := some r.createdAt, type := .statusChanged, actorId := r.actorId }

/-! ### `WarrantyClaimStore` -/

namespace WarrantyClaimStore

def findRow (id : ℕ) (s : CareState) : Option WarrantyClaim :=
  (s.claims.find? id).filter fun r => !r.deleted

def snapshot (row : WarrantyClaim) : CaseSnapshot where
  kind := .warrantyClaim
  id := row.id
  number := some row.claimNumber
  status := row.status
  priority := normalPriority
  openedAt := row.submittedAt
  dueAt := some (computeDueAt row.submittedAt normalPriority (CASE_DEFINITIONS .warrantyClaim).sla)
  closedAt := row.resolvedAt

def load (l : CareCall) (ref : CaseRef) : CareProg (Option CaseSnapshot) :=
  query l fun _ s => (findRow ref.id s).map snapshot

/-- The columns that `saveStatus` sets; `current` is the row it read. -/
def save (current : WarrantyClaim) (status : CaseStatus) (now : ℕ) (r : WarrantyClaim) :
    WarrantyClaim := { r with
  status := status
  resolvedAt := if [CaseStatus.closed, .rejected, .cancelled].contains status then some now
    else current.resolvedAt }

@[simp] theorem key_save (current : WarrantyClaim) (status : CaseStatus) (now : ℕ)
    (r : WarrantyClaim) : key (save current status now r) = key r := rfl

def writeStatus (current : WarrantyClaim) (id : ℕ) (status : CaseStatus) (now : ℕ) (s : CareState) :
    Except Failure (Unit × CareState) := do
  let _ ← existing s.claims id
  return ((), { s with
    claims := s.claims.update id (save current status now) (key_save current status now) })

def createHistory (ref : CaseRef) : CareProg Unit :=
  atomic (.createHistory ref) fun _ s => do
    check (caseExists ref s) "warranty_status_history_claim_id_fkey"
    return ((), s)

def saveStatus (ref : CaseRef) (status : CaseStatus) (_actorId : Option ℕ) :
    CareProg (Option CaseSnapshot) := do
  let found ← query (.findCurrent ref) fun _ s => s.claims.find? ref.id
  let current ← Prog.orThrow notFoundRow found
  atomic (.saveStatus ref status) fun i s => writeStatus current ref.id status i.now s
  createHistory ref
  load (.saved ref) ref

def assign (ref : CaseRef) (assigneeId : ℕ) (actorId : Option ℕ) :
    CareProg (Option CaseSnapshot) := do
  appendTimeline ref
    { type := .assigned, actorId, message := some ("Assigned " ++ toString assigneeId)
      metadata := some (.assignee assigneeId) }
  load (.reload ref) ref

/-- The priority is the one that was asked for, whatever the store holds. -/
def setPriority (ref : CaseRef) (priority : CasePriority) (actorId : Option ℕ) :
    CareProg (Option CaseSnapshot) := do
  appendTimeline ref
    { type := .priorityChanged, actorId, message := some ("P" ++ toString priority.val)
      metadata := some (.priority priority) }
  let snap ← load (.reload ref) ref
  return snap.map fun c => { c with priority }

def addNote (ref : CaseRef) (note : CaseNoteInput) : CareProg Unit := do
  let snap ← load (.reload ref) ref
  let _ ← Prog.orThrow (.error "Cannot read properties of null (reading 'status')") snap
  atomic (.addNote ref note) fun _ s => do
    check (caseExists ref s) "warranty_status_history_claim_id_fkey"
    return ((), s)

def addAttachment (ref : CaseRef) (_file : CaseAttachmentMeta) : CareProg Unit :=
  atomic (.addAttachment ref) fun _ s => do
    check (caseExists ref s) "claim_documents_claim_id_fkey"
    return ((), s)

def listTimeline (ref : CaseRef) : CareProg (List CaseTimelineEntry) :=
  query (.listTimeline ref) fun i s =>
    (auditRows (fun r => r.claimId == some ref.id) i.rank s).map auditEntry

end WarrantyClaimStore

def warrantyClaimStore : CaseStore where
  load ref := WarrantyClaimStore.load (.load ref) ref
  saveStatus := WarrantyClaimStore.saveStatus
  assign := WarrantyClaimStore.assign
  setPriority := WarrantyClaimStore.setPriority
  addNote := WarrantyClaimStore.addNote
  addAttachment := WarrantyClaimStore.addAttachment
  appendTimeline := appendTimeline
  listTimeline := WarrantyClaimStore.listTimeline
  markEscalated := none

/-! ### `RmaStore` -/

namespace RmaStore

def findRow (id : ℕ) (s : CareState) : Option RmaRequest :=
  (s.rmas.find? id).filter fun r => !r.deleted

def snapshot (row : RmaRequest) : CaseSnapshot where
  kind := .rma
  id := row.id
  number := some row.rmaNumber
  status := row.status
  priority := normalPriority
  openedAt := row.requestedAt
  dueAt := some (computeDueAt row.requestedAt normalPriority (CASE_DEFINITIONS .rma).sla)
  closedAt := row.completedAt

def load (l : CareCall) (ref : CaseRef) : CareProg (Option CaseSnapshot) :=
  query l fun _ s => (findRow ref.id s).map snapshot

def save (current : RmaRequest) (status : CaseStatus) (now : ℕ) (r : RmaRequest) : RmaRequest := { r with
  status := status
  completedAt := if [CaseStatus.completed, .rejected, .cancelled].contains status then some now
    else current.completedAt }

@[simp] theorem key_save (current : RmaRequest) (status : CaseStatus) (now : ℕ) (r : RmaRequest) :
    key (save current status now r) = key r := rfl

def writeStatus (current : RmaRequest) (id : ℕ) (status : CaseStatus) (now : ℕ) (s : CareState) :
    Except Failure (Unit × CareState) := do
  let _ ← existing s.rmas id
  return ((), { s with
    rmas := s.rmas.update id (save current status now) (key_save current status now) })

/-- The store appends an entry of its own for the change. -/
def saveStatus (ref : CaseRef) (status : CaseStatus) (actorId : Option ℕ) :
    CareProg (Option CaseSnapshot) := do
  let found ← query (.findCurrent ref) fun _ s => s.rmas.find? ref.id
  let current ← Prog.orThrow notFoundRow found
  atomic (.saveStatus ref status) fun i s => writeStatus current ref.id status i.now s
  appendTimeline ref
    { type := .statusChanged, actorId, fromStatus := some current.status, toStatus := some status }
  load (.saved ref) ref

def assign (ref : CaseRef) (assigneeId : ℕ) (actorId : Option ℕ) :
    CareProg (Option CaseSnapshot) := do
  appendTimeline ref
    { type := .assigned, actorId, message := some ("Assigned " ++ toString assigneeId)
      metadata := some (.assignee assigneeId) }
  load (.reload ref) ref

def setPriority (ref : CaseRef) (priority : CasePriority) (actorId : Option ℕ) :
    CareProg (Option CaseSnapshot) := do
  appendTimeline ref
    { type := .priorityChanged, actorId, metadata := some (.priority priority) }
  let snap ← load (.reload ref) ref
  return snap.map fun c => { c with priority }

def addNote (ref : CaseRef) (note : CaseNoteInput) : CareProg Unit :=
  atomic (.addNote ref note) fun i s =>
    writeAudit ref (.domain "rma.note") note.actorId (.rmaNote ref.id note.body) i.now s

/-- A row of `service_documents` needs a ticket or a claim, and this one has neither. -/
def addAttachment (ref : CaseRef) (_file : CaseAttachmentMeta) : CareProg Unit :=
  atomic (.addAttachment ref) fun _ _ => .error (.constraint "chk_service_documents_target")

def isCaseAction : AuditAction → Bool
  | .case _ => true
  | .caseStatus => true
  | .domain _ => false

/-- `metadata.rmaId === ref.id`. -/
def concerns (id : ℕ) (r : ServiceAuditLog) : Bool :=
  match r.metadata with
  | .entry _ rmaId => rmaId == some id
  | .rmaNote rmaId _ => rmaId == id
  | _ => false

/-- The first two hundred rows of all cases, and of these the ones of the return. -/
def listTimeline (ref : CaseRef) : CareProg (List CaseTimelineEntry) :=
  query (.listTimeline ref) fun i s =>
    (((auditRows (fun r => isCaseAction r.action) i.rank s).take 200).filter (concerns ref.id)).map
      fun r => { auditEntry r with metadata := none }

end RmaStore

def rmaStore : CaseStore where
  load ref := RmaStore.load (.load ref) ref
  saveStatus := RmaStore.saveStatus
  assign := RmaStore.assign
  setPriority := RmaStore.setPriority
  addNote := RmaStore.addNote
  addAttachment := RmaStore.addAttachment
  appendTimeline := appendTimeline
  listTimeline := RmaStore.listTimeline
  markEscalated := none

/-! ### `ServiceTicketStore` -/

namespace ServiceTicketStore

def findRow (id : ℕ) (s : CareState) : Option ServiceTicket :=
  (s.tickets.find? id).filter fun r => !r.deleted

def clampPriority (p : ℤ) : CasePriority :=
  if _hlow : p ≤ 1 then ⟨1, by omega⟩
  else if _hhigh : 5 ≤ p then ⟨5, by omega⟩
  else ⟨p.toNat, by omega⟩

/-- `{ ...def.sla, ...sla }`. -/
def policy (sla : Option ServiceSla) : CaseSlaPolicy :=
  let base := (CASE_DEFINITIONS .serviceTicket).sla
  match sla with
  | some row => { base with
      responseMinutes := row.responseTimeMinutes, resolveMinutes := row.resolutionTimeMinutes }
  | none => base

def snapshot (sla : Option ServiceSla) (row : ServiceTicket) : CaseSnapshot where
  kind := .serviceTicket
  id := row.id
  number := some row.ticketNumber
  status := row.status
  assigneeId := row.technicianId
  priority := clampPriority row.priority
  openedAt := row.openedAt
  dueAt := some (computeDueAt row.openedAt (clampPriority row.priority) (policy sla))
  closedAt := row.closedAt

def load (l : CareCall) (ref : CaseRef) : CareProg (Option CaseSnapshot) :=
  query l fun _ s => (findRow ref.id s).map fun row =>
    snapshot (row.serviceSlaId.bind s.slas.find?) row

def save (current : ServiceTicket) (status : CaseStatus) (now : ℕ) (r : ServiceTicket) :
    ServiceTicket := { r with
  status := status
  closedAt := if [CaseStatus.closed, .cancelled].contains status then some now
    else current.closedAt }

@[simp] theorem key_save (current : ServiceTicket) (status : CaseStatus) (now : ℕ)
    (r : ServiceTicket) : key (save current status now r) = key r := rfl

def writeStatus (current : ServiceTicket) (id : ℕ) (status : CaseStatus) (now : ℕ) (s : CareState) :
    Except Failure (Unit × CareState) := do
  let _ ← existing s.tickets id
  return ((), { s with
    tickets := s.tickets.update id (save current status now) (key_save current status now) })

def createHistory (ref : CaseRef) (l : CareCall) (fromStatus : Option CaseStatus)
    (toStatus : CaseStatus) (notes : Option String) (actorId : Option ℕ) : CareProg Unit :=
  atomic l fun i s => do
    check (caseExists ref s) "ticket_status_history_ticket_id_fkey"
    return ((), { s with ticketHistory := s.ticketHistory.insert fun n =>
      { id := n, ticketId := ref.id, fromStatus, toStatus, notes, actorId, changedAt := i.now } })

def saveStatus (ref : CaseRef) (status : CaseStatus) (actorId : Option ℕ) :
    CareProg (Option CaseSnapshot) := do
  let found ← query (.findCurrent ref) fun _ s => s.tickets.find? ref.id
  let current ← Prog.orThrow notFoundRow found
  atomic (.saveStatus ref status) fun i s => writeStatus current ref.id status i.now s
  createHistory ref (.createHistory ref) (some current.status) status none actorId
  load (.saved ref) ref

/-- The columns that `assign` sets, the status among them. -/
def assignTo (assigneeId now : ℕ) (r : ServiceTicket) : ServiceTicket := { r with
  technicianId := some assigneeId
  assignedAt := some now
  status := .assigned }

@[simp] theorem key_assignTo (assigneeId now : ℕ) (r : ServiceTicket) :
    key (assignTo assigneeId now r) = key r := rfl

def writeAssign (id assigneeId now : ℕ) (s : CareState) : Except Failure (Unit × CareState) := do
  let _ ← existing s.tickets id
  check (s.technicians.find? assigneeId).isSome "service_tickets_technician_id_fkey"
  return ((), { s with
    tickets := s.tickets.update id (assignTo assigneeId now) (key_assignTo assigneeId now) })

def assign (ref : CaseRef) (assigneeId : ℕ) (actorId : Option ℕ) :
    CareProg (Option CaseSnapshot) := do
  atomic (.assign ref assigneeId) fun i s => writeAssign ref.id assigneeId i.now s
  appendTimeline ref
    { type := .assigned, actorId, message := some ("Technician " ++ toString assigneeId)
      toStatus := some .assigned }
  load (.reload ref) ref

def writePriority (id : ℕ) (priority : CasePriority) (s : CareState) :
    Except Failure (Unit × CareState) := do
  let _ ← existing s.tickets id
  return ((), { s with
    tickets := s.tickets.update id fun r => { r with priority := priority.val } })

/-- Of a deleted ticket there is no `dueAt` to hand on. -/
def setPriority (ref : CaseRef) (priority : CasePriority) (actorId : Option ℕ) :
    CareProg (Option CaseSnapshot) := do
  atomic (.setPriority ref priority) fun _ s => writePriority ref.id priority s
  appendTimeline ref
    { type := .priorityChanged, actorId, metadata := some (.priority priority) }
  let snap ← load (.reload ref) ref
  let found ← Prog.orThrow (.error "Cannot read properties of null (reading 'dueAt')") snap
  return some found

def addNote (ref : CaseRef) (note : CaseNoteInput) : CareProg Unit := do
  let snap ← load (.reload ref) ref
  let current ← Prog.orThrow (.error "Cannot read properties of null (reading 'status')") snap
  createHistory ref (.addNote ref note) none current.status (some note.body) note.actorId

def addAttachment (ref : CaseRef) (_file : CaseAttachmentMeta) : CareProg Unit :=
  atomic (.addAttachment ref) fun _ s => do
    check (caseExists ref s) "service_documents_ticket_id_fkey"
    return ((), s)

/-- `ORDER BY changed_at`. -/
def Earlier (rank : ℕ → ℕ) (a b : TicketStatusHistory) : Prop :=
  a.changedAt < b.changedAt ∨ a.changedAt = b.changedAt ∧ rank a.id ≤ rank b.id

instance (rank : ℕ → ℕ) : DecidableRel (Earlier rank) :=
  fun _ _ => inferInstanceAs (Decidable (_ ∨ _))

def historyRows (id : ℕ) (rank : ℕ → ℕ) (s : CareState) : List TicketStatusHistory :=
  (s.ticketHistory.rows.filter fun r => r.ticketId == id && !r.deleted).insertionSort (Earlier rank)

/-- A row with a note and no earlier status is a note, any other one a change. -/
def historyEntry (h : TicketStatusHistory) : CaseTimelineEntry where
  stamp := some h.changedAt
  type := if (truthy h.notes).isSome && h.fromStatus.isNone then .note else .statusChanged
  actorId := h.actorId
  message := h.notes
  fromStatus := h.fromStatus
  toStatus := some h.toStatus

def listTimeline (ref : CaseRef) : CareProg (List CaseTimelineEntry) := do
  let audits ← query (.listTimeline ref) fun i s =>
    auditRows (fun r => r.ticketId == some ref.id) i.rank s
  let history ← query (.listHistory ref.id) fun i s => historyRows ref.id i.rank s
  let fromHistory := history.map historyEntry
  let fromAudit := audits.map fun r => { auditEntry r with metadata := none }
  return (fromHistory ++ fromAudit).insertionSort fun a b => a.stamp.getD 0 ≤ b.stamp.getD 0

end ServiceTicketStore

def serviceTicketStore : CaseStore where
  load ref := ServiceTicketStore.load (.load ref) ref
  saveStatus := ServiceTicketStore.saveStatus
  assign := ServiceTicketStore.assign
  setPriority := ServiceTicketStore.setPriority
  addNote := ServiceTicketStore.addNote
  addAttachment := ServiceTicketStore.addAttachment
  appendTimeline := appendTimeline
  listTimeline := ServiceTicketStore.listTimeline
  markEscalated := none

/-! ### `RepairJobStore` -/

namespace RepairJobStore

def findRow (id : ℕ) (s : CareState) : Option RepairJob :=
  (s.jobs.find? id).filter fun r => !r.deleted

def isStatusRow (jobId : ℕ) (r : ServiceAuditLog) : Bool :=
  r.repairJobId == some jobId && r.action == .caseStatus

/-- `metadata.status`. -/
def rowStatus (r : ServiceAuditLog) : Option CaseStatus :=
  match r.metadata with
  | .status status => some status
  | .payload status => status
  | _ => none

/-- `findFirst` with `orderBy: { created_at: 'desc' }`. -/
def readCaseStatus (jobId : ℕ) (rank : ℕ → ℕ) (s : CareState) : CaseStatus :=
  (((auditRows (isStatusRow jobId) rank s).getLast?).bind rowStatus).getD .open

def snapshot (row : RepairJob) (status : CaseStatus) : CaseSnapshot :=
  let openedAt := row.startedAt.getD row.createdAt
  { kind := .repairJob
    id := row.id
    number := some row.repairNumber
    status
    assigneeId := row.technicianId
    priority := normalPriority
    openedAt
    dueAt := some (computeDueAt openedAt normalPriority (CASE_DEFINITIONS .repairJob).sla)
    closedAt := row.completedAt
    outcome := some row.outcome }

def load (l : CareCall) (ref : CaseRef) : CareProg (Option CaseSnapshot) := do
  let found ← query l fun _ s => findRow ref.id s
  match found with
  | none => return none
  | some row => do
    let status ← query l fun i s => readCaseStatus ref.id i.rank s
    return some (snapshot row status)

def outcomeOf (status : CaseStatus) : Option RepairOutcome :=
  if status = .closed ∨ status = .resolved ∨ status = .completed then some .repaired
  else if status = .cancelled then some .customerDeclined
  else none

def close (status : CaseStatus) (now : ℕ) (r : RepairJob) : RepairJob := { r with
  outcome := (outcomeOf status).getD r.outcome
  completedAt := if (outcomeOf status).isSome then some now else r.completedAt
  startedAt := if status = .inProgress ∨ status = .repairing then some now else r.startedAt }

@[simp] theorem key_close (status : CaseStatus) (now : ℕ) (r : RepairJob) :
    key (close status now r) = key r := rfl

def writeClose (id : ℕ) (status : CaseStatus) (now : ℕ) (s : CareState) :
    Except Failure (Unit × CareState) := do
  let _ ← existing s.jobs id
  return ((), { s with jobs := s.jobs.update id (close status now) (key_close status now) })

def saveStatus (ref : CaseRef) (status : CaseStatus) (actorId : Option ℕ) :
    CareProg (Option CaseSnapshot) := do
  let current ← load (.findCurrent ref) ref
  atomic (.saveStatus ref status) fun i s =>
    writeAudit ref .caseStatus actorId (.status status) i.now s
  atomic (.closeJob ref.id status) fun i s => writeClose ref.id status i.now s
  appendTimeline ref
    { type := .statusChanged, actorId, fromStatus := current.map CaseSnapshot.status
      toStatus := some status }
  load (.saved ref) ref

def writeTechnician (id assigneeId : ℕ) (s : CareState) : Except Failure (Unit × CareState) := do
  let _ ← existing s.jobs id
  check (s.technicians.find? assigneeId).isSome "repair_jobs_technician_id_fkey"
  return ((), { s with jobs := s.jobs.update id fun r => { r with technicianId := some assigneeId } })

/-- The job is `assigned` afterwards, whatever its status was. -/
def assign (ref : CaseRef) (assigneeId : ℕ) (actorId : Option ℕ) :
    CareProg (Option CaseSnapshot) := do
  atomic (.assign ref assigneeId) fun _ s => writeTechnician ref.id assigneeId s
  atomic (.markAssigned ref.id) fun i s =>
    writeAudit ref .caseStatus actorId (.status .assigned) i.now s
  appendTimeline ref
    { type := .assigned, actorId, message := some (toString assigneeId), toStatus := some .assigned }
  load (.reload ref) ref

def setPriority (ref : CaseRef) (priority : CasePriority) (actorId : Option ℕ) :
    CareProg (Option CaseSnapshot) := do
  appendTimeline ref
    { type := .priorityChanged, actorId, metadata := some (.priority priority) }
  let snap ← load (.reload ref) ref
  return snap.map fun c => { c with priority }

/-- `[…].filter(Boolean).join('\n---\n')`. -/
def joinNotes (notes : Option String) (body : String) : String :=
  "\n---\n".intercalate ((truthy notes).toList ++ (truthy (some body)).toList)

def writeNote (id : ℕ) (notes : String) (s : CareState) : Except Failure (Unit × CareState) := do
  let _ ← existing s.jobs id
  return ((), { s with jobs := s.jobs.update id fun r => { r with repairNotes := some notes } })

def addNote (ref : CaseRef) (note : CaseNoteInput) : CareProg Unit := do
  let found ← query (.findCurrent ref) fun _ s => s.jobs.find? ref.id
  let job ← Prog.orThrow notFoundRow found
  atomic (.addNote ref note) fun _ s => writeNote ref.id (joinNotes job.repairNotes note.body) s

/-- The document hangs on the ticket of the job. -/
def addAttachment (ref : CaseRef) (_file : CaseAttachmentMeta) : CareProg Unit := do
  let found ← query (.findCurrent ref) fun _ s => s.jobs.find? ref.id
  atomic (.addAttachment ref) fun _ s => do
    check found.isSome "chk_service_documents_target"
    return ((), s)

def listTimeline (ref : CaseRef) : CareProg (List CaseTimelineEntry) :=
  query (.listTimeline ref) fun i s =>
    (auditRows (fun r => r.repairJobId == some ref.id) i.rank s).map fun r =>
      { auditEntry r with toStatus := (auditEntry r).toStatus.or (rowStatus r), metadata := none }

end RepairJobStore

def repairJobStore : CaseStore where
  load ref := RepairJobStore.load (.load ref) ref
  saveStatus := RepairJobStore.saveStatus
  assign := RepairJobStore.assign
  setPriority := RepairJobStore.setPriority
  addNote := RepairJobStore.addNote
  addAttachment := RepairJobStore.addAttachment
  appendTimeline := appendTimeline
  listTimeline := RepairJobStore.listTimeline
  markEscalated := none

/-! ### `InMemoryCaseStore` -/

namespace InMemoryCaseStore

def load (ref : CaseRef) : CareProg (Option CaseSnapshot) :=
  Prog.call (.load ref) fun _ s => (.ok (s.memoryCases ref), s)

def caseNotFound (ref : CaseRef) : Failure :=
  .error ("Case not found " ++ ref.kind.text ++ ":" ++ toString ref.id)

/-- `open`, which starts the timeline anew. -/
def openCase (ref : CaseRef) (priority : Option CasePriority) (assigneeId : Option ℕ)
    (status : CaseStatus) : CareProg CaseSnapshot :=
  Prog.call (.openCase ref) fun i s =>
    let p := priority.getD normalPriority
    let snap : CaseSnapshot :=
      { kind := ref.kind, id := ref.id, status, assigneeId, priority := p, openedAt := i.now
        dueAt := some (computeDueAt i.now p (CASE_DEFINITIONS ref.kind).sla) }
    let first : CaseTimelineEntry :=
      { stamp := some i.now, type := .created, message := some "Case opened"
        toStatus := some status }
    (.ok snap, { s with
      memoryCases := Function.update s.memoryCases ref (some snap)
      memoryTimelines := Function.update s.memoryTimelines ref [first] })

/-- `require`, and the changed copy put back. -/
def change (l : CareCall) (ref : CaseRef) (f : CareInput → CaseSnapshot → CaseSnapshot) :
    CareProg (Option CaseSnapshot) :=
  Prog.call l fun i s =>
    match s.memoryCases ref with
    | none => (.error (caseNotFound ref), s)
    | some snap =>
      (.ok (some (f i snap)),
        { s with memoryCases := Function.update s.memoryCases ref (some (f i snap)) })

def saveStatus (ref : CaseRef) (status : CaseStatus) (_actorId : Option ℕ) :
    CareProg (Option CaseSnapshot) :=
  change (.saveStatus ref status) ref fun i snap => { snap with
    status
    closedAt := if (CASE_DEFINITIONS ref.kind).terminalStatuses.contains status then some i.now
      else snap.closedAt }

def assign (ref : CaseRef) (assigneeId : ℕ) (_actorId : Option ℕ) : CareProg (Option CaseSnapshot) :=
  change (.assign ref assigneeId) ref fun _ snap => { snap with assigneeId := some assigneeId }

def setPriority (ref : CaseRef) (priority : CasePriority) (_actorId : Option ℕ) :
    CareProg (Option CaseSnapshot) :=
  change (.setPriority ref priority) ref fun _ snap => { snap with
    priority
    dueAt := some (computeDueAt snap.openedAt priority (CASE_DEFINITIONS ref.kind).sla) }

/-- No modelled function reads the notes and the attachments. -/
def addNote (ref : CaseRef) (note : CaseNoteInput) : CareProg Unit :=
  Prog.call (.addNote ref note) fun _ s => (.ok (), s)

def addAttachment (ref : CaseRef) (_file : CaseAttachmentMeta) : CareProg Unit :=
  Prog.call (.addAttachment ref) fun _ s => (.ok (), s)

def appendTimeline (ref : CaseRef) (entry : CaseTimelineEntry) : CareProg Unit :=
  Prog.call (.appendTimeline ref entry.type) fun i s =>
    let list := s.memoryTimelines ref ++ [entry.stamped i.now]
    (.ok (), { s with memoryTimelines := Function.update s.memoryTimelines ref list })

def listTimeline (ref : CaseRef) : CareProg (List CaseTimelineEntry) :=
  Prog.call (.listTimeline ref) fun _ s => (.ok (s.memoryTimelines ref), s)

def markEscalated (ref : CaseRef) (now : ℕ) : CareProg (Option CaseSnapshot) :=
  change (.markEscalated ref) ref fun _ snap => { snap with escalatedAt := some now }

end InMemoryCaseStore

def inMemoryCaseStore : CaseStore where
  load := InMemoryCaseStore.load
  saveStatus := InMemoryCaseStore.saveStatus
  assign := InMemoryCaseStore.assign
  setPriority := InMemoryCaseStore.setPriority
  addNote := InMemoryCaseStore.addNote
  addAttachment := InMemoryCaseStore.addAttachment
  appendTimeline := InMemoryCaseStore.appendTimeline
  listTimeline := InMemoryCaseStore.listTimeline
  markEscalated := some InMemoryCaseStore.markEscalated

/-- The stores as the modules register them. -/
def getStore : CaseKind → CaseStore
  | .warrantyClaim => warrantyClaimStore
  | .rma => rmaStore
  | .serviceTicket => serviceTicketStore
  | .repairJob => repairJobStore
  | .support => inMemoryCaseStore

end ElectronicsCart.Cases
