import ElectronicsCart.Cases.Manager
import ElectronicsCart.Core.Lock

/-!
# Tickets and repairs

The methods of `modules/warranty/services/service-ops.service.ts` that write a ticket or a repair
job.  Spare parts, loan devices and the lists are left out.
-/

namespace ElectronicsCart.Cases

open Interleaving Relational

/-- The links of a row that a service writes with `repo.audit`. -/
def writeServiceAudit (links : AuditLinks) (action : String) (actorId : Option ℕ)
    (status : Option CaseStatus) (now : ℕ) (s : CareState) : Except Failure (Unit × CareState) := do
  check (links.ticketId.all fun id => (s.tickets.find? id).isSome) "service_audit_logs_ticket_id_fkey"
  check (links.claimId.all fun id => (s.claims.find? id).isSome) "service_audit_logs_claim_id_fkey"
  check (links.repairJobId.all fun id => (s.jobs.find? id).isSome)
    "service_audit_logs_repair_job_id_fkey"
  return ((), { s with audits := s.audits.insert fun n =>
    { id := n, ticketId := links.ticketId, claimId := links.claimId
      repairJobId := links.repairJobId, action := .domain action, actorId
      metadata := .payload status, createdAt := now } })

/-- `WarrantyRepository.audit`; of the metadata only a `status` is read again. -/
def repoAudit (links : AuditLinks) (action : String) (actorId : Option ℕ)
    (status : Option CaseStatus) : CareProg Unit :=
  atomic (.audit links) fun i s => writeServiceAudit links action actorId status i.now s

def enqueue (job : String) : CareProg Unit := atomic (.enqueue job) fun _ s => .ok ((), s)

def invalidateCache : CareProg Unit := atomic .invalidate fun _ s => .ok ((), s)

namespace ServiceOpsService

structure CreateTicketDto where
  serviceCenterId : ℕ
  serialNumberId : Option ℕ := none
  priority : Option ℤ := none
deriving DecidableEq, Repr

def findCenter (id : ℕ) : CareProg (Option ServiceCenter) :=
  query .findCenter fun _ s => (s.centers.find? id).filter fun r => !r.deleted

/-- The number is made of the time, and unique among the tickets that are not deleted. -/
def insertTicket (customerId : ℕ) (dto : CreateTicketDto) (now : ℕ) (s : CareState) :
    Except Failure (ServiceTicket × CareState) := do
  let priority := dto.priority.getD 3
  check (decide (1 ≤ priority ∧ priority ≤ 5)) "service_tickets_priority_check"
  check (!(s.tickets.rows.any fun r => r.ticketNumber == now && !r.deleted))
    "uq_service_tickets_number_active"
  let mk (n : ℕ) : ServiceTicket :=
    { id := n, ticketNumber := now, customerId := some customerId
      serviceCenterId := dto.serviceCenterId, serialNumberId := dto.serialNumberId
      status := .created, priority, openedAt := now }
  return (mk s.tickets.next, { s with tickets := s.tickets.insert mk })

def createTicket (customerId : ℕ) (dto : CreateTicketDto) : CareProg Unit := do
  let center ← findCenter dto.serviceCenterId
  let _ ← Prog.orThrow (.throwApp .notFound "Service center not found" 404) center
  let ticket ← atomic .createTicket fun i s => insertTicket customerId dto i.now s
  CaseManager.recordOpened ⟨.serviceTicket, ticket.id⟩
    { kind := .serviceTicket, id := ticket.id, number := some ticket.ticketNumber, status := .created
      priority := ServiceTicketStore.clampPriority ticket.priority, openedAt := ticket.openedAt }
  publish (.domain "service.ticket.created" ticket.id)
  enqueue "warranty.tech.assign"
  repoAudit { ticketId := some ticket.id } "service.ticket.create" (some customerId) none

def findTicket (id : ℕ) : CareProg (Option ServiceTicket) :=
  query (.findTicket id) fun _ s => ServiceTicketStore.findRow id s

def ticketNotFound : Failure := .throwApp .notFound "Ticket not found" 404

/-- `!tech || !tech.is_available`. -/
def findTechnician (id : ℕ) : CareProg (Option Technician) :=
  query .findTechnician fun _ s =>
    (s.technicians.find? id).filter fun r => r.active && !r.deleted && r.isAvailable

def assignTechnician (token actorId ticketId technicianId : ℕ) : CareProg Unit :=
  LockService.withLock (CareLock.assign ticketId) token do
    let tech ← findTechnician technicianId
    let _ ← Prog.orThrow (.throwApp .conflict "Technician unavailable" 409) tech
    let found ← findTicket ticketId
    let ticket ← Prog.orThrow ticketNotFound found
    if ticket.status = .created then do
      let _ ← CaseManager.transition ⟨.serviceTicket, ticketId⟩ .assigned (some actorId) none
    else pure ()
    let _ ← CaseManager.assign ⟨.serviceTicket, ticketId⟩ technicianId (some actorId)
    repoAudit { ticketId := some ticketId } "service.assign" (some actorId) none
    invalidateCache

/-! ### Repair jobs -/

structure CreateRepairJobDto where
  ticketId : ℕ
  technicianId : Option ℕ := none
  laborCost : Option ℚ := none
deriving DecidableEq, Repr

def insertJob (dto : CreateRepairJobDto) (technicianId : Option ℕ) (now : ℕ) (s : CareState) :
    Except Failure (RepairJob × CareState) := do
  check (decide (0 ≤ dto.laborCost.getD 0)) "repair_jobs_labor_cost_check"
  check (technicianId.all fun id => (s.technicians.find? id).isSome)
    "repair_jobs_technician_id_fkey"
  check (!(s.jobs.rows.any fun r => r.repairNumber == now && !r.deleted))
    "uq_repair_jobs_number_active"
  let mk (n : ℕ) : RepairJob :=
    { id := n, repairNumber := now, ticketId := dto.ticketId, technicianId, createdAt := now }
  return (mk s.jobs.next, { s with jobs := s.jobs.insert mk })

/-- The row that makes the case `open`. -/
def writeOpen (jobId ticketId actorId now : ℕ) (s : CareState) :
    Except Failure (Unit × CareState) := do
  check (s.jobs.find? jobId).isSome "service_audit_logs_repair_job_id_fkey"
  check (s.tickets.find? ticketId).isSome "service_audit_logs_ticket_id_fkey"
  return ((), { s with audits := s.audits.insert fun n =>
    { id := n, ticketId := some ticketId, repairJobId := some jobId, action := .caseStatus
      actorId := some actorId, metadata := .status .open, createdAt := now } })

def createRepairJob (actorId : ℕ) (dto : CreateRepairJobDto) : CareProg Unit := do
  let found ← findTicket dto.ticketId
  let ticket ← Prog.orThrow ticketNotFound found
  let job ← atomic .createJob fun i s =>
    insertJob dto (dto.technicianId.or ticket.technicianId) i.now s
  atomic (.openJob job.id) fun i s => writeOpen job.id dto.ticketId actorId i.now s
  CaseManager.recordOpened ⟨.repairJob, job.id⟩
    { kind := .repairJob, id := job.id, number := some job.repairNumber, status := .open
      priority := normalPriority, openedAt := job.createdAt, assigneeId := job.technicianId }
  match job.technicianId with
  | some technicianId => do
    let _ ← CaseManager.assign ⟨.repairJob, job.id⟩ technicianId (some actorId)
  | none => pure ()
  publish (.domain "repair.started" job.id)
  enqueue "warranty.repair.notify"
  repoAudit { ticketId := some dto.ticketId, repairJobId := some job.id } "repair.create"
    (some actorId) none

/-- An outcome that is not one of the enumeration is refused by Prisma. -/
structure PatchRepairJobDto where
  status : Option CaseStatus := none
  outcome : Option (Option RepairOutcome) := none
  repairNotes : Option String := none
  repairMinutes : Option ℤ := none
deriving DecidableEq, Repr

/-- `if (dto.status)`: an empty text counts as absent. -/
def PatchRepairJobDto.target (dto : PatchRepairJobDto) : Option CaseStatus :=
  dto.status.filter fun status => decide (status ≠ .other "")

def PatchRepairJobDto.hasDetails (dto : PatchRepairJobDto) : Bool :=
  dto.outcome.isSome || (truthy dto.repairNotes).isSome || dto.repairMinutes.isSome

def PatchRepairJobDto.completes (dto : PatchRepairJobDto) : Bool :=
  dto.status == some .resolved || dto.status == some .closed

/-- The columns that the second write of a patch sets; `startedAt` is the one that was read before
the transition. -/
def applyPatch (dto : PatchRepairJobDto) (startedAt : Option ℕ) (now : ℕ) (r : RepairJob) :
    RepairJob := { r with
  outcome := (dto.outcome.bind id).getD r.outcome
  repairNotes := (truthy dto.repairNotes).or r.repairNotes
  repairMinutes := dto.repairMinutes.or r.repairMinutes
  startedAt := if dto.status = some .inProgress then some (startedAt.getD now) else r.startedAt
  completedAt := if dto.completes then some now else r.completedAt }

@[simp] theorem key_applyPatch (dto : PatchRepairJobDto) (startedAt : Option ℕ) (now : ℕ)
    (r : RepairJob) : key (applyPatch dto startedAt now r) = key r := rfl

def writePatch (id : ℕ) (dto : PatchRepairJobDto) (startedAt : Option ℕ) (now : ℕ) (s : CareState) :
    Except Failure (Unit × CareState) := do
  let _ ← existing s.jobs id
  check (dto.outcome.all Option.isSome) "RepairOutcome"
  check (dto.repairMinutes.all fun m => decide (0 ≤ m) && fitsInt4 m)
    "repair_jobs_repair_minutes_check"
  return ((), { s with
    jobs := s.jobs.update id (applyPatch dto startedAt now) (key_applyPatch dto startedAt now) })

def findJob (id : ℕ) : CareProg (Option RepairJob) :=
  query (.findJob id) fun _ s => RepairJobStore.findRow id s

/-- The status after the transition, if one was asked for. -/
def patchStatus (actorId id : ℕ) (dto : PatchRepairJobDto) : CareProg CaseStatus := do
  let current ← CaseManager.require ⟨.repairJob, id⟩
  match dto.target with
  | some target => do
    let snap ← CaseManager.transition ⟨.repairJob, id⟩ target (some actorId) dto.repairNotes
    return snap.status
  | none => return current.status

def patchDetails (id : ℕ) (dto : PatchRepairJobDto) (startedAt : Option ℕ) : CareProg Unit :=
  if dto.hasDetails then
    atomic (.patchJob id dto.status) fun i s => writePatch id dto startedAt i.now s
  else pure ()

def patchEvents (id : ℕ) (dto : PatchRepairJobDto) : CareProg Unit := do
  CaseManager.publishIf (dto.status == some .inProgress) (.domain "repair.started" id)
  if dto.completes then do
    let updated ← query (.findJob id) fun _ s => s.jobs.find? id
    let _ ← Prog.orThrow notFoundRow updated
    publish (.domain "repair.completed" id)
  else pure ()

def patchRepairJob (token actorId id : ℕ) (dto : PatchRepairJobDto) : CareProg CaseStatus :=
  LockService.withLock (CareLock.repair id) token do
    let found ← findJob id
    let job ← Prog.orThrow (.throwApp .notFound "Repair job not found" 404) found
    let status ← patchStatus actorId id dto
    patchDetails id dto job.startedAt
    patchEvents id dto
    repoAudit { ticketId := some job.ticketId, repairJobId := some id } "repair.patch" (some actorId)
      dto.status
    return status

/-! ### Diagnosis and closing -/

/-- The reports are read by no modelled function. -/
def createReport : CareProg Unit := atomic .createReport fun _ s => .ok ((), s)

def createDiagnostic (actorId ticketId : ℕ) : CareProg Unit := do
  let found ← findTicket ticketId
  let ticket ← Prog.orThrow ticketNotFound found
  if ticket.status = .assigned then do
    let _ ← CaseManager.transition ⟨.serviceTicket, ticketId⟩ .diagnosis (some actorId) none
  else pure ()
  createReport
  if ticket.serialNumberId.isSome then do
    createReport
    invalidateCache
  else pure ()
  repoAudit { ticketId := some ticketId } "service.diagnostic" (some actorId) none

def closeTicket (actorId ticketId : ℕ) : CareProg CaseStatus := do
  let snap ← CaseManager.transition ⟨.serviceTicket, ticketId⟩ .closed (some actorId) none
  publish (.domain "service.ticket.closed" ticketId)
  repoAudit { ticketId := some ticketId } "service.ticket.close" (some actorId) none
  return snap.status

end ServiceOpsService

end ElectronicsCart.Cases
