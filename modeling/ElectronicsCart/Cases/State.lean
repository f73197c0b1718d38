import ElectronicsCart.Cases.Definitions
import ElectronicsCart.Shop.State

/-!
# State and external calls of the service desk

The tables of `028_warranty.sql`, the maps of `InMemoryCaseStore`, the events that were handed to
the publisher and the Redis locks.  Columns that no modelled function reads are left out, and so are
the tables of documents, diagnostic and health reports; the writes to these change nothing here.
-/

namespace ElectronicsCart.Cases

open Interleaving Relational

/-! ### Tables -/

structure ServiceSla where
  id : ℕ
  responseTimeMinutes : ℕ
  resolutionTimeMinutes : ℕ
deriving DecidableEq, Repr

structure WarrantyClaim where
  id : ℕ
  claimNumber : ℕ := 0
  registrationId : ℕ
  customerId : Option ℕ := none
  serialNumberId : Option ℕ := none
  status : CaseStatus
  submittedAt : ℕ := 0
  resolvedAt : Option ℕ := none
  deleted : Bool := false
deriving DecidableEq, Repr

structure RmaRequest where
  id : ℕ
  rmaNumber : ℕ := 0
  status : CaseStatus
  requestedAt : ℕ := 0
  completedAt : Option ℕ := none
  deleted : Bool := false
deriving DecidableEq, Repr

structure ServiceTicket where
  id : ℕ
  ticketNumber : ℕ := 0
  customerId : Option ℕ := none
  serviceCenterId : ℕ := 0
  technicianId : Option ℕ := none
  serialNumberId : Option ℕ := none
  status : CaseStatus
  priority : ℤ := 3
  serviceSlaId : Option ℕ := none
  openedAt : ℕ := 0
  assignedAt : Option ℕ := none
  closedAt : Option ℕ := none
  deleted : Bool := false
deriving DecidableEq, Repr

structure RepairJob where
  id : ℕ
  repairNumber : ℕ := 0
  ticketId : ℕ := 0
  technicianId : Option ℕ := none
  startedAt : Option ℕ := none
  completedAt : Option ℕ := none
  repairMinutes : Option ℤ := none
  outcome : RepairOutcome := .pending
  repairNotes : Option String := none
  createdAt : ℕ := 0
  deleted : Bool := false
deriving DecidableEq, Repr

structure TicketStatusHistory where
  id : ℕ
  ticketId : ℕ
  fromStatus : Option CaseStatus
  toStatus : CaseStatus
  notes : Option String := none
  actorId : Option ℕ := none
  changedAt : ℕ
  deleted : Bool := false
deriving DecidableEq, Repr

/-- The JSON in `metadata`: an entry of a timeline, with the id that `RmaStore` adds; the status
of a repair job; the note of a return; or what a service hands to `repo.audit`, of which only the
`status` matters. -/
inductive AuditMetadata where
  | entry (entry : CaseTimelineEntry) (rmaId : Option ℕ)
  | status (status : CaseStatus)
  | rmaNote (rmaId : ℕ) (body : String)
  | payload (status : Option CaseStatus)
deriving DecidableEq, Repr

/-- The texts `case.<type>` and `case.status`, and those of the services. -/
inductive AuditAction where
  | case (type : TimelineType)
  | caseStatus
  | domain (name : String)
deriving DecidableEq, Repr

structure ServiceAuditLog where
  id : ℕ
  ticketId : Option ℕ := none
  claimId : Option ℕ := none
  repairJobId : Option ℕ := none
  action : AuditAction
  actorId : Option ℕ := none
  metadata : AuditMetadata
  createdAt : ℕ
  deleted : Bool := false
deriving DecidableEq, Repr

structure Technician where
  id : ℕ
  active : Bool := true
  isAvailable : Bool := true
  deleted : Bool := false
deriving DecidableEq, Repr

structure ServiceCenter where
  id : ℕ
  deleted : Bool := false
deriving DecidableEq, Repr

structure WarrantyPlan where
  id : ℕ
  durationMonths : ℕ
  active : Bool := true
  deleted : Bool := false
deriving DecidableEq, Repr

structure SerialNumber where
  id : ℕ
  serialNumber : String := ""
  deleted : Bool := false
deriving DecidableEq, Repr

structure Order where
  id : ℕ
  customerId : Option ℕ := none
  deleted : Bool := false
deriving DecidableEq, Repr

inductive RegistrationStatus where
  | pending | active | expired | void | transferred
deriving DecidableEq, Repr

structure WarrantyRegistration where
  id : ℕ
  registrationNumber : ℕ := 0
  planId : ℕ := 0
  customerId : Option ℕ := none
  serialNumberId : Option ℕ := none
  startDate : ℕ := 0
  endDate : ℕ
  status : RegistrationStatus := .active
  deleted : Bool := false
deriving DecidableEq, Repr

structure WarrantyExtension where
  id : ℕ
  registrationId : ℕ
  planId : ℕ
  startDate : ℕ
  endDate : ℕ
  purchaseAmount : Option ℚ := none
deriving DecidableEq, Repr

instance : Keyed ServiceSla := ⟨ServiceSla.id⟩
instance : Keyed WarrantyClaim := ⟨WarrantyClaim.id⟩
instance : Keyed RmaRequest := ⟨RmaRequest.id⟩
instance : Keyed ServiceTicket := ⟨ServiceTicket.id⟩
instance : Keyed RepairJob := ⟨RepairJob.id⟩
instance : Keyed TicketStatusHistory := ⟨TicketStatusHistory.id⟩
instance : Keyed ServiceAuditLog := ⟨ServiceAuditLog.id⟩
instance : Keyed Technician := ⟨Technician.id⟩
instance : Keyed ServiceCenter := ⟨ServiceCenter.id⟩
instance : Keyed WarrantyPlan := ⟨WarrantyPlan.id⟩
instance : Keyed SerialNumber := ⟨SerialNumber.id⟩
instance : Keyed Order := ⟨Order.id⟩
instance : Keyed WarrantyRegistration := ⟨WarrantyRegistration.id⟩
instance : Keyed WarrantyExtension := ⟨WarrantyExtension.id⟩

@[simp] theorem key_claim (r : WarrantyClaim) : key r = r.id := rfl
@[simp] theorem key_rma (r : RmaRequest) : key r = r.id := rfl
@[simp] theorem key_ticket (r : ServiceTicket) : key r = r.id := rfl
@[simp] theorem key_job (r : RepairJob) : key r = r.id := rfl
@[simp] theorem key_audit (r : ServiceAuditLog) : key r = r.id := rfl
@[simp] theorem key_registration (r : WarrantyRegistration) : key r = r.id := rfl

/-! ### Events -/

inductive Breach where
  | response | resolve
deriving DecidableEq, Repr

inductive EscalationReason where
  | responseSla | resolveSla | priorityUnassigned
deriving DecidableEq, Repr

def EscalationReason.text : EscalationReason → String
  | .responseSla => "response_sla"
  | .resolveSla => "resolve_sla"
  | .priorityUnassigned => "priority_unassigned"

/-- `state-machine.events.ts`, `case.events.ts` and, as `domain`, the events of the module. -/
inductive CaseEvent where
  | stateTransitioned (machine : String) (id : ℕ) (fromStatus toStatus : CaseStatus)
  | opened (ref : CaseRef) (status : CaseStatus) (assigneeId : Option ℕ) (priority : CasePriority)
  | statusChanged (ref : CaseRef) (status fromStatus toStatus : CaseStatus) (assigneeId : Option ℕ)
      (priority : CasePriority)
  | assigned (ref : CaseRef) (status : CaseStatus) (assigneeId : ℕ) (priority : CasePriority)
  | noteAdded (ref : CaseRef) (status : CaseStatus) (notePreview : String)
  | escalated (ref : CaseRef) (status : CaseStatus) (reason : EscalationReason)
      (priority : CasePriority) (assigneeId : Option ℕ)
  | slaBreached (ref : CaseRef) (status : CaseStatus) (breach : Breach) (priority : CasePriority)
  | closed (ref : CaseRef) (status : CaseStatus) (assigneeId : Option ℕ) (priority : CasePriority)
  | domain (name : String) (id : ℕ)
deriving DecidableEq, Repr

/-! ### Locks -/

/-- The locks of claims are named by the id as the request spells it. -/
inductive CareLock where
  | register (customerId : ℕ)
  | claim (registrationId : String)
  | claimApprove (claimId : String)
  | assign (ticketId : ℕ)
  | repair (jobId : ℕ)
deriving DecidableEq, Repr

def CareLock.resource : CareLock → List String
  | .register id => ["warranty", "register", toString id]
  | .claim text => ["warranty", "claim", text]
  | .claimApprove text => ["warranty", "claim-approve", text]
  | .assign id => ["warranty", "assign", toString id]
  | .repair id => ["warranty", "repair", toString id]

structure AuditLinks where
  ticketId : Option ℕ := none
  claimId : Option ℕ := none
  repairJobId : Option ℕ := none
deriving DecidableEq, Repr

/-! ### State -/

structure CareState where
  slas : Table ServiceSla := Table.empty
  claims : Table WarrantyClaim := Table.empty
  rmas : Table RmaRequest := Table.empty
  tickets : Table ServiceTicket := Table.empty
  jobs : Table RepairJob := Table.empty
  ticketHistory : Table TicketStatusHistory := Table.empty
  audits : Table ServiceAuditLog := Table.empty
  technicians : Table Technician := Table.empty
  centers : Table ServiceCenter := Table.empty
  plans : Table WarrantyPlan := Table.empty
  serials : Table SerialNumber := Table.empty
  orders : Table Order := Table.empty
  registrations : Table WarrantyRegistration := Table.empty
  extensions : Table WarrantyExtension := Table.empty
  /-- `InMemoryCaseStore.cases` -/
  memoryCases : CaseRef → Option CaseSnapshot := fun _ => none
  /-- `InMemoryCaseStore.timelines` -/
  memoryTimelines : CaseRef → List CaseTimelineEntry := fun _ => []
  published : List CaseEvent := []
  locks : LockStore CareLock := fun _ => none

/-- The external calls.  `reload` is the read with which a write of a store ends, `saved` the one at
the end of `saveStatus`; `markAssigned` is the status row of `RepairJobStore.assign`; `clock` is
`new Date()` of an evaluation, with the time that the caller may have given. -/
inductive CareCall where
  | acquire (key : CareLock) (token : ℕ)
  | release (key : CareLock) (token : ℕ)
  | openCase (ref : CaseRef)
  | load (ref : CaseRef)
  | reload (ref : CaseRef)
  | saved (ref : CaseRef)
  | findCurrent (ref : CaseRef)
  | saveStatus (ref : CaseRef) (status : CaseStatus)
  | createHistory (ref : CaseRef)
  | closeJob (jobId : ℕ) (status : CaseStatus)
  | assign (ref : CaseRef) (assigneeId : ℕ)
  | markAssigned (jobId : ℕ)
  | setPriority (ref : CaseRef) (priority : CasePriority)
  | addNote (ref : CaseRef) (note : CaseNoteInput)
  | addAttachment (ref : CaseRef)
  | appendTimeline (ref : CaseRef) (type : TimelineType)
  | listTimeline (ref : CaseRef)
  | listHistory (ticketId : ℕ)
  | clock (ref : CaseRef) (now : Option ℕ)
  | markEscalated (ref : CaseRef)
  | publish (event : CaseEvent)
  | audit (links : AuditLinks)
  | enqueue (job : String)
  | invalidate
  | findCenter | findTechnician | findTicket (ticketId : ℕ) | findJob (jobId : ℕ)
  | createTicket | createJob | openJob (jobId : ℕ)
  | patchJob (jobId : ℕ) (status : Option CaseStatus)
  | createReport
  | findPlan (planId : ℕ) | findSerial | findOrder
  | findActive (serialId : ℕ)
  | createRegistration (serialId : ℕ)
  | updateSerial (serialId : ℕ)
  | findRegistration (registrationId : ℕ)
  | findOpenClaim (registrationId : ℕ)
  | createClaim (registrationId : ℕ)
  | extend (registrationId endDate : ℕ)
deriving DecidableEq

instance : Lockable CareCall CareState CareLock where
  locks := CareState.locks
  setLocks m s := { s with locks := m }
  acquireCall := .acquire
  releaseCall := .release
  resource := CareLock.resource
  locks_setLocks _ _ := rfl

abbrev CareInput := Input Unit

abbrev CareProg := Prog CareCall CareInput CareState Failure

abbrev CarePool := Pool CareCall CareInput CareState Failure

/-- `publishFireAndForget`, which no failure reaches. -/
def publish (event : CaseEvent) : CareProg Unit :=
  Prog.call (.publish event) fun _ s =>
    (.ok (), { s with published := s.published ++ [event] })

/-! ### Order of rows -/

/-- `ORDER BY created_at`, tied rows in the order of `rank`. -/
def Before (rank : ℕ → ℕ) (a b : ServiceAuditLog) : Prop :=
  a.createdAt < b.createdAt ∨ a.createdAt = b.createdAt ∧ rank a.id ≤ rank b.id

instance (rank : ℕ → ℕ) : DecidableRel (Before rank) := fun _ _ => inferInstanceAs (Decidable (_ ∨ _))

/-- `findMany` on the audit log with `orderBy: { created_at: 'asc' }`. -/
def auditRows (p : ServiceAuditLog → Bool) (rank : ℕ → ℕ) (s : CareState) : List ServiceAuditLog :=
  (s.audits.rows.filter fun r => p r && !r.deleted).insertionSort (Before rank)

theorem auditRows_insert {p : ServiceAuditLog → Bool} {rank : ℕ → ℕ} {s : CareState}
    {row : ℕ → ServiceAuditLog} {hrow : ∀ n, key (row n) = n}
    (hkept : (row s.audits.next).deleted = false)
    (hlast : p (row s.audits.next) = true → ∀ r ∈ s.audits.rows, p r = true → r.deleted = false →
      r.createdAt < (row s.audits.next).createdAt) :
    auditRows p rank { s with audits := s.audits.insert row hrow } =
      auditRows p rank s ++ if p (row s.audits.next) = true then [row s.audits.next] else [] := by
  rw [auditRows, auditRows, Table.sorted_insert hrow, hkept]
  · simp only [Bool.not_false, Bool.and_true]
  · intro hpick r hmem hr
    obtain ⟨hp, hdel⟩ := Bool.and_eq_true_iff.mp hr
    exact .inl (hlast (Bool.and_eq_true_iff.mp hpick).1 r hmem hp (by simpa using hdel))

end ElectronicsCart.Cases
