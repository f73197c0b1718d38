import ElectronicsCart.Cases.ServiceOps
import ElectronicsCart.Core.Calendar

/-!
# Warranties

The methods of `modules/warranty/services/warranty.service.ts` that write a registration or a
claim, with the reads of `warranty.repository.ts`.  The server's clock is in UTC.
-/

namespace ElectronicsCart.Cases.WarrantyService

open Interleaving Relational Calendar

def findPlan (id : ℕ) : CareProg (Option WarrantyPlan × ℕ) :=
  query (.findPlan id) fun i s => ((s.plans.find? id).filter fun r => !r.deleted, i.now)

def invalidPlan : Failure := .throwApp .badRequest "Invalid plan" 400

/-- `!plan || plan.status !== 'active'`. -/
def activePlan (found : Option WarrantyPlan) : CareProg WarrantyPlan :=
  Prog.orThrow invalidPlan (found.filter WarrantyPlan.active)

def findSerial (id : ℕ) : CareProg (Option SerialNumber) :=
  query .findSerial fun _ s => (s.serials.find? id).filter fun r => !r.deleted

def findSerialByNumber (serial : String) : CareProg (Option SerialNumber) :=
  query .findSerial fun _ s => s.serials.first? fun r => r.serialNumber == serial && !r.deleted

def findRegistration (id : ℕ) : CareProg (Option WarrantyRegistration × ℕ) :=
  query (.findRegistration id) fun i s =>
    ((s.registrations.find? id).filter fun r => !r.deleted, i.now)

/-- The rows of `findActiveRegistrationBySerial`. -/
def isActiveFor (serialId : ℕ) (r : WarrantyRegistration) : Bool :=
  r.serialNumberId == some serialId && r.status == .active && !r.deleted

def findActiveRegistrationBySerial (serialId : ℕ) : CareProg (Option WarrantyRegistration) :=
  query (.findActive serialId) fun _ s => s.registrations.first? (isActiveFor serialId)

/-! ### `register` -/

structure RegisterWarrantyDto where
  planId : ℕ
  serialNumberId : Option ℕ := none
  serialNumber : Option String := none
  orderId : Option ℕ := none
deriving DecidableEq, Repr

/-- By id, and by number when that finds nothing. -/
def resolveSerial (dto : RegisterWarrantyDto) : CareProg SerialNumber := do
  let byId ← match dto.serialNumberId with
    | some id => findSerial id
    | none => pure none
  let serial ← match byId, truthy dto.serialNumber with
    | none, some number => findSerialByNumber number
    | found, _ => pure found
  Prog.orThrow (.throwApp .notFound "Serial not found" 404) serial

def checkOrder (customerId : ℕ) : Option ℕ → CareProg Unit
  | none => pure ()
  | some orderId => do
    let found ← query .findOrder fun _ s => (s.orders.find? orderId).filter fun r => !r.deleted
    let order ← Prog.orThrow (.throwApp .notFound "Order not found" 404) found
    Prog.ensure (order.customerId.all (· == customerId) = true)
      (.throwApp .forbidden "Not your order" 403)

def insertRegistration (customerId : ℕ) (plan : WarrantyPlan) (serialId now : ℕ) (s : CareState) :
    Except Failure (WarrantyRegistration × CareState) := do
  let endDate := toDate (addMonths plan.durationMonths now)
  check (decide (toDate now ≤ endDate)) "chk_warranty_registration_dates"
  check (!(s.registrations.rows.any fun r => r.registrationNumber == now && !r.deleted))
    "uq_warranty_registrations_number_active"
  let mk (n : ℕ) : WarrantyRegistration :=
    { id := n, registrationNumber := now, planId := plan.id, customerId := some customerId
      serialNumberId := some serialId, startDate := toDate now, endDate, status := .active }
  return (mk s.registrations.next, { s with registrations := s.registrations.insert mk })

/-- The column `warranty_status` of the serial is read by no modelled function. -/
def updateSerial (serialId : ℕ) : CareProg Unit :=
  atomic (.updateSerial serialId) fun _ s => do
    let _ ← existing s.serials serialId
    return ((), s)

def registrationHistory : CareProg Unit := atomic .createReport fun _ s => .ok ((), s)

def register (token customerId : ℕ) (dto : RegisterWarrantyDto) : CareProg WarrantyRegistration :=
  LockService.withLock (CareLock.register customerId) token do
    let found ← findPlan dto.planId
    let plan ← activePlan found.1
    let serial ← resolveSerial dto
    checkOrder customerId dto.orderId
    let existing ← findActiveRegistrationBySerial serial.id
    Prog.ensure (existing = none)
      (.throwApp .conflict "Warranty already active for serial" 409)
    let row ← atomic (.createRegistration serial.id) fun i s =>
      insertRegistration customerId plan serial.id i.now s
    updateSerial serial.id
    registrationHistory
    publish (.domain "warranty.registered" row.id)
    invalidateCache
    return row

/-! ### Claims -/

section Claims

variable {uuids : String → Option ℕ}

structure CreateClaimDto (uuids : String → Option ℕ) where
  registrationId : UuidText uuids
  claimAmount : Option ℚ := none
deriving DecidableEq, Repr

def openStatuses : List CaseStatus := [.submitted, .underReview, .approved, .inService]

def isOpenFor (registrationId : ℕ) (r : WarrantyClaim) : Bool :=
  r.registrationId == registrationId && openStatuses.contains r.status && !r.deleted

def findOpenClaim (registrationId : ℕ) : CareProg (Option WarrantyClaim) :=
  query (.findOpenClaim registrationId) fun _ s => s.claims.first? (isOpenFor registrationId)

def insertClaim (customerId : ℕ) (reg : WarrantyRegistration) (claimAmount : Option ℚ) (now : ℕ)
    (s : CareState) : Except Failure (WarrantyClaim × CareState) := do
  check (claimAmount.all fun a => decide (0 ≤ a) && fitsNumeric14 a)
    "warranty_claims_claim_amount_check"
  check (s.registrations.find? reg.id).isSome "warranty_claims_registration_id_fkey"
  check (!(s.claims.rows.any fun r => r.claimNumber == now && !r.deleted))
    "uq_warranty_claims_number_active"
  let mk (n : ℕ) : WarrantyClaim :=
    { id := n, claimNumber := now, registrationId := reg.id, customerId := some customerId
      serialNumberId := reg.serialNumberId, status := .submitted, submittedAt := now }
  return (mk s.claims.next, { s with claims := s.claims.insert mk })

/-- `reg.status !== 'active' || reg.end_date < new Date()`, the other way. -/
def covered (reg : WarrantyRegistration) (now : ℕ) : Bool :=
  reg.status == .active && decide (now ≤ reg.endDate)

def createClaim (token customerId : ℕ) (dto : CreateClaimDto uuids) : CareProg WarrantyClaim :=
  LockService.withLock (CareLock.claim dto.registrationId.text) token do
    let found ← findRegistration dto.registrationId.id
    let reg ← Prog.orThrow (.throwApp .notFound "Registration not found" 404) found.1
    Prog.ensure (reg.customerId.all (· == customerId) = true)
      (.throwApp .forbidden "Not your warranty" 403)
    Prog.ensure (covered reg found.2 = true) (.throwApp .conflict "Warranty not active" 409)
    let opened ← findOpenClaim reg.id
    Prog.ensure (opened = none) (.throwApp .conflict "Open claim already exists" 409)
    let claim ← atomic (.createClaim reg.id) fun i s =>
      insertClaim customerId reg dto.claimAmount i.now s
    CaseManager.recordOpened ⟨.warrantyClaim, claim.id⟩
      { kind := .warrantyClaim, id := claim.id, number := some claim.claimNumber
        status := .submitted, priority := normalPriority, openedAt := claim.submittedAt }
    publish (.domain "warranty.claim.created" claim.id)
    enqueue "warranty.claim.review"
    repoAudit { claimId := some claim.id } "warranty.claim.create" (some customerId) none
    return claim

structure PatchClaimDto where
  status : CaseStatus
  reason : Option String := none
deriving DecidableEq, Repr

def patchClaim (token actorId : ℕ) (id : UuidText uuids) (dto : PatchClaimDto) : CareProg CaseStatus :=
  LockService.withLock (CareLock.claimApprove id.text) token do
    let snap ← CaseManager.transition ⟨.warrantyClaim, id.id⟩ dto.status (some actorId) dto.reason
    CaseManager.publishIf (dto.status == .approved) (.domain "warranty.claim.approved" id.id)
    CaseManager.publishIf (dto.status == .rejected) (.domain "warranty.claim.rejected" id.id)
    repoAudit { claimId := some id.id } ("warranty.claim." ++ dto.status.text) (some actorId) none
    invalidateCache
    return snap.status

end Claims

/-! ### `extend` -/

/-- The dates of an extension that is bought at `now`, before they are cut to days. -/
def extensionStart (endDate now : ℕ) : ℕ := if now < endDate then endDate else now

def extensionEnd (plan : WarrantyPlan) (endDate now : ℕ) : ℕ :=
  addMonths plan.durationMonths (extensionStart endDate now)

def setEndDate (endDate : ℕ) (r : WarrantyRegistration) : WarrantyRegistration :=
  { r with endDate }

@[simp] theorem key_setEndDate (endDate : ℕ) (r : WarrantyRegistration) :
    key (setEndDate endDate r) = key r := rfl

def writeExtension (registrationId : ℕ) (plan : WarrantyPlan) (start finish : ℕ)
    (purchaseAmount : Option ℚ) (s : CareState) : Except Failure (WarrantyExtension × CareState) := do
  check (decide (toDate start ≤ toDate finish)) "chk_warranty_extension_dates"
  check (purchaseAmount.all fun a => decide (0 ≤ a)) "warranty_extensions_purchase_amount_check"
  let reg ← existing s.registrations registrationId
  check (decide (reg.startDate ≤ toDate finish)) "chk_warranty_registration_dates"
  let mk (n : ℕ) : WarrantyExtension :=
    { id := n, registrationId, planId := plan.id, startDate := toDate start
      endDate := toDate finish, purchaseAmount }
  return (mk s.extensions.next, { s with
    extensions := s.extensions.insert mk
    registrations := s.registrations.update registrationId (setEndDate (toDate finish))
      (key_setEndDate (toDate finish)) })

/-- The end date is computed from the one that was read, and no lock is taken. -/
def extend (actorId registrationId planId : ℕ) (purchaseAmount : Option ℚ) :
    CareProg WarrantyExtension := do
  let found ← findRegistration registrationId
  let reg ← Prog.orThrow (.throwApp .notFound "Registration not found" 404) found.1
  let answer ← findPlan planId
  let plan ← activePlan answer.1
  let ext ← atomic (.extend registrationId reg.endDate) fun _ s =>
    writeExtension registrationId plan (extensionStart reg.endDate answer.2)
      (extensionEnd plan reg.endDate answer.2) purchaseAmount s
  repoAudit {} "warranty.extend" (some actorId) none
  if reg.serialNumberId.isSome then invalidateCache
  else pure ()
  return ext

end ElectronicsCart.Cases.WarrantyService
