import ElectronicsCart.Core.Exclusion
import ElectronicsCart.Lib.Callers
import ElectronicsCart.Lib.Table

/-!
# Loan devices

`ServiceOpsService.allocateLoanDevice` of `modules/warranty/services/service-ops.service.ts` lends a
device to a ticket under the lock of the device, which is named by the id as the request spells it: it
reads the status, and then marks the device and creates the allocation in one transaction that does not
look at the status again.
-/

namespace ElectronicsCart.Warranty

open Interleaving Relational

/-! ### State and calls -/

inductive LoanDeviceStatus where
  | available | allocated | maintenance | retired
deriving DecidableEq, Repr

inductive LoanAllocationStatus where
  | active | returned | overdue | lost | cancelled
deriving DecidableEq, Repr

structure LoanDevice where
  id : ℕ
  status : LoanDeviceStatus := .available
  updatedBy : Option ℕ := none
  deleted : Bool := false
deriving DecidableEq, Repr

structure LoanTicket where
  id : ℕ
  customerId : Option ℕ
  deleted : Bool := false
deriving DecidableEq, Repr

structure LoanAllocation where
  id : ℕ
  loanDeviceId : ℕ
  ticketId : ℕ
  customerId : Option ℕ
  dueBackAt : Option ℕ
  status : LoanAllocationStatus
  createdBy : ℕ
deriving DecidableEq, Repr

/-- A row of `service_audit_logs`. -/
structure LoanAudit where
  id : ℕ
  action : String
  actorId : ℕ
  ticketId : ℕ
  allocationId : ℕ
deriving DecidableEq, Repr

instance : Keyed LoanDevice := ⟨LoanDevice.id⟩
instance : Keyed LoanTicket := ⟨LoanTicket.id⟩
instance : Keyed LoanAllocation := ⟨LoanAllocation.id⟩
instance : Keyed LoanAudit := ⟨LoanAudit.id⟩

/-- `LoanDeviceAllocatedEvent`. -/
structure LoanDeviceAllocatedEvent where
  allocationId : ℕ
  loanDeviceId : String
  ticketId : ℕ
deriving DecidableEq, Repr

structure LoanDesk where
  devices : Table LoanDevice := .empty
  tickets : Table LoanTicket := .empty
  allocations : Table LoanAllocation := .empty
  audits : Table LoanAudit := .empty
  users : List ℕ := []
  published : List LoanDeviceAllocatedEvent := []
  locks : LockStore String := fun _ => none

inductive LoanCall where
  | acquire (loanDeviceId : String) (token : ℕ)
  | release (loanDeviceId : String) (token : ℕ)
  | findDevice (id : ℕ)
  | findTicket (id : ℕ)
  | allocate (loanDeviceId ticketId : ℕ)
  | publish (allocationId : ℕ)
  | audit (allocationId : ℕ)
deriving DecidableEq, Repr

instance : Lockable LoanCall LoanDesk String where
  locks := LoanDesk.locks
  setLocks m d := { d with locks := m }
  acquireCall := .acquire
  releaseCall := .release
  resource loanDeviceId := ["warranty", "loan", loanDeviceId]
  locks_setLocks _ _ := rfl

abbrev LoanProg := Prog LoanCall (Input Unit) LoanDesk Failure

/-! ### The service -/

section Service

variable {uuids : String → Option ℕ}

structure AllocateLoanDeviceDto (uuids : String → Option ℕ) where
  loanDeviceId : UuidText uuids
  ticketId : ℕ
  customerId : Option ℕ := none
  dueBackAt : Option ℕ := none
deriving DecidableEq, Repr

/-- What `allocateLoanDevice` returns. -/
structure Loan where
  id : ℕ
  loanDeviceId : String
  status : LoanAllocationStatus
deriving DecidableEq, Repr

def loanUnavailable : Failure := .throwApp .conflict "Loan device unavailable" 409

def ticketNotFound : Failure := .throwApp .notFound "Ticket not found" 404

def newAllocation (actorId : ℕ) (dto : AllocateLoanDeviceDto uuids) (ticket : LoanTicket) (n : ℕ) :
    LoanAllocation where
  id := n
  loanDeviceId := dto.loanDeviceId.id
  ticketId := dto.ticketId
  customerId := dto.customerId.or ticket.customerId
  dueBackAt := dto.dueBackAt
  status := .active
  createdBy := actorId

def markAllocated (actorId : ℕ) (device : LoanDevice) : LoanDevice :=
  { device with status := .allocated, updatedBy := some actorId }

/-- The `$transaction`, under the foreign keys of `loan_allocations`. -/
def writeAllocation (actorId : ℕ) (dto : AllocateLoanDeviceDto uuids) (ticket : LoanTicket)
    (d : LoanDesk) : Except Failure (LoanAllocation × LoanDesk) := do
  check (d.devices.find? dto.loanDeviceId.id).isSome "Record to update not found"
  check (d.users.contains actorId) "loan_devices_updated_by_fkey"
  check (d.tickets.find? dto.ticketId).isSome "loan_allocations_ticket_id_fkey"
  check ((dto.customerId.or ticket.customerId).all d.users.contains) "loan_allocations_customer_id_fkey"
  return (newAllocation actorId dto ticket d.allocations.next, { d with
    devices := d.devices.update dto.loanDeviceId.id (markAllocated actorId)
    allocations := d.allocations.insert (newAllocation actorId dto ticket) })

/-- `publishFireAndForget`. -/
def publishAllocated (event : LoanDeviceAllocatedEvent) : LoanProg Unit :=
  Prog.call (.publish event.allocationId) fun _ d =>
    (.ok (), { d with published := d.published ++ [event] })

def auditAllocation (actorId ticketId allocationId : ℕ) : LoanProg Unit :=
  atomic (.audit allocationId) fun _ d => .ok ((), { d with
    audits := d.audits.insert fun n => ⟨n, "loan.allocate", actorId, ticketId, allocationId⟩ })

def allocateLoanDevice (token actorId : ℕ) (dto : AllocateLoanDeviceDto uuids) : LoanProg Loan :=
  LockService.withLock dto.loanDeviceId.text token do
    let found ← query (.findDevice dto.loanDeviceId.id) fun _ d =>
      (d.devices.find? dto.loanDeviceId.id).filter fun r => !r.deleted
    Prog.ensure (found.any (·.status = .available) = true) loanUnavailable
    let foundTicket ← query (.findTicket dto.ticketId) fun _ d =>
      (d.tickets.find? dto.ticketId).filter fun r => !r.deleted
    let ticket ← Prog.orThrow ticketNotFound foundTicket
    let allocation ← atomic (.allocate dto.loanDeviceId.id dto.ticketId) fun _ d =>
      writeAllocation actorId dto ticket d
    publishAllocated ⟨allocation.id, dto.loanDeviceId.text, dto.ticketId⟩
    auditAllocation actorId dto.ticketId allocation.id
    pure ⟨allocation.id, dto.loanDeviceId.text, allocation.status⟩

end Service

def isAvailable (r : LoanDevice) : Bool := !r.deleted && r.status == .available

/-- `loanDevice.count` of `dashboard`. -/
def availableLoans (d : LoanDesk) : ℕ := d.devices.total isAvailable fun _ => 1

/-! ### The books of the loans -/

/-- A device has one active allocation when it is marked so, and else none. -/
structure Lent (d : LoanDesk) : Prop where
  single : ∀ id, ∀ a ∈ d.allocations.rows, ∀ b ∈ d.allocations.rows,
    (a.loanDeviceId = id ∧ a.status = .active) → (b.loanDeviceId = id ∧ b.status = .active) →
      key a = key b
  marked : ∀ a ∈ d.allocations.rows, a.status = .active →
    ∃ r, d.devices.find? a.loanDeviceId = some r ∧ r.status = .allocated
  backed : ∀ r ∈ d.devices.rows, r.status = .allocated →
    ∃ a ∈ d.allocations.rows, a.loanDeviceId = r.id ∧ a.status = .active

/-- The devices that are free and those that were given out since make up a fixed number. -/
def Counted (n : ℕ) (d : LoanDesk) : Prop := availableLoans d + d.allocations.rows.length = n

def LoanCall.acquired? : LoanCall → Option String
  | .acquire text _ => some text
  | _ => none

/-- When the lock of a device is asked for, nobody holds one under another spelling. -/
def SpelledAlike (uuids : String → Option ℕ) (l : LoanCall) (_ : Input Unit) (d : LoanDesk) : Prop :=
  Protection.AskedAlike uuids LoanCall.acquired? l d

/-- What the lock of a device guards is its row; the allocations stay. -/
def loanProtection (uuids : String → Option ℕ) : Protection LoanCall LoanDesk String (Option LoanDevice) where
  view text d := (uuids text).bind d.devices.find?
  frame d d' := ∀ a ∈ d.allocations.rows, a ∈ d'.allocations.rows
  refl _ _ ha := ha
  trans h h' a ha := h' a (h a ha)
  view_setLocks _ _ _ := rfl
  frame_setLocks _ _ _ ha := ha

def loanWorld (uuids : String → Option ℕ) (n : ℕ) : World LoanCall (Input Unit) LoanDesk :=
  ⟨SpelledAlike uuids, fun d => (Lent d ∧ Counted n d) ∧ Protection.OneHeld LoanCall uuids d⟩

variable {uuids : String → Option ℕ} {d d' u : LoanDesk} {token actorId n : ℕ}
  {dto : AllocateLoanDeviceDto uuids} {ticket : LoanTicket} {l : LoanCall} {i : Input Unit}
  {a : LoanAllocation}

def Allocated (dto : AllocateLoanDeviceDto uuids) (r : Except Failure Loan) (d : LoanDesk) : Prop :=
  ∀ loan, r = .ok loan → loan.loanDeviceId = dto.loanDeviceId.text ∧ loan.status = .active ∧
    ∃ a ∈ d.allocations.rows, a.id = loan.id ∧ a.loanDeviceId = dto.loanDeviceId.id ∧
      a.ticketId = dto.ticketId ∧ a.status = .active

abbrev loanDiscipline (uuids : String → Option ℕ) (token : ℕ) : Discipline LoanCall (Input Unit) LoanDesk :=
  (loanProtection uuids).discipline token

theorem Lent.of_eq (h : Lent d) (hd : d'.devices = d.devices) (ha : d'.allocations = d.allocations) :
    Lent d' := by
  obtain ⟨hsingle, hmarked, hbacked⟩ := h
  constructor
  · rw [ha]
    exact hsingle
  · rw [ha, hd]
    exact hmarked
  · rw [ha, hd]
    exact hbacked

theorem books_of_eq (h : Lent d ∧ Counted n d) (hd : d'.devices = d.devices)
    (ha : d'.allocations = d.allocations) : Lent d' ∧ Counted n d' := by
  refine ⟨h.1.of_eq hd ha, ?_⟩
  have hcount : availableLoans d + d.allocations.rows.length = n := h.2
  rw [Counted, availableLoans, hd, ha]
  exact hcount

theorem inv_of_eq (h : (loanWorld uuids n).inv d) (hd : d'.devices = d.devices)
    (ha : d'.allocations = d.allocations) (hl : d'.locks = d.locks) : (loanWorld uuids n).inv d' :=
  ⟨books_of_eq h.1 hd ha, Protection.oneHeld_of_eq h.2 hl⟩

theorem allocated_stable {r : Except Failure Loan} (h : (loanProtection uuids).frame d d')
    (hr : Allocated dto r d) : Allocated dto r d' := by
  intro loan hloan
  obtain ⟨hdevice, hstatus, a, ha, hrow⟩ := hr loan hloan
  exact ⟨hdevice, hstatus, a, h a ha, hrow⟩

theorem allocated_error (e : Failure) (d : LoanDesk) : Allocated dto (.error e) d := by
  intro loan hloan
  cases hloan

/-! ### One call -/

def Free (token : ℕ) (device : UuidText uuids) (d : LoanDesk) : Prop :=
  d.locks device.text = some token ∧ ∃ r, d.devices.find? device.id = some r ∧ isAvailable r = true

theorem view_device (device : UuidText uuids) (d : LoanDesk) :
    (loanProtection uuids).view device.text d = d.devices.find? device.id := by
  change (uuids device.text).bind d.devices.find? = _
  rw [device.reads]
  rfl

theorem free_stable {device : UuidText uuids} (h : (loanDiscipline uuids token).rely d d')
    (hs : Free token device d) : Free token device d' := by
  obtain ⟨hheld, r, hr, hfree⟩ := hs
  obtain ⟨hheld', hview⟩ := h.2 device.text hheld
  rw [view_device, view_device] at hview
  exact ⟨hheld', r, hview.trans hr, hfree⟩

theorem writeAllocation_cases (h : writeAllocation actorId dto ticket d = .ok (a, u)) :
    a = newAllocation actorId dto ticket d.allocations.next ∧ u = { d with
      devices := d.devices.update dto.loanDeviceId.id (markAllocated actorId)
      allocations := d.allocations.insert (newAllocation actorId dto ticket) } := by
  simp only [writeAllocation, bind_eq_ok, check_eq_ok, pure_eq_ok, Prod.mk.injEq, exists_const] at h
  obtain ⟨-, -, -, -, rfl, rfl⟩ := h
  exact ⟨rfl, rfl⟩

theorem Free.none_active (h : Free token dto.loanDeviceId d) (hlent : Lent d) (ha : a ∈ d.allocations.rows)
    (hdevice : a.loanDeviceId = dto.loanDeviceId.id) : a.status ≠ .active := by
  intro hactive
  obtain ⟨-, r, hr, hfree⟩ := h
  obtain ⟨r', hr', hallocated⟩ := hlent.marked a ha hactive
  rw [hdevice, hr] at hr'
  obtain rfl := Option.some.inj hr'
  simp [isAvailable, hallocated] at hfree

theorem lent_write (hfree : Free token dto.loanDeviceId d) (hlent : Lent d)
    (h : writeAllocation actorId dto ticket d = .ok (a, u)) : Lent u := by
  obtain ⟨-, rfl⟩ := writeAllocation_cases h
  obtain ⟨-, r, hr, -⟩ := id hfree
  have hmk : ∀ n, key (newAllocation actorId dto ticket n) = n := fun _ => rfl
  have hg : ∀ r, key (markAllocated actorId r) = key r := fun _ => rfl
  constructor
  · intro id
    refine Table.insert_single hmk (hlent.single id) ?_
    rintro b hb ⟨hdevice, hactive⟩ ⟨hnew, -⟩
    exact hfree.none_active hlent hb (hdevice.trans hnew.symm) hactive
  · intro b hb hactive
    rcases (Table.mem_insert hmk).mp hb with hb | rfl
    · obtain ⟨r', hr', hallocated⟩ := hlent.marked b hb hactive
      have hne : b.loanDeviceId ≠ dto.loanDeviceId.id := fun he => hfree.none_active hlent hb he hactive
      exact ⟨r', (Table.find?_update_ne hg hne).trans hr', hallocated⟩
    · exact ⟨markAllocated actorId r, Table.find?_update_self hg hr, rfl⟩
  · intro r' hr' hallocated
    obtain ⟨c, hc, rfl⟩ := (Table.mem_update hg).mp hr'
    split at hallocated
    next hkey =>
      refine ⟨_, (Table.mem_insert hmk).mpr (.inr rfl), ?_, rfl⟩
      rw [if_pos hkey]
      exact hkey.symm
    next hkey =>
      obtain ⟨b, hb, hdevice, hactive⟩ := hlent.backed c hc hallocated
      refine ⟨b, (Table.mem_insert hmk).mpr (.inl hb), ?_, hactive⟩
      rw [if_neg hkey]
      exact hdevice

theorem counted_write (hfree : Free token dto.loanDeviceId d) (hcount : Counted n d)
    (h : writeAllocation actorId dto ticket d = .ok (a, u)) : Counted n u := by
  obtain ⟨-, rfl⟩ := writeAllocation_cases h
  obtain ⟨-, r, hr, havailable⟩ := hfree
  have hg : ∀ r, key (markAllocated actorId r) = key r := fun _ => rfl
  have hmoved := Table.total_update (p := isAvailable) (f := fun _ => 1) hg hr
  have hgone : isAvailable (markAllocated actorId r) = false := by
    simp [isAvailable, markAllocated]
  rw [if_pos havailable, if_neg (by simp [hgone])] at hmoved
  have hlength : (d.allocations.insert (newAllocation actorId dto ticket)).rows.length =
      d.allocations.rows.length + 1 := by
    simp [Table.insert]
  unfold Counted availableLoans at hcount ⊢
  simp only [hlength]
  omega

theorem guar_write (hfree : Free token dto.loanDeviceId d) (hheld : Protection.OneHeld LoanCall uuids d)
    (h : writeAllocation actorId dto ticket d = .ok (a, u)) :
    (loanDiscipline uuids token).guar l i d u := by
  obtain ⟨-, rfl⟩ := writeAllocation_cases h
  have hmk : ∀ n, key (newAllocation actorId dto ticket n) = n := fun _ => rfl
  have hg : ∀ r, key (markAllocated actorId r) = key r := fun _ => rfl
  refine Protection.guar_write_held ?_ rfl ?_
  · exact fun b hb => (Table.mem_insert hmk).mpr (.inl hb)
  · intro holder text hne hother
    have hsubject := hheld.other hfree.1 hother hne dto.loanDeviceId.reads
    change (uuids text).bind _ = (uuids text).bind _
    cases hread : uuids text with
    | none => rfl
    | some id =>
      have hid : id ≠ dto.loanDeviceId.id := by
        rintro rfl
        exact hsubject hread
      exact Table.find?_update_ne hg hid

theorem allocateLoanDevice_holds (actorId : ℕ) (dto : AllocateLoanDeviceDto uuids) :
    Holds (loanWorld uuids n) Protection.idle (loanDiscipline uuids token) (Allocated dto)
      (allocateLoanDevice token actorId dto) d := by
  refine Protection.holds_withLock_guarded (P := fun _ => True) (fun _ _ _ _ => trivial)
    (fun _ _ _ h hr => allocated_stable h hr) (fun _ _ _ => allocated_error _ _)
    (fun _ _ _ _ => allocated_error _ _) ?_ ?_ ?_ trivial
  · exact fun i t hi hok _ => ⟨books_of_eq hi.1 rfl rfl, Protection.oneHeld_take hi.2 (hok _ rfl)⟩
  · exact fun t hi => ⟨Protection.inv_drop (W := ⟨SpelledAlike uuids, fun d => Lent d ∧ Counted n d⟩)
      (fun _ _ h => books_of_eq h rfl rfl) t hi.1, Protection.oneHeld_drop hi.2⟩
  intro t hi hheld _
  apply holds_queryBind
  intro t₁ ht₁ _ i₁ _
  refine ⟨Protection.guar_refl, fun _ _ _ => allocated_error _ _, fun _ => ?_⟩
  apply Holds.ensureBind _ fun _ _ _ _ => allocated_error _ _
  intro hany
  have hfree₁ : Free token dto.loanDeviceId t₁ := by
    refine ⟨(ht₁.2 _ hheld).1, ?_⟩
    cases hr : t₁.devices.find? dto.loanDeviceId.id with
    | none => simp [hr] at hany
    | some r => exact ⟨r, rfl, by simpa [hr, isAvailable] using hany⟩
  apply holds_queryBind
  intro t₂ ht₂ _ i₂ _
  refine ⟨Protection.guar_refl, fun _ _ _ => allocated_error _ _, fun _ => ?_⟩
  apply Holds.orThrowBind _ fun _ _ _ _ => allocated_error _ _
  intro ticket _
  apply holds_atomicBind
  intro t₃ ht₃ hi₃ i₃ _
  refine ⟨Protection.guar_refl, fun _ _ _ _ _ => allocated_error _ _, ?_⟩
  intro a u _ hu
  have hfree : Free token dto.loanDeviceId t₃ := free_stable ht₃ (free_stable ht₂ hfree₁)
  have hlocks : u.locks = t₃.locks := by
    obtain ⟨-, rfl⟩ := writeAllocation_cases hu
    rfl
  have hinv : (loanWorld uuids n).inv u :=
    ⟨⟨lent_write hfree hi₃.1.1 hu, counted_write hfree hi₃.1.2 hu⟩, Protection.oneHeld_of_eq hi₃.2 hlocks⟩
  refine ⟨hinv, guar_write hfree hi₃.2 hu, ?_⟩
  have hrow : Allocated dto (.ok ⟨a.id, dto.loanDeviceId.text, a.status⟩) u := by
    obtain ⟨rfl, rfl⟩ := writeAllocation_cases hu
    intro loan hloan
    cases hloan
    have hmk : ∀ n, key (newAllocation actorId dto ticket n) = n := fun _ => rfl
    exact ⟨rfl, rfl, _, (Table.mem_insert hmk).mpr (.inr rfl), rfl, rfl, rfl, rfl⟩
  apply Holds.callBind
  intro t₄ ht₄ hi₄ i₄ _
  refine ⟨inv_of_eq hi₄ rfl rfl rfl, ?_, ?_⟩
  · exact ⟨fun _ ha => ha, fun _ _ _ hk => ⟨hk, rfl⟩⟩
  have hrow₄ := allocated_stable ht₄.1 hrow
  apply holds_atomicBind
  intro t₅ ht₅ hi₅ i₅ _
  refine ⟨Protection.guar_refl, fun _ _ _ _ _ => allocated_error _ _, ?_⟩
  intro b v _ hv
  cases hv
  refine ⟨inv_of_eq hi₅ rfl rfl rfl, ⟨fun _ ha => ha, fun _ _ _ hk => ⟨hk, rfl⟩⟩, ?_⟩
  have hrow₅ := allocated_stable ht₅.1 hrow₄
  exact fun t₆ ht₆ _ => allocated_stable ht₆.1 hrow₅

/-! ### Whole runs -/

structure LoanRequest (uuids : String → Option ℕ) where
  actorId : ℕ
  dto : AllocateLoanDeviceDto uuids
deriving DecidableEq, Repr

def LoanRequest.prog (token : ℕ) (q : LoanRequest uuids) : LoanProg Loan :=
  allocateLoanDevice token q.actorId q.dto

def loanPool (requests : List (LoanRequest uuids)) (d : LoanDesk) :
    Pool LoanCall (Input Unit) LoanDesk Failure Loan :=
  ⟨requests.mapIdx LoanRequest.prog, d⟩

/-- Two uuids, the first with a letter that may be small or capital. -/
def loanUuids (text : String) : Option ℕ :=
  if text ∈ ["a", "A"] then some 0 else if text = "1" then some 1 else none

instance (l : LoanCall) (i : Input Unit) (d : LoanDesk) : Decidable (SpelledAlike loanUuids l i d) :=
  Protection.decidableAskedAlike ["a", "A", "1"] (fun text id h => by
    unfold loanUuids at h
    split at h
    next hmem => exact List.mem_append_left ["1"] hmem
    next =>
      split at h
      next hone => simp [hone]
      next => cases h) LoanCall.acquired? l d

/-- A free device, a device in maintenance, and a ticket of customer 7. -/
def loanDesk : LoanDesk where
  devices := (Table.empty.insert fun n => { id := n }).insert fun n => { id := n, status := .maintenance }
  tickets := Table.empty.insert fun n => { id := n, customerId := some 7 }
  users := [1, 2, 7]

/-- Two calls for the first device, one for the second. -/
def threeLoans : List (LoanRequest loanUuids) :=
  [⟨1, { loanDeviceId := ⟨"a", 0, rfl⟩, ticketId := 0 }⟩, ⟨2, { loanDeviceId := ⟨"A", 0, rfl⟩, ticketId := 0 }⟩,
    ⟨2, { loanDeviceId := ⟨"1", 1, rfl⟩, ticketId := 0 }⟩]

/-- The second call comes for the lock when the first has released it. -/
def loanTurns : List (ℕ × Input Unit) :=
  ([0, 2, 0, 2, 2] ++ List.replicate 5 0 ++ List.replicate 3 1).map fun j => (j, { reply := () })

end ElectronicsCart.Warranty
