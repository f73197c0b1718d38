import ElectronicsCart.Inventory.ReserveFailures

/-!
# Spare parts

`ServiceOpsService.useSparePart` of `modules/warranty/services/service-ops.service.ts` reserves the
units of a spare part by a call of `InventoryService.reserve`, and then writes the usage and the
audit row.  Nothing gives the units back when one of these writes is rejected.
-/

namespace ElectronicsCart.Warranty

open Interleaving Relational

/-! ### State and calls -/

structure RepairJob where
  id : ℕ
  ticketId : ℕ
  deleted : Bool := false
deriving DecidableEq, Repr

structure RepairPart where
  id : ℕ
  variantId : Option ℕ := none
  warehouseId : Option ℕ := none
  unitCost : Option ℚ := none
  deleted : Bool := false
deriving DecidableEq, Repr

structure RepairPartUsage where
  id : ℕ
  repairJobId : ℕ
  repairPartId : ℕ
  warehouseId : Option ℕ
  quantity : ℤ
  unitCost : Option ℚ
  isWarrantyCovered : Bool
  createdBy : ℕ
deriving DecidableEq, Repr

/-- A row of `service_audit_logs`, with its metadata. -/
structure PartsAudit where
  id : ℕ
  action : String
  actorId : ℕ
  repairJobId : ℕ
  ticketId : ℕ
  usageId : ℕ
  reservationId : Option ℕ
deriving DecidableEq, Repr

instance : Keyed RepairJob := ⟨RepairJob.id⟩
instance : Keyed RepairPart := ⟨RepairPart.id⟩
instance : Keyed RepairPartUsage := ⟨RepairPartUsage.id⟩
instance : Keyed PartsAudit := ⟨PartsAudit.id⟩

/-- The body that the validation pipe lets through. -/
structure UseSparePartDto where
  repairJobId : ℕ
  repairPartId : ℕ
  quantity : ℤ
  warehouseId : Option ℕ := none
  isWarrantyCovered : Option Bool := none
  /-- `@Min(1)` -/
  quantity_pos : 1 ≤ quantity

structure PartsDesk where
  shop : Shop := {}
  jobs : Table RepairJob := .empty
  parts : Table RepairPart := .empty
  usages : Table RepairPartUsage := .empty
  audits : Table PartsAudit := .empty
  locks : LockStore ℕ := fun _ => none

inductive PartsCall where
  | acquire (repairJobId token : ℕ)
  | release (repairJobId token : ℕ)
  | findJob (id : ℕ)
  | findPart (id : ℕ)
  | shop (call : ShopCall)
  | createUsage (repairJobId repairPartId : ℕ)
  | audit (usageId : ℕ)
deriving DecidableEq, Repr

instance : Lockable PartsCall PartsDesk ℕ where
  locks := PartsDesk.locks
  setLocks m d := { d with locks := m }
  acquireCall := .acquire
  releaseCall := .release
  resource repairJobId := ["warranty", "parts", toString repairJobId]
  locks_setLocks _ _ := rfl

abbrev PartsProg := Prog PartsCall ShopInput PartsDesk Failure

def onStock {α : Type} (p : ShopProg α) : PartsProg α :=
  p.zoom .shop PartsDesk.shop fun s d => { d with shop := s }

/-! ### The service -/

structure SparePartUse where
  id : ℕ
  reservationId : Option ℕ
  quantity : ℤ
deriving DecidableEq, Repr

/-- The reservation, for a part that is kept in stock somewhere. -/
def reservePart (token : ℕ) (quantity : ℤ) : Option ℕ → Option ℕ → PartsProg (Option ℕ)
  | some variantId, some warehouseId => do
    let reservation ← onStock (Inventory.reserve token
      { warehouseId, variantId, quantity, ttlMinutes := some (24 * 60) })
    pure (some reservation.id)
  | _, _ => pure none

/-- `repairPartUsage.create`, under the checks and the foreign keys of the table. -/
def createUsage (actorId : ℕ) (dto : UseSparePartDto) (part : RepairPart) (warehouseId : Option ℕ)
    (d : PartsDesk) : Except Failure (RepairPartUsage × PartsDesk) := do
  check (fitsInt4 dto.quantity && decide (0 < dto.quantity)) "repair_part_usage_quantity_check"
  check ((d.jobs.find? dto.repairJobId).isSome) "repair_part_usage_repair_job_id_fkey"
  check ((d.parts.find? dto.repairPartId).isSome) "repair_part_usage_repair_part_id_fkey"
  check (warehouseId.all fun id => (d.shop.warehouses.find? id).isSome)
    "repair_part_usage_warehouse_id_fkey"
  check (d.shop.users.contains actorId) "repair_part_usage_created_by_fkey"
  let mk := fun n =>
    { id := n, repairJobId := dto.repairJobId, repairPartId := dto.repairPartId, warehouseId,
      quantity := dto.quantity, unitCost := part.unitCost,
      isWarrantyCovered := dto.isWarrantyCovered.getD false, createdBy := actorId : RepairPartUsage }
  return (mk d.usages.next, { d with usages := d.usages.insert mk })

/-- `repo.audit`. -/
def auditUse (actorId : ℕ) (job : RepairJob) (usageId : ℕ) (reservationId : Option ℕ)
    (d : PartsDesk) : Except Failure (Unit × PartsDesk) :=
  .ok ((), { d with audits := d.audits.insert fun n =>
    ⟨n, "repair.parts.use", actorId, job.id, job.ticketId, usageId, reservationId⟩ })

/-- `token` holds the lock of the job, `stockToken` that of the stock. -/
def useSparePart (token stockToken actorId : ℕ) (dto : UseSparePartDto) : PartsProg SparePartUse :=
  LockService.withLock dto.repairJobId token do
    let foundJob ← query (.findJob dto.repairJobId) fun _ d =>
      (d.jobs.find? dto.repairJobId).filter fun j => !j.deleted
    let job ← Prog.orThrow (.throwApp .notFound "Repair job not found" 404) foundJob
    let foundPart ← query (.findPart dto.repairPartId) fun _ d =>
      (d.parts.find? dto.repairPartId).filter fun p => !p.deleted
    let part ← Prog.orThrow (.throwApp .notFound "Spare part not found" 404) foundPart
    let warehouseId := dto.warehouseId <|> part.warehouseId
    let reservationId ← reservePart stockToken dto.quantity part.variantId warehouseId
    let usage ← atomic (.createUsage dto.repairJobId dto.repairPartId) fun _ d =>
      createUsage actorId dto part warehouseId d
    atomic (.audit usage.id) fun _ d => auditUse actorId job usage.id reservationId d
    pure ⟨usage.id, reservationId, usage.quantity⟩

/-! ### What a request leaves of the stock -/

/-- The transaction over the rows of the stock, committed. -/
def commitsStock (c : Entry PartsCall ShopInput PartsDesk) : Bool :=
  match c.label with
  | .shop l => Inventory.commitsRows ⟨c.caller, l, c.input, c.before.shop⟩
  | _ => false

variable {s : Shop} {u v : Journaled PartsCall ShopInput PartsDesk}

/-- The stock is as before unless the transaction was committed. -/
def StockLeft (s : Shop) (u : Journaled PartsCall ShopInput PartsDesk) : Prop :=
  Inventory.AsBefore s u.state.shop ↔ ∀ c ∈ u.journal, commitsStock c = false

structure StockKept (s : Shop) (u : Journaled PartsCall ShopInput PartsDesk) : Prop where
  shop : u.state.shop = s
  journal : ∀ c ∈ u.journal, commitsStock c = false

theorem StockKept.left (h : StockKept s u) : StockLeft s u := by
  refine iff_of_true ?_ h.journal
  rw [h.shop]
  exact ⟨rfl, rfl⟩

theorem StockKept.record {l : PartsCall} {i : ShopInput} {d : PartsDesk} (h : StockKept s u)
    (hs : d.shop = u.state.shop) (hc : commitsStock ⟨0, l, i, u.state⟩ = false) :
    StockKept s (u.record 0 l i d) := by
  refine ⟨hs.trans h.shop, fun c hm => ?_⟩
  rw [Journaled.journal_record, List.mem_cons] at hm
  rcases hm with rfl | hm
  · exact hc
  · exact h.journal c hm

theorem StockLeft.record {l : PartsCall} {i : ShopInput} {d : PartsDesk} (h : StockLeft s u)
    (hs : d.shop = u.state.shop) (hc : commitsStock ⟨0, l, i, u.state⟩ = false) :
    StockLeft s (u.record 0 l i d) := by
  have hjournal : (∀ c ∈ (u.record 0 l i d).journal, commitsStock c = false) ↔
      ∀ c ∈ u.journal, commitsStock c = false := by
    rw [Journaled.journal_record, List.forall_mem_cons]
    exact and_iff_right hc
  rw [StockLeft, Journaled.state_record, hs, hjournal]
  exact h

/-- The two journals of a reservation say the same. -/
def SameStock (v : Journaled PartsCall ShopInput PartsDesk)
    (u : Journaled ShopCall ShopInput Shop) : Prop :=
  v.state.shop = u.state ∧
    ((∀ c ∈ v.journal, commitsStock c = false) ↔ ∀ c ∈ u.journal, Inventory.commitsRows c = false)

theorem SameStock.record {t : Journaled ShopCall ShopInput Shop} {l : ShopCall} {i : ShopInput}
    {s' : Shop} (h : SameStock v t) :
    SameStock (v.record 0 (.shop l) i { v.state with shop := s' }) (t.record 0 l i s') := by
  refine ⟨rfl, ?_⟩
  have hcommits : commitsStock ⟨0, .shop l, i, v.state⟩ =
      Inventory.commitsRows ⟨0, l, i, t.state⟩ := by
    rw [← h.1]
    rfl
  rw [Journaled.journal_record, Journaled.journal_record, List.forall_mem_cons, List.forall_mem_cons,
    hcommits, h.2]

abbrev Uses {α : Type} (Q : Journaled PartsCall ShopInput PartsDesk → Prop) (p : PartsProg α)
    (u : Journaled PartsCall ShopInput PartsDesk) : Prop :=
  Traced (fun _ _ _ => True) (fun _ => Q) p u

theorem onStock_reserve_left (token : ℕ) (dto : ReserveStockDto) (hpos : 1 ≤ dto.quantity)
    (hu : StockKept s u) : Uses (StockLeft s) (onStock (Inventory.reserve token dto)) u := by
  have hstart : SameStock u ⟨s, []⟩ := ⟨hu.shop, iff_of_true hu.journal (by simp)⟩
  unfold onStock
  refine (Traced.zoom (R := SameStock) (fun _ _ h => h.1) (fun _ _ _ _ _ h => h.record) hstart
    (Inventory.reserve_leaves token dto s)).mono ?_
  rintro - v ⟨t, ht, hleft⟩
  rw [StockLeft, ht.1, ht.2]
  refine hleft.trans (or_iff_right ?_)
  omega

theorem reservePart_left (token : ℕ) {quantity : ℤ} (hpos : 1 ≤ quantity)
    (variantId warehouseId : Option ℕ) (hu : StockKept s u) :
    Uses (StockLeft s) (reservePart token quantity variantId warehouseId) u := by
  rcases variantId with - | variantId
  · exact Traced.done hu.left
  rcases warehouseId with - | warehouseId
  · exact Traced.done hu.left
  refine Traced.bind (onStock_reserve_left token _ hpos hu) (fun _ _ h => ?_) fun _ _ h => h
  exact Traced.done h

theorem using_left (stockToken actorId : ℕ) (dto : UseSparePartDto) (hu : StockKept s u) :
    Uses (StockLeft s) (do
      let foundJob ← query (.findJob dto.repairJobId) fun _ d =>
        (d.jobs.find? dto.repairJobId).filter fun j => !j.deleted
      let job ← Prog.orThrow (.throwApp .notFound "Repair job not found" 404) foundJob
      let foundPart ← query (.findPart dto.repairPartId) fun _ d =>
        (d.parts.find? dto.repairPartId).filter fun p => !p.deleted
      let part ← Prog.orThrow (.throwApp .notFound "Spare part not found" 404) foundPart
      let warehouseId := dto.warehouseId <|> part.warehouseId
      let reservationId ← reservePart stockToken dto.quantity part.variantId warehouseId
      let usage ← atomic (.createUsage dto.repairJobId dto.repairPartId) fun _ d =>
        createUsage actorId dto part warehouseId d
      atomic (.audit usage.id) fun _ d => auditUse actorId job usage.id reservationId d
      pure (SparePartUse.mk usage.id reservationId usage.quantity)) u := by
  simp only [Prog.bind_eq]
  refine Traced.queryBind (fun i _ _ => ?_) fun i _ _ => (hu.record rfl rfl).left
  have hjob := hu.record (l := .findJob dto.repairJobId) (i := i) (d := u.state) rfl rfl
  refine Traced.orThrowBind (fun job _ => ?_) fun _ => hjob.left
  refine Traced.queryBind (fun i' _ _ => ?_) fun i' _ _ => (hjob.record rfl rfl).left
  have hpart := hjob.record (l := .findPart dto.repairPartId) (i := i') (d := u.state) rfl rfl
  refine Traced.orThrowBind (fun part _ => ?_) fun _ => hpart.left
  refine Traced.bind (reservePart_left stockToken dto.quantity_pos _ _ hpart)
    (fun reservationId v hv => ?_) fun _ _ h => h
  refine Traced.atomicBind (fun i usage d _ _ hd => ?_) fun i e _ _ => hv.record rfl rfl
  have hshop : d.shop = v.state.shop := by
    simp only [createUsage, bind_eq_ok, check_eq_ok, pure_eq_ok] at hd
    obtain ⟨-, -, -, -, -, -, -, -, -, -, hd⟩ := hd
    obtain ⟨-, rfl⟩ := Prod.mk.inj hd
    rfl
  have husage := hv.record (l := .createUsage dto.repairJobId dto.repairPartId) (i := i) hshop rfl
  refine Traced.atomicBind (fun i' _ d' _ _ hd' => ?_) fun i' e _ _ => husage.record rfl rfl
  obtain ⟨-, rfl⟩ := Prod.mk.inj (Except.ok.inj hd')
  exact Traced.done (husage.record rfl rfl)

theorem useSparePart_left (token stockToken actorId : ℕ) (dto : UseSparePartDto) (d : PartsDesk) :
    Uses (StockLeft d.shop) (useSparePart token stockToken actorId dto) ⟨d, []⟩ := by
  have hstart : StockKept d.shop ⟨d, []⟩ := by
    refine ⟨rfl, ?_⟩
    simp
  refine Traced.withLock_blind (P := StockKept d.shop)
    (fun u hu => using_left stockToken actorId dto hu) ?_ ?_ ?_ ?_ ?_
  · exact fun i m => hstart.record rfl rfl
  · exact fun e i => (hstart.record rfl rfl).left
  · exact fun r i m u hu => hu.record rfl rfl
  · exact fun r i u hu => hu.record rfl rfl
  · exact fun e r i u hu => hu.record rfl rfl

/-- A rejected request leaves the stock as it was exactly when no transaction over the rows was
committed: nothing takes a reservation back. -/
theorem useSparePart_as_before_iff (token stockToken actorId : ℕ) (dto : UseSparePartDto)
    (d : PartsDesk) (inputs : List ShopInput) (e : Failure)
    (h : (Pool.solo (useSparePart token stockToken actorId dto) d inputs).result? =
      some (.error e)) :
    Inventory.AsBefore d.shop
        (Pool.solo (useSparePart token stockToken actorId dto) d inputs).state.shop ↔
      ∀ c ∈ Pool.callsOf (useSparePart token stockToken actorId dto) d inputs,
        commitsStock c = false := by
  have hleft := solo_traced (useSparePart_left token stockToken actorId dto d)
    (Pool.soloAdmits_of_forall fun _ _ _ _ => trivial) h
  exact hleft

/-- A repair and a part that is kept in the warehouse with five units. -/
def workshop : PartsDesk where
  shop := Inventory.fiveUnits
  jobs := Table.empty.insert fun n => { id := n, ticketId := 0 }
  parts := Table.empty.insert fun n => { id := n, variantId := some 1, warehouseId := some 0 }

def refusedUsage : List ShopInput :=
  Inventory.answers 11 ++ [{ fails := true, reply := {} }] ++ Inventory.answers 1

/-- Nine units are not there, and nothing is touched. -/
theorem scarce_part_as_before :
    let p := Pool.solo (useSparePart 0 1 7 ⟨0, 0, 9, none, none, by decide⟩) workshop
      (Inventory.answers 8)
    p.result? = some (.error (Inventory.insufficientStock 5 9)) ∧
      Inventory.AsBefore workshop.shop p.state.shop := by
  have hend : (Pool.solo (useSparePart 0 1 7 ⟨0, 0, 9, none, none, by decide⟩) workshop
      (Inventory.answers 8)).result? = some (.error (Inventory.insufficientStock 5 9)) := by
    decide +kernel
  exact ⟨hend, (useSparePart_as_before_iff 0 1 7 ⟨0, 0, 9, none, none, by decide⟩ workshop
    (Inventory.answers 8) _ hend).mpr (by decide +kernel)⟩

/-- The usage is refused after the reservation: the request throws and two units stay reserved. -/
theorem refused_usage_keeps_units :
    ¬ ∀ (token stockToken actorId : ℕ) (dto : UseSparePartDto) (d : PartsDesk)
        (inputs : List ShopInput) (e : Failure),
      (Pool.solo (useSparePart token stockToken actorId dto) d inputs).result? = some (.error e) →
      (∃ c ∈ Pool.callsOf (useSparePart token stockToken actorId dto) d inputs,
        commitsStock c = true) →
        Inventory.AsBefore d.shop
          (Pool.solo (useSparePart token stockToken actorId dto) d inputs).state.shop := by
  intro h
  have hleft := h 0 1 7 ⟨0, 0, 2, none, none, by decide⟩ workshop refusedUsage .database
    (by decide +kernel) (by decide +kernel)
  have hmoved : Inventory.quantities
      (Pool.solo (useSparePart 0 1 7 ⟨0, 0, 2, none, none, by decide⟩) workshop
        refusedUsage).state.shop.inventory ≠ Inventory.quantities workshop.shop.inventory := by
    decide +kernel
  exact hmoved hleft.1

end ElectronicsCart.Warranty
