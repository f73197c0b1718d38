import ElectronicsCart.Shop.State
import Mathlib.Data.List.Sort

/-!
# Inventory service

`InventoryService.reserve`, `releaseReservation`, `adjust`, `createGoodsReceipt` and
`createTransfer` of `modules/inventory/services/inventory.service.ts`, with the queries
of `inventory.repository.ts`.

A reservation is spread over the bins of a warehouse in the order of their available
quantity, and given back over the bins in that order at the time of the release.  The
stock of a reservation moves in one transaction; its own row and the movement are written
by later calls.
-/

namespace ElectronicsCart.Inventory

open Interleaving Relational

/-! ### Rows -/

/-- The filter of `findRows`. -/
def listed (warehouseId variantId : ℕ) (r : InventoryRow) : Bool :=
  r.warehouseId == warehouseId && r.variantId == variantId && r.active && !r.deleted

/-- The order of `findRows`; rows with the same quantity come as the database likes. -/
def Before (rank : ℕ → ℕ) (a b : InventoryRow) : Prop :=
  b.available < a.available ∨ a.available = b.available ∧ rank a.id ≤ rank b.id

instance (rank : ℕ → ℕ) : DecidableRel (Before rank) := fun a b => by
  unfold Before
  infer_instance

def findRows (rank : ℕ → ℕ) (warehouseId variantId : ℕ) (T : Table InventoryRow) :
    List InventoryRow :=
  (T.rows.filter (listed warehouseId variantId)).insertionSort (Before rank)

def findRow (binId variantId : ℕ) (T : Table InventoryRow) : Option InventoryRow :=
  T.first? fun r => r.binId == binId && r.variantId == variantId && !r.deleted

def totalAvailable (rows : List InventoryRow) : ℤ := (rows.map InventoryRow.available).sum

/-- Moves `t` units from available to reserved. -/
def shift (t : ℤ) (r : InventoryRow) : InventoryRow :=
  { r with available := r.available - t, reserved := r.reserved + t }

@[simp] theorem key_shift (t : ℤ) (r : InventoryRow) : key (shift t r) = key r := rfl

def addUnits (n : ℤ) (r : InventoryRow) : InventoryRow := { r with available := r.available + n }

@[simp] theorem key_addUnits (n : ℤ) (r : InventoryRow) : key (addUnits n r) = key r := rfl

/-- The types and `CHECK`s of the two quantity columns. -/
def validRow (r : InventoryRow) : Bool :=
  fitsInt4 r.available && decide (0 ≤ r.available) && fitsInt4 r.reserved && decide (0 ≤ r.reserved)

/-- `inventory.update` of one row. -/
def updateRow (id : ℕ) (g : InventoryRow → InventoryRow) (hg : ∀ r, key (g r) = key r)
    (T : Table InventoryRow) : Except Failure (Table InventoryRow) := do
  let r ← existing T id
  check (validRow (g r)) "inventory_quantity_check"
  return T.update id g hg

/-- `inventory.create`. -/
def createRow (warehouseId binId variantId : ℕ) (available : ℤ) (s : Shop) :
    Except Failure (InventoryRow × Shop) := do
  check (s.variants.contains variantId) "inventory_variant_id_fkey"
  check (s.inventory.rows.all fun r => r.deleted || r.binId != binId || r.variantId != variantId)
    "uq_inventory_bin_variant_active"
  let mk := fun n => { id := n, warehouseId, binId, variantId, available : InventoryRow }
  check (validRow (mk s.inventory.next)) "inventory_quantity_check"
  return (mk s.inventory.next, { s with inventory := s.inventory.insert mk })

/-- The loop over the rows read before: takes from each what it holds (`cap`) until nothing
remains, and shifts the row by that many units in the direction of `sign`. -/
def moveUnits (cap : InventoryRow → ℤ) (sign : ℤ) :
    List InventoryRow → ℤ → Table InventoryRow → Except Failure (ℤ × Table InventoryRow)
  | [], remaining, T => .ok (remaining, T)
  | row :: rows, remaining, T =>
    if remaining ≤ 0 then .ok (remaining, T)
    else
      let take := min (cap row) remaining
      if take ≤ 0 then moveUnits cap sign rows remaining T
      else do
        let T ← updateRow row.id (shift (sign * take)) (key_shift _) T
        moveUnits cap sign rows (remaining - take) T

/-! ### Helpers -/

def requireWarehouse (id : ℕ) : ShopProg Warehouse := do
  let found ← query (.stock (.findWarehouse id)) fun _ s =>
    (s.warehouses.find? id).filter fun w => !w.deleted
  Prog.orThrow (.throwApp .notFound "Warehouse not found" 404) found

/-- `inventoryMovement.create`. -/
def insertMovement (mk : ℕ → InventoryMovement) (hmk : ∀ n, key (mk n) = n) (s : Shop) :
    Except Failure Shop := do
  let m := mk s.movements.next
  check ((s.warehouses.find? m.warehouseId).isSome && s.variants.contains m.variantId)
    "inventory_movements_fkey"
  check (fitsInt4 m.quantity && decide (m.quantity ≠ 0)) "inventory_movements_quantity_check"
  return { s with movements := s.movements.insert mk hmk }

def createMovement (warehouseId variantId : ℕ) (type : MovementType) (quantity : ℤ)
    (referenceType : String) (referenceId : ℕ) (notes : Option String) : ShopProg Unit :=
  atomic (.stock (.createMovement type)) fun _ s => do
    let s ← insertMovement
      (fun n => ⟨n, warehouseId, variantId, type, quantity, referenceType, referenceId, notes⟩)
      (fun _ => rfl) s
    return ((), s)

def createAlert (warehouseId variantId : ℕ) (available reorder : ℤ) (s : Shop) :
    Except Failure (Unit × Shop) := do
  check (fitsInt4 available && decide (0 ≤ available)) "low_stock_alerts_available_quantity_check"
  return ((), { s with alerts := s.alerts.insert fun n =>
    { id := n, warehouseId, variantId, available, reorderLevel := reorder } })

def maybeLowStock (warehouseId variantId : ℕ) : ShopProg Unit := do
  let rows ← query (.stock (.findRows warehouseId variantId)) fun i s =>
    findRows i.rank warehouseId variantId s.inventory
  let available := totalAvailable rows
  let reorder := (rows.map InventoryRow.reorderLevel).foldr max 0
  if reorder ≤ 0 ∨ reorder < available then pure ()
  else do
    let existing ← query (.stock (.findAlert warehouseId variantId)) fun _ s =>
      s.alerts.first? fun a => a.warehouseId == warehouseId && a.variantId == variantId &&
        a.status == .opened && !a.deleted
    if existing.isSome then pure ()
    else atomic (.stock (.createAlert warehouseId variantId)) fun _ s =>
      createAlert warehouseId variantId available reorder s

/-! ### Reserve and release -/

def insufficientStock (available requested : ℤ) : Failure :=
  .throwApp .conflict
    ("Insufficient stock: available " ++ toString available ++ ", requested " ++ toString requested)
    409

/-- The transaction of `reserve`. -/
def reserveRows (dto : ReserveStockDto) (rows : List InventoryRow) (s : Shop) :
    Except Failure (Unit × Shop) := do
  let (_, T) ← moveUnits InventoryRow.available 1 rows dto.quantity s.inventory
  return ((), { s with inventory := T })

def defaultReservationTtlMinutes : ℕ := 30

def expiresAt (dto : ReserveStockDto) (now : ℕ) : ℕ :=
  now + dto.ttlMinutes.getD defaultReservationTtlMinutes * 60000

def connects (dto : ReserveStockDto) (s : Shop) : Bool :=
  dto.cartId.all (fun id => (s.carts.find? id).isSome) &&
    dto.orderId.all fun id => (s.orders.find? id).isSome

/-- `stockReservation.create`. -/
def createReservation (dto : ReserveStockDto) (now : ℕ) (s : Shop) :
    Except Failure (StockReservation × Shop) := do
  check (decide (expiresAt dto now ≤ s.lastDate)) "expires_at"
  check ((s.warehouses.find? dto.warehouseId).isSome && s.variants.contains dto.variantId) "P2025"
  check (connects dto s) "P2025"
  check (fitsInt4 dto.quantity && decide (0 < dto.quantity)) "stock_reservations_quantity_check"
  check (dto.sessionKey.all (fitsVarchar 64)) "session_key"
  let mk := fun n =>
    { id := n, warehouseId := dto.warehouseId, variantId := dto.variantId,
      quantity := dto.quantity, cartId := dto.cartId, orderId := dto.orderId,
      sessionKey := dto.sessionKey, expiresAt := expiresAt dto now : StockReservation }
  return (mk s.reservations.next, { s with reservations := s.reservations.insert mk })

def reserve (token : ℕ) (dto : ReserveStockDto) : ShopProg StockReservation :=
  LockService.withLock (.stock dto.warehouseId dto.variantId) token do
    let _ ← requireWarehouse dto.warehouseId
    let rows ← query (.stock (.findRows dto.warehouseId dto.variantId)) fun i s =>
      findRows i.rank dto.warehouseId dto.variantId s.inventory
    Prog.ensure (dto.quantity ≤ totalAvailable rows)
      (insufficientStock (totalAvailable rows) dto.quantity)
    atomic (.stock (.reserveRows dto rows)) fun _ s => reserveRows dto rows s
    let reservation ← atomic (.stock (.createReservation dto)) fun i s =>
      createReservation dto i.now s
    createMovement dto.warehouseId dto.variantId .reservation dto.quantity "stock_reservation"
      reservation.id none
    maybeLowStock dto.warehouseId dto.variantId
    pure reservation

/-- The transaction of `releaseReservation`. -/
def releaseRows (reservation : StockReservation) (rows : List InventoryRow) (s : Shop) :
    Except Failure (Unit × Shop) := do
  let (_, T) ← moveUnits InventoryRow.reserved (-1) rows reservation.quantity s.inventory
  let _ ← existing s.reservations reservation.id
  return ((), { s with
    inventory := T
    reservations := s.reservations.update reservation.id fun r => { r with status := .released } })

def notReleasable (status : ReservationStatus) : Failure :=
  .throwApp .conflict ("Reservation is " ++ status.text ++ ", cannot release") 409

def releaseReservation (token : ℕ) (reservationId : ℕ) : ShopProg Unit := do
  let found ← query (.stock (.findReservation reservationId)) fun _ s =>
    (s.reservations.find? reservationId).filter fun r => !r.deleted
  let reservation ← Prog.orThrow (.throwApp .notFound "Reservation not found" 404) found
  Prog.ensure (reservation.status = .active) (notReleasable reservation.status)
  LockService.withLock (.stock reservation.warehouseId reservation.variantId) token do
    let rows ← query (.stock (.findRows reservation.warehouseId reservation.variantId)) fun i s =>
      findRows i.rank reservation.warehouseId reservation.variantId s.inventory
    atomic (.stock (.releaseRows reservation rows)) fun _ s => releaseRows reservation rows s
    createMovement reservation.warehouseId reservation.variantId .reservationRelease
      reservation.quantity "stock_reservation" reservation.id none

/-! ### Adjust -/

/-- `inventoryAdjustment.create`; the reason is checked by the database client. -/
def createAdjustment (dto : AdjustStockDto) (s : Shop) :
    Except Failure (InventoryAdjustment × Shop) := do
  let reason ← (AdjustmentReason.parse (dto.reason.getD "correction")).elim
    (.error (.constraint "reason")) .ok
  check ((s.warehouses.find? dto.warehouseId).isSome && s.variants.contains dto.variantId)
    "inventory_adjustments_fkey"
  check (fitsInt4 dto.quantityDelta && decide (dto.quantityDelta ≠ 0))
    "inventory_adjustments_quantity_delta_check"
  let mk := fun n =>
    InventoryAdjustment.mk n dto.warehouseId dto.variantId dto.quantityDelta reason dto.notes
  return (mk s.adjustments.next, { s with adjustments := s.adjustments.insert mk })

/-- `inventory.update` with an increment of the available quantity. -/
def adjustRow (id : ℕ) (dto : AdjustStockDto) (s : Shop) : Except Failure (Unit × Shop) := do
  let T ← updateRow id (addUnits dto.quantityDelta) (key_addUnits _) s.inventory
  return ((), { s with inventory := T })

/-- The row that was read is changed; without one, a row is created. -/
def changeRow (dto : AdjustStockDto) : Option InventoryRow → ShopProg Unit
  | none => do
    Prog.ensure (0 ≤ dto.quantityDelta) (.throwApp .conflict "No inventory row to decrement" 409)
    let _ ← atomic (.stock (.createRow dto)) fun _ s =>
      createRow dto.warehouseId dto.binId dto.variantId dto.quantityDelta s
  | some r => atomic (.stock (.adjustRow r.id dto)) fun _ s => adjustRow r.id dto s

def adjust (token : ℕ) (dto : AdjustStockDto) : ShopProg InventoryAdjustment :=
  LockService.withLock (.stock dto.warehouseId dto.variantId) token do
    let _ ← requireWarehouse dto.warehouseId
    let bin ← query (.stock (.findBin dto.binId)) fun _ s =>
      (s.bins.find? dto.binId).filter fun b => !b.deleted
    Prog.ensure (bin.any (fun b => b.warehouseId == dto.warehouseId) = true)
      (.throwApp .badRequest "Bin does not belong to warehouse" 400)
    let row ← query (.stock (.findRow dto.binId dto.variantId)) fun _ s =>
      findRow dto.binId dto.variantId s.inventory
    Prog.ensure (0 ≤ (row.map InventoryRow.available).getD 0 + dto.quantityDelta)
      (.throwApp .conflict "Adjustment would make available quantity negative" 409)
    changeRow dto row
    let adjustment ← atomic (.stock (.createAdjustment dto)) fun _ s => createAdjustment dto s
    createMovement dto.warehouseId dto.variantId .adjustment dto.quantityDelta
      "inventory_adjustment" adjustment.id dto.notes
    maybeLowStock dto.warehouseId dto.variantId
    pure adjustment

/-! ### Goods receipt -/

/-- Units that arrive in a bin: its row grows, or is created. -/
def receiveUnits (warehouseId binId variantId : ℕ) (quantity : ℤ) (s : Shop) :
    Except Failure Shop := do
  match findRow binId variantId s.inventory with
  | some r =>
    let T ← updateRow r.id (addUnits quantity) (key_addUnits _) s.inventory
    return { s with inventory := T }
  | none =>
    let (_, s) ← createRow warehouseId binId variantId quantity s
    return s

def receivePurchaseOrderItem (id : Option ℕ) (quantity : ℤ) (s : Shop) : Except Failure Shop :=
  match id with
  | none => .ok s
  | some id => do
    let item ← existing s.purchaseOrderItems id
    let received := item.quantityReceived + quantity
    check (fitsInt4 received && decide (received ≤ item.quantityOrdered))
      "chk_po_item_received_lte_ordered"
    return { s with purchaseOrderItems :=
      s.purchaseOrderItems.update id fun p => { p with quantityReceived := received } }

def createSerials (warehouseId : ℕ) (item : GoodsReceiptItemDto) :
    List String → Shop → Except Failure Shop
  | [], s => .ok s
  | serial :: rest, s =>
    if (s.serialNumbers.first? fun n => n.serialNumber == serial && !n.deleted).isSome then
      .error (.throwApp .conflict ("Serial already exists: " ++ serial) 409)
    else do
      check (fitsVarchar 120 serial && s.variants.contains item.variantId) "serial_numbers"
      createSerials warehouseId item rest { s with
        serialNumbers := s.serialNumbers.insert fun n =>
          ⟨n, serial, warehouseId, item.binId, item.variantId, item.purchaseOrderItemId, false⟩ }

def receiveItem (warehouseId receiptId : ℕ) (item : GoodsReceiptItemDto) (s : Shop) :
    Except Failure Shop := do
  let bin := (s.bins.find? item.binId).filter fun b => !b.deleted
  demand (bin.any fun b => b.warehouseId == warehouseId)
    (.throwApp .badRequest ("Bin " ++ toString item.binId ++ " not in warehouse") 400)
  check (s.variants.contains item.variantId &&
    item.purchaseOrderItemId.all (fun id => (s.purchaseOrderItems.find? id).isSome))
    "goods_receipt_items_fkey"
  check (fitsInt4 item.quantityReceived && decide (0 < item.quantityReceived) &&
    item.unitCost.all (fun c => decide (0 ≤ c ∧ c < 10000000000))) "goods_receipt_items_check"
  let s := { s with goodsReceiptItems := s.goodsReceiptItems.insert fun n =>
    ⟨n, receiptId, item.variantId, item.purchaseOrderItemId, item.quantityReceived, item.unitCost⟩ }
  let s ← receiveUnits warehouseId item.binId item.variantId item.quantityReceived s
  let s ← insertMovement
    (fun n => ⟨n, warehouseId, item.variantId, .purchase, item.quantityReceived, "goods_receipt",
      receiptId, none⟩) (fun _ => rfl) s
  let s ← receivePurchaseOrderItem item.purchaseOrderItemId item.quantityReceived s
  createSerials warehouseId item item.serialNumbers s

def receiveItems (warehouseId receiptId : ℕ) :
    List GoodsReceiptItemDto → Shop → Except Failure Shop
  | [], s => .ok s
  | item :: items, s => do
    let s ← receiveItem warehouseId receiptId item s
    receiveItems warehouseId receiptId items s

/-- The transaction of `createGoodsReceipt`. -/
def postGoodsReceipt (dto : CreateGoodsReceiptDto) (s : Shop) :
    Except Failure (GoodsReceipt × Shop) := do
  check (s.suppliers.contains dto.supplierId && (s.warehouses.find? dto.warehouseId).isSome &&
    dto.purchaseOrderId.all s.purchaseOrders.contains) "goods_receipts_fkey"
  check (fitsVarchar 64 dto.grnNumber) "grn_number"
  check (s.goodsReceipts.rows.all fun g => g.deleted || g.grnNumber != dto.grnNumber)
    "uq_goods_receipts_grn_number_active"
  let mk := fun n =>
    GoodsReceipt.mk n dto.grnNumber dto.supplierId dto.warehouseId dto.purchaseOrderId dto.notes false
  let receipt := mk s.goodsReceipts.next
  let s ← receiveItems dto.warehouseId receipt.id dto.items
    { s with goodsReceipts := s.goodsReceipts.insert mk }
  return (receipt, s)

def createGoodsReceipt (token : ℕ) (dto : CreateGoodsReceiptDto) : ShopProg GoodsReceipt := do
  let found ← query (.stock (.findGrn dto.grnNumber)) fun _ s =>
    s.goodsReceipts.first? fun g => g.grnNumber == dto.grnNumber && !g.deleted
  Prog.ensure (found = none) (.throwApp .conflict "GRN number already exists" 409)
  Prog.ensure (dto.items ≠ []) (.throwApp .badRequest "GRN requires items" 400)
  LockService.withLock (.grn dto.warehouseId) token do
    let _ ← requireWarehouse dto.warehouseId
    atomic (.stock (.postGoodsReceipt dto)) fun _ s => postGoodsReceipt dto s

/-! ### Transfer -/

def insufficientInBin (variantId : ℕ) : Failure :=
  .throwApp .conflict ("Insufficient stock in source bin for variant " ++ toString variantId) 409

def transferItem (dto : CreateTransferDto) (transferId : ℕ) (item : TransferItemDto) (s : Shop) :
    Except Failure Shop := do
  let source ← (findRow item.fromBinId item.variantId s.inventory).elim
    (.error (insufficientInBin item.variantId)) .ok
  demand (decide (item.quantity ≤ source.available)) (insufficientInBin item.variantId)
  demand (source.warehouseId == dto.fromWarehouseId)
    (.throwApp .badRequest "fromBin not in from warehouse" 400)
  let destBin := (s.bins.find? item.toBinId).filter fun b => !b.deleted
  demand (destBin.any fun b => b.warehouseId == dto.toWarehouseId)
    (.throwApp .badRequest "toBin not in to warehouse" 400)
  let T ← updateRow source.id (addUnits (-item.quantity)) (key_addUnits _) s.inventory
  let s ← receiveUnits dto.toWarehouseId item.toBinId item.variantId item.quantity
    { s with inventory := T }
  check (fitsInt4 item.quantity && decide (0 < item.quantity)) "stock_transfer_items_quantity_check"
  let s := { s with transferItems := s.transferItems.insert fun n =>
    ⟨n, transferId, item.variantId, item.quantity⟩ }
  let s ← insertMovement
    (fun n => ⟨n, dto.fromWarehouseId, item.variantId, .transferOut, item.quantity,
      "stock_transfer", transferId, none⟩) (fun _ => rfl) s
  insertMovement
    (fun n => ⟨n, dto.toWarehouseId, item.variantId, .transferIn, item.quantity,
      "stock_transfer", transferId, none⟩) (fun _ => rfl) s

def transferItems (dto : CreateTransferDto) (transferId : ℕ) :
    List TransferItemDto → Shop → Except Failure Shop
  | [], s => .ok s
  | item :: items, s => do
    let s ← transferItem dto transferId item s
    transferItems dto transferId items s

/-- The transaction of `createTransfer`. -/
def postTransfer (dto : CreateTransferDto) (s : Shop) : Except Failure (StockTransfer × Shop) := do
  check ((s.warehouses.find? dto.fromWarehouseId).isSome &&
    (s.warehouses.find? dto.toWarehouseId).isSome) "stock_transfers_fkey"
  check (fitsVarchar 64 dto.transferNumber) "transfer_number"
  check (s.transfers.rows.all fun t => t.deleted || t.transferNumber != dto.transferNumber)
    "uq_stock_transfers_number_active"
  let mk := fun n =>
    StockTransfer.mk n dto.transferNumber dto.fromWarehouseId dto.toWarehouseId dto.notes false
  let transfer := mk s.transfers.next
  let s ← transferItems dto transfer.id dto.items { s with transfers := s.transfers.insert mk }
  return (transfer, s)

def createTransfer (token : ℕ) (dto : CreateTransferDto) : ShopProg StockTransfer := do
  Prog.ensure (dto.fromWarehouseId ≠ dto.toWarehouseId)
    (.throwApp .badRequest "Warehouses must differ" 400)
  let found ← query (.stock (.findTransfer dto.transferNumber)) fun _ s =>
    s.transfers.first? fun t => t.transferNumber == dto.transferNumber && !t.deleted
  Prog.ensure (found = none) (.throwApp .conflict "Transfer number already exists" 409)
  let lockKey := ShopLock.transfer (min dto.fromWarehouseId dto.toWarehouseId)
    (max dto.fromWarehouseId dto.toWarehouseId)
  LockService.withLock lockKey token do
    let _ ← requireWarehouse dto.fromWarehouseId
    let _ ← requireWarehouse dto.toWarehouseId
    atomic (.stock (.postTransfer dto)) fun _ s => postTransfer dto s

end ElectronicsCart.Inventory
