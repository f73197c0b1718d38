import ElectronicsCart.Inventory.StockRuns

/-!
# Cached stock

`InventoryCacheService` of `inventory-cache.service.ts` over `shared/cache/cache.service.ts`, with
the reads that go through it (`getStock`, `warehouseAvailability`) and the cache calls of the
methods that change stock.  A value is kept until its key is deleted, and a key is spelled as its
request spells the ids.

The methods run here without their lock, which only excludes other changes of the stock.
-/

namespace ElectronicsCart.Inventory

open Interleaving Relational

/-! ### Values -/

/-- The columns of an `inventory` row that no stock operation writes. -/
structure StockColumns where
  damaged : ℤ := 0
  inTransit : ℤ := 0
deriving DecidableEq, Repr

structure WarehouseColumns where
  code : String := ""
  name : String := ""
deriving DecidableEq, Repr

/-- `_sum` of the four quantities. -/
structure StockSums where
  available : ℤ
  reserved : ℤ
  damaged : ℤ
  inTransit : ℤ
deriving DecidableEq, Repr

/-- How the database reads the text of a uuid, and how it prints one. -/
structure Uuids where
  read : String → Option ℕ
  print : ℕ → String
  read_print : ∀ n, read (print n) = some n

def Uuids.printed (names : Uuids) (n : ℕ) : UuidText names.read := ⟨names.print n, n, names.read_print n⟩

/-- What `getStock` answers; it repeats the ids as it was given them. -/
structure StockView extends StockSums where
  warehouseId : String
  variantId : String
deriving DecidableEq, Repr

/-- One warehouse of what `warehouseAvailability` answers. -/
structure AvailabilityView extends StockView where
  warehouse : WarehouseColumns
deriving DecidableEq, Repr

/-- `INVENTORY_CACHE.stock` and `INVENTORY_CACHE.availability`. -/
inductive StockKey (names : Uuids) where
  | stock (warehouseId variantId : UuidText names.read)
  | availability (variantId : UuidText names.read)
deriving DecidableEq, Repr

inductive StockValue where
  | stock (view : StockView)
  | availability (views : List AvailabilityView)
deriving DecidableEq, Repr

/-! ### State and calls -/

structure StockDesk (names : Uuids) where
  shop : Shop := {}
  columns : ℕ → StockColumns := fun _ => {}
  warehouseColumns : ℕ → WarehouseColumns := fun _ => {}
  cache : StockKey names → Option StockValue := fun _ => none

inductive StockDeskCall (names : Uuids) where
  | get (key : StockKey names)
  | set (key : StockKey names)
  | del (key : StockKey names)
  /-- the read of the rows behind the key -/
  | load (key : StockKey names)
  | findWarehouses
  | shop (call : ShopCall)
deriving DecidableEq, Repr

abbrev StockDeskProg (names : Uuids) := Prog (StockDeskCall names) ShopInput (StockDesk names) Failure

variable {names : Uuids}

def onShop {α : Type} (p : ShopProg α) : StockDeskProg names α :=
  p.zoom .shop StockDesk.shop fun s t => { t with shop := s }

/-! ### Cache -/

def cacheGet (key : StockKey names) : StockDeskProg names (Option StockValue) :=
  Prog.call (.get key) fun i t => (.ok (if i.fails then none else t.cache key), t)

def cacheSet (key : StockKey names) (value : StockValue) : StockDeskProg names Unit :=
  Prog.call (.set key) fun i t => (.ok (),
    if i.fails then t else { t with cache := Function.update t.cache key (some value) })

/-- Fail-open: the error is only logged. -/
def cacheDel (key : StockKey names) : StockDeskProg names Unit :=
  Prog.call (.del key) fun i t => (.ok (),
    if i.fails then t else { t with cache := Function.update t.cache key none })

def getOrSet (key : StockKey names) (factory : StockDeskProg names StockValue) :
    StockDeskProg names StockValue := do
  let hit ← cacheGet key
  match hit with
  | some value => pure value
  | none => do
    let value ← factory
    cacheSet key value
    pure value

def invalidateStock (warehouseId variantId : UuidText names.read) : StockDeskProg names Unit := do
  cacheDel (.stock warehouseId variantId)
  cacheDel (.availability variantId)

/-! ### Reads -/

def sums (columns : ℕ → StockColumns) (rows : List InventoryRow) : StockSums where
  available := (rows.map InventoryRow.available).sum
  reserved := (rows.map InventoryRow.reserved).sum
  damaged := (rows.map fun r => (columns r.id).damaged).sum
  inTransit := (rows.map fun r => (columns r.id).inTransit).sum

/-- `stockSummary`. -/
def stockSummary (warehouseId variantId : ℕ) (t : StockDesk names) : StockSums :=
  sums t.columns (t.shop.inventory.rows.filter (listed warehouseId variantId))

def stockView (warehouseId variantId : UuidText names.read) (t : StockDesk names) : StockValue :=
  .stock ⟨stockSummary warehouseId.id variantId.id t, warehouseId.text, variantId.text⟩

def listedOf (variantId : ℕ) (r : InventoryRow) : Bool :=
  r.variantId == variantId && r.active && !r.deleted

/-- `availabilityByVariant`; the groups come in any order. -/
def availabilityByVariant (rank : ℕ → ℕ) (variantId : ℕ) (t : StockDesk names) : List (ℕ × StockSums) :=
  let rows := t.shop.inventory.rows.filter (listedOf variantId)
  let ids := ((rows.map InventoryRow.warehouseId).dedup).insertionSort fun a b => rank a ≤ rank b
  ids.map fun id => (id, sums t.columns (rows.filter fun r => r.warehouseId == id))

/-- The warehouses that are not deleted, by id. -/
def findWarehouses (t : StockDesk names) (id : ℕ) : WarehouseColumns :=
  if ((t.shop.warehouses.find? id).filter fun w => !w.deleted).isSome then t.warehouseColumns id else {}

def withWarehouses (variantId : UuidText names.read) (warehouses : ℕ → WarehouseColumns)
    (groups : List (ℕ × StockSums)) : StockValue :=
  .availability (groups.map fun g => {
    toStockSums := g.2
    warehouseId := names.print g.1
    variantId := variantId.text
    warehouse := warehouses g.1 })

def getStock (warehouseId variantId : UuidText names.read) : StockDeskProg names StockValue := do
  let _ ← onShop (requireWarehouse warehouseId.id)
  getOrSet (.stock warehouseId variantId)
    (query (.load (.stock warehouseId variantId)) fun _ t => stockView warehouseId variantId t)

def warehouseAvailability (variantId : UuidText names.read) : StockDeskProg names StockValue :=
  getOrSet (.availability variantId) do
    let groups ← query (.load (.availability variantId)) fun i t =>
      availabilityByVariant i.rank variantId.id t
    let warehouses ← query .findWarehouses fun _ t => findWarehouses t
    pure (withWarehouses variantId warehouses groups)

inductive StockRead (names : Uuids) where
  | stock (warehouseId variantId : UuidText names.read)
  | availability (variantId : UuidText names.read)
deriving DecidableEq, Repr

def StockRead.prog : StockRead names → StockDeskProg names Unit
  | .stock warehouseId variantId => do let _ ← getStock warehouseId variantId
  | .availability variantId => do let _ ← warehouseAvailability variantId

/-! ### Changes -/

/-- The statements of each method up to its cache calls, with the pairs that are invalidated. -/
def StockRequest.change : StockRequest → ShopProg (List (ℕ × ℕ))
  | .reserve dto => do
    let _ ← requireWarehouse dto.warehouseId
    let rows ← query (.stock (.findRows dto.warehouseId dto.variantId)) fun i s =>
      findRows i.rank dto.warehouseId dto.variantId s.inventory
    Prog.ensure (dto.quantity ≤ totalAvailable rows)
      (insufficientStock (totalAvailable rows) dto.quantity)
    atomic (.stock (.reserveRows dto rows)) fun _ s => reserveRows dto rows s
    let reservation ← atomic (.stock (.createReservation dto)) fun i s =>
      createReservation dto i.now s
    createMovement dto.warehouseId dto.variantId .reservation dto.quantity "stock_reservation"
      reservation.id none
    pure [(dto.warehouseId, dto.variantId)]
  | .release reservationId => do
    let found ← query (.stock (.findReservation reservationId)) fun _ s =>
      (s.reservations.find? reservationId).filter fun r => !r.deleted
    let reservation ← Prog.orThrow (.throwApp .notFound "Reservation not found" 404) found
    Prog.ensure (reservation.status = .active) (notReleasable reservation.status)
    let rows ← query (.stock (.findRows reservation.warehouseId reservation.variantId)) fun i s =>
      findRows i.rank reservation.warehouseId reservation.variantId s.inventory
    atomic (.stock (.releaseRows reservation rows)) fun _ s => releaseRows reservation rows s
    createMovement reservation.warehouseId reservation.variantId .reservationRelease
      reservation.quantity "stock_reservation" reservation.id none
    pure [(reservation.warehouseId, reservation.variantId)]
  | .adjust dto => do
    let _ ← requireWarehouse dto.warehouseId
    let bin ← query (.stock (.findBin dto.binId)) fun _ s =>
      (s.bins.find? dto.binId).filter fun b => !b.deleted
    Prog.ensure (bin.any (fun b => b.warehouseId == dto.warehouseId) = true)
      (.throwApp .badRequest "Bin does not belong to warehouse" 400)
    let row ← query (.stock (.findRow dto.binId dto.variantId)) fun _ s =>
      findRow dto.binId dto.variantId s.inventory
    Prog.ensure (0 ≤ (row.map InventoryRow.available).getD 0 + dto.quantityDelta)
      (.throwApp .conflict "Adjustment would make available quantity negative" 409)
    changeRow dto row
    let adjustment ← atomic (.stock (.createAdjustment dto)) fun _ s => createAdjustment dto s
    createMovement dto.warehouseId dto.variantId .adjustment dto.quantityDelta
      "inventory_adjustment" adjustment.id dto.notes
    pure [(dto.warehouseId, dto.variantId)]
  | .goodsReceipt dto => do
    let found ← query (.stock (.findGrn dto.grnNumber)) fun _ s =>
      s.goodsReceipts.first? fun g => g.grnNumber == dto.grnNumber && !g.deleted
    Prog.ensure (found = none) (.throwApp .conflict "GRN number already exists" 409)
    Prog.ensure (dto.items ≠ []) (.throwApp .badRequest "GRN requires items" 400)
    let _ ← requireWarehouse dto.warehouseId
    let _ ← atomic (.stock (.postGoodsReceipt dto)) fun _ s => postGoodsReceipt dto s
    pure (dto.items.map fun item => (dto.warehouseId, item.variantId))
  | .transfer dto => do
    Prog.ensure (dto.fromWarehouseId ≠ dto.toWarehouseId)
      (.throwApp .badRequest "Warehouses must differ" 400)
    let found ← query (.stock (.findTransfer dto.transferNumber)) fun _ s =>
      s.transfers.first? fun t => t.transferNumber == dto.transferNumber && !t.deleted
    Prog.ensure (found = none) (.throwApp .conflict "Transfer number already exists" 409)
    let _ ← requireWarehouse dto.fromWarehouseId
    let _ ← requireWarehouse dto.toWarehouseId
    let _ ← atomic (.stock (.postTransfer dto)) fun _ s => postTransfer dto s
    pure (dto.items.flatMap fun item =>
      [(dto.fromWarehouseId, item.variantId), (dto.toWarehouseId, item.variantId)])

def StockRequest.after : StockRequest → ShopProg Unit
  | .reserve dto => maybeLowStock dto.warehouseId dto.variantId
  | .adjust dto => maybeLowStock dto.warehouseId dto.variantId
  | _ => pure ()

def invalidateAll : List (UuidText names.read × UuidText names.read) → StockDeskProg names Unit
  | [] => pure ()
  | pair :: pairs => do
    invalidateStock pair.1 pair.2
    invalidateAll pairs

/-- The pairs that a request itself names; `release` has them from the row of the reservation. -/
def StockRequest.named? : StockRequest → Option (List (ℕ × ℕ))
  | .reserve dto => some [(dto.warehouseId, dto.variantId)]
  | .release _ => none
  | .adjust dto => some [(dto.warehouseId, dto.variantId)]
  | .goodsReceipt dto => some (dto.items.map fun item => (dto.warehouseId, item.variantId))
  | .transfer dto => some (dto.items.flatMap fun item =>
      [(dto.fromWarehouseId, item.variantId), (dto.toWarehouseId, item.variantId)])

/-- A request with the pairs that it names as it spells them. -/
structure StockChange (names : Uuids) where
  request : StockRequest
  spelled : List (UuidText names.read × UuidText names.read)
  fits : ∀ pairs, request.named? = some pairs → spelled.map (fun p => (p.1.id, p.2.id)) = pairs

def StockChange.invalidated (c : StockChange names) (pairs : List (ℕ × ℕ)) :
    List (UuidText names.read × UuidText names.read) :=
  match c.request.named? with
  | some _ => c.spelled
  | none => pairs.map fun p => (names.printed p.1, names.printed p.2)

def StockChange.mutate (c : StockChange names) : StockDeskProg names Unit := do
  let pairs ← onShop c.request.change
  invalidateAll (c.invalidated pairs)
  onShop c.request.after

end ElectronicsCart.Inventory
