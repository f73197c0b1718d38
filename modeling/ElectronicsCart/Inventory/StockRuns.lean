import ElectronicsCart.Inventory.Backing

/-!
# Sequential runs of the inventory service

Any sequence of reservations, releases, adjustments, goods receipts and transfers, each
finished before the next, keeps the reserved units equal to the active reservations, and
every release finds the units it gives back, as long as the reservation row of each
`reserve` is accepted.
-/

namespace ElectronicsCart.Inventory

open Interleaving Relational Allocation

inductive StockRequest where
  | reserve (dto : ReserveStockDto)
  | release (reservationId : ℕ)
  | adjust (dto : AdjustStockDto)
  | goodsReceipt (dto : CreateGoodsReceiptDto)
  | transfer (dto : CreateTransferDto)
deriving DecidableEq, Repr

def StockRequest.prog (token : ℕ) : StockRequest → ShopProg Unit
  | .reserve dto => do let _ ← Inventory.reserve token dto
  | .release id => releaseReservation token id
  | .adjust dto => do let _ ← Inventory.adjust token dto
  | .goodsReceipt dto => do let _ ← createGoodsReceipt token dto
  | .transfer dto => do let _ ← createTransfer token dto

def inTurn (requests : List StockRequest) : ShopProg Unit :=
  Prog.callAll (requests.mapIdx fun token r => r.prog token)

/-- What `stockReservation.create` asks of a request beyond what `reserve` has checked. -/
def acceptable (dto : ReserveStockDto) (now : ℕ) (s : Shop) : Bool :=
  decide (expiresAt dto now ≤ s.lastDate) && connects dto s && fitsInt4 dto.quantity &&
    dto.sessionKey.all (fitsVarchar 64)

/-- The database answers, and a reservation is only written when it is acceptable. -/
def ReservationAccepted : ShopCall → ShopInput → Shop → Prop
  | .stock (.createReservation dto), i, s => i.fails = false ∧ acceptable dto i.now s = true
  | _, i, _ => i.fails = false

instance (l : ShopCall) (i : ShopInput) (s : Shop) : Decidable (ReservationAccepted l i s) := by
  unfold ReservationAccepted
  split <;> infer_instance

theorem ReservationAccepted.fails {l : ShopCall} {i : ShopInput} {s : Shop}
    (h : ReservationAccepted l i s) : i.fails = false := by
  unfold ReservationAccepted at h
  split at h
  · exact h.1
  · exact h

def releaseOf : ShopCall → Option (StockReservation × List InventoryRow)
  | .stock (.releaseRows reservation rows) => some (reservation, rows)
  | _ => none

def Served (l : ShopCall) : Prop :=
  ∀ reservation rows, releaseOf l = some (reservation, rows) →
    leftover InventoryRow.reserved rows reservation.quantity = 0

def stockWorld : World ShopCall ShopInput Shop := ⟨ReservationAccepted, Consistent⟩

def stockAlone : Discipline ShopCall ShopInput Shop := .alone fun l _ _ _ => Served l

abbrev StockHolds {α : Type} (Q : Except Failure α → Shop → Prop) (p : ShopProg α) (s : Shop) : Prop :=
  Holds stockWorld stockAlone stockAlone Q p s

variable {s s' : Shop} {w v : ℕ}

/-! ### Calls that move no reserved unit -/

/-- A call other than the release transaction that moves no reserved unit. -/
def Quiet (l : ShopCall) (_ : ShopInput) (s s' : Shop) : Prop := Served l ∧ SameReserved s s'

abbrev QuietProg {α : Type} (p : ShopProg α) : Prop :=
  p.Every (fun l i t => ReservationAccepted l i t ∧ Consistent t) Quiet

theorem served_of_none {l : ShopCall} (h : releaseOf l = none) : Served l := by
  intro r rows hl
  rw [h] at hl
  cases hl

theorem SameReserved.refl (s : Shop) : SameReserved s s := .of_eq rfl rfl rfl

theorem quiet_query {α : Type} {l : ShopCall} {f : ShopInput → Shop → α}
    (hl : releaseOf l = none) : QuietProg (query l f) :=
  every_query fun _ _ _ => ⟨served_of_none hl, .refl _⟩

theorem quiet_atomic {α : Type} {l : ShopCall} {f : ShopInput → Shop → Except Failure (α × Shop)}
    (hl : releaseOf l = none)
    (h : ∀ i s a s', f i s = .ok (a, s') → SameReserved s s') : QuietProg (atomic l f) :=
  every_atomic (fun _ _ _ => ⟨served_of_none hl, .refl _⟩)
    fun i s a s' _ _ hf => ⟨served_of_none hl, h i s a s' hf⟩

theorem quiet_withLock {α : Type} {key : ShopLock} {token : ℕ} {fn : ShopProg α}
    (h : QuietProg fn) : QuietProg (LockService.withLock key token fn) := by
  refine LockService.every_withLock (fun l i m s hl _ => ?_) h
  have hserved : Served l := by
    rcases hl with rfl | rfl <;> exact served_of_none rfl
  exact ⟨⟨hserved, .refl s⟩, hserved, .of_eq rfl rfl rfl⟩

theorem holds_quiet {α : Type} {p : ShopProg α} (hp : QuietProg p) (hs : Backed s) :
    StockHolds (fun _ t => Backed t) p s := by
  refine Holds.of_every (fun t t' (h : t = t') hb => h ▸ hb) (hp.mono ?_) hs
  intro l i t t' ho h
  exact ⟨h.2.consistent ho.2, h.1, h.1, h.2.backed⟩

theorem requireWarehouse_quiet (id : ℕ) : QuietProg (requireWarehouse id) :=
  Prog.Every.bind (quiet_query rfl) fun _ => Prog.every_orThrow _ _

theorem createMovement_quiet (w v : ℕ) (type : MovementType) (n : ℤ) (ref : String) (id : ℕ)
    (notes : Option String) : QuietProg (createMovement w v type n ref id notes) := by
  refine quiet_atomic rfl fun i s a s' h => ?_
  simp only [bind_eq_ok, pure_eq_ok, Prod.mk.injEq] at h
  obtain ⟨s₁, h₁, -, rfl⟩ := h
  exact insertMovement_same h₁

theorem maybeLowStock_quiet (w v : ℕ) : QuietProg (maybeLowStock w v) := by
  refine Prog.Every.bind (quiet_query rfl) fun rows => ?_
  dsimp only
  split
  · trivial
  refine Prog.Every.bind (quiet_query rfl) fun existing => ?_
  split
  · trivial
  refine quiet_atomic rfl fun i s a s' h => ?_
  simp only [createAlert, bind_eq_ok, pure_eq_ok, Prod.mk.injEq] at h
  obtain ⟨-, -, -, rfl⟩ := h
  exact .of_eq rfl rfl rfl

theorem changeRow_quiet (dto : AdjustStockDto) (row : Option InventoryRow) :
    QuietProg (changeRow dto row) := by
  cases row with
  | none =>
    refine Prog.Every.bind (Prog.every_ensure _ _) fun _ => Prog.Every.bind ?_ fun _ => trivial
    exact quiet_atomic rfl fun i s a s' h => createRow_same h
  | some r =>
    refine quiet_atomic rfl fun i s a s' h => ?_
    simp only [adjustRow, bind_eq_ok, pure_eq_ok, Prod.mk.injEq] at h
    obtain ⟨T, hT, -, rfl⟩ := h
    exact updateRow_same hT

theorem adjust_quiet (token : ℕ) (dto : AdjustStockDto) : QuietProg (adjust token dto) := by
  refine quiet_withLock ?_
  refine Prog.Every.bind (requireWarehouse_quiet _) fun _ => ?_
  refine Prog.Every.bind (quiet_query rfl) fun bin => ?_
  refine Prog.Every.bind (Prog.every_ensure _ _) fun _ => ?_
  refine Prog.Every.bind (quiet_query rfl) fun row => ?_
  refine Prog.Every.bind (Prog.every_ensure _ _) fun _ => ?_
  refine Prog.Every.bind (changeRow_quiet dto row) fun _ => ?_
  refine Prog.Every.bind (quiet_atomic rfl fun i s a s' h => ?_) fun adjustment => ?_
  · simp only [createAdjustment, bind_eq_ok, pure_eq_ok, Prod.mk.injEq] at h
    obtain ⟨-, -, -, -, -, -, -, rfl⟩ := h
    exact .of_eq rfl rfl rfl
  refine Prog.Every.bind (createMovement_quiet _ _ _ _ _ _ _) fun _ => ?_
  exact Prog.Every.bind (maybeLowStock_quiet _ _) fun _ => trivial

theorem createGoodsReceipt_quiet (token : ℕ) (dto : CreateGoodsReceiptDto) :
    QuietProg (createGoodsReceipt token dto) := by
  refine Prog.Every.bind (quiet_query rfl) fun found => ?_
  refine Prog.Every.bind (Prog.every_ensure _ _) fun _ => ?_
  refine Prog.Every.bind (Prog.every_ensure _ _) fun _ => ?_
  refine quiet_withLock (Prog.Every.bind (requireWarehouse_quiet _) fun _ => ?_)
  exact quiet_atomic rfl fun i s a s' h => postGoodsReceipt_same h

theorem createTransfer_quiet (token : ℕ) (dto : CreateTransferDto) :
    QuietProg (createTransfer token dto) := by
  refine Prog.Every.bind (Prog.every_ensure _ _) fun _ => ?_
  refine Prog.Every.bind (quiet_query rfl) fun found => ?_
  refine Prog.Every.bind (Prog.every_ensure _ _) fun _ => ?_
  refine quiet_withLock (Prog.Every.bind (requireWarehouse_quiet _) fun _ => ?_)
  refine Prog.Every.bind (requireWarehouse_quiet _) fun _ => ?_
  exact quiet_atomic rfl fun i s a s' h => postTransfer_same h

/-! ### Reserve -/

/-- The units of `dto` are reserved and no reservation stands for them yet. -/
def Owed (dto : ReserveStockDto) (s : Shop) : Prop :=
  ∀ w v, reservedTotal w v s.inventory = activeTotal w v s.reservations +
    if (w, v) = (dto.warehouseId, dto.variantId) then dto.quantity else 0

theorem reserveRows_owed {dto : ReserveStockDto} {rank : ℕ → ℕ} {u : Unit} (hs : Consistent s)
    (hb : Backed s) (hq : 0 ≤ dto.quantity)
    (hle : dto.quantity ≤ totalAvailable (findRows rank dto.warehouseId dto.variantId s.inventory))
    (h : reserveRows dto (findRows rank dto.warehouseId dto.variantId s.inventory) s = .ok (u, s')) :
    Consistent s' ∧ Owed dto s' := by
  simp only [reserveRows, bind_eq_ok, pure_eq_ok, Prod.mk.injEq] at h
  obtain ⟨⟨m, T⟩, hT, -, rfl⟩ := h
  have hcur : Current dto.warehouseId dto.variantId _ s.inventory := current_findRows rank
  have hzero : leftover InventoryRow.available
      (findRows rank dto.warehouseId dto.variantId s.inventory) dto.quantity = 0 :=
    leftover_eq_zero (fun r hr => (hs.nonneg r (mem_findRows.mp hr).1).1) hq hle
  refine ⟨⟨moveUnits_nonneg hT hs.nonneg, ?_, hs.quantity⟩, fun w v => ?_⟩
  · exact moveUnits_variant hT hs.variant
  · rw [(moveUnits_totals hcur hT w v).1, hb w v, hzero, one_mul, sub_zero]

theorem reserveRows_of_nonpos {dto : ReserveStockDto} {rows : List InventoryRow} {u : Unit}
    (hq : dto.quantity ≤ 0) (h : reserveRows dto rows s = .ok (u, s')) : s' = s := by
  cases rows with
  | nil =>
    simp only [reserveRows, moveUnits, bind_eq_ok, pure_eq_ok, Prod.mk.injEq, Except.ok.injEq] at h
    obtain ⟨⟨m, T⟩, ⟨-, rfl⟩, -, rfl⟩ := h
    rfl
  | cons r rows =>
    simp only [reserveRows, moveUnits, hq, if_true, bind_eq_ok, pure_eq_ok, Prod.mk.injEq,
      Except.ok.injEq] at h
    obtain ⟨⟨m, T⟩, ⟨-, rfl⟩, -, rfl⟩ := h
    rfl

theorem createReservation_backed {dto : ReserveStockDto} {now : ℕ} {r : StockReservation}
    (hs : Consistent s) (ho : Owed dto s) (h : createReservation dto now s = .ok (r, s')) :
    Consistent s' ∧ Backed s' := by
  simp only [createReservation, bind_eq_ok, check_eq_ok, pure_eq_ok, Prod.mk.injEq,
    Bool.and_eq_true, decide_eq_true_eq] at h
  obtain ⟨-, -, -, -, -, -, -, hq, -, -, -, rfl⟩ := h
  refine ⟨⟨hs.nonneg, hs.variant, ?_⟩, fun w v => ?_⟩
  · intro a ha
    rcases (Table.mem_insert fun _ => by rfl).mp ha with ha | rfl
    · exact hs.quantity a ha
    · exact hq.2
  · rw [ho w v]
    simp only [activeTotal, Table.total_insert, isActive, Bool.and_eq_true, beq_iff_eq,
      Prod.mk.injEq, Bool.not_false, and_true]
    congr 2
    simp only [eq_comm]

theorem createReservation_accepted {dto : ReserveStockDto} {now : ℕ} (hq : 0 < dto.quantity)
    (hw : (s.warehouses.find? dto.warehouseId).isSome = true)
    (hv : s.variants.contains dto.variantId = true) (ha : acceptable dto now s = true) (e : Failure) :
    createReservation dto now s ≠ .error e := by
  simp only [acceptable, Bool.and_eq_true] at ha
  obtain ⟨⟨⟨hdate, hconn⟩, hint⟩, hkey⟩ := ha
  have hfk : ((s.warehouses.find? dto.warehouseId).isSome && s.variants.contains dto.variantId) = true := by
    rw [hw, hv, Bool.and_self]
  have hpos : (fitsInt4 dto.quantity && decide (0 < dto.quantity)) = true := by
    rw [hint, decide_eq_true hq, Bool.and_self]
  have hpass : ∀ {c : Bool} {text : String}, c = true → check c text = .ok () := fun hc => by
    rw [hc]
    rfl
  unfold createReservation
  rw [hpass hdate, hpass hfk, hpass hconn, hpass hpos, hpass hkey]
  nofun

theorem variant_of_available {rank : ℕ → ℕ} (hs : Consistent s)
    (h : 0 < totalAvailable (findRows rank w v s.inventory)) : s.variants.contains v = true := by
  cases hr : findRows rank w v s.inventory with
  | nil => simp [hr, totalAvailable] at h
  | cons r rows =>
    obtain ⟨hm, hl⟩ := mem_findRows.mp (hr ▸ List.mem_cons_self .. : r ∈ findRows rank w v s.inventory)
    obtain ⟨-, rfl, -⟩ := listed_iff.mp hl
    exact hs.variant r hm

theorem reserveRows_frame {dto : ReserveStockDto} {rows : List InventoryRow} {u : Unit}
    (h : reserveRows dto rows s = .ok (u, s')) :
    s'.warehouses = s.warehouses ∧ s'.variants = s.variants := by
  simp only [reserveRows, bind_eq_ok, pure_eq_ok, Prod.mk.injEq] at h
  obtain ⟨_, -, -, rfl⟩ := h
  exact ⟨rfl, rfl⟩

theorem holds_requireWarehouse {α : Type} {Q : Except Failure α → Shop → Prop} {id : ℕ}
    {k : Warehouse → ShopProg α} (herr : ∀ e, Q (.error e) s)
    (hk : (s.warehouses.find? id).isSome = true → ∀ b, StockHolds Q (k b) s) :
    StockHolds Q ((requireWarehouse id).bind k) s := by
  rw [requireWarehouse, Prog.bind_eq, Prog.bind_assoc]
  refine holds_lookupBind (fun _ _ _ _ => served_of_none rfl) (fun e t ht _ => ht ▸ herr e) ?_
  rintro t i b rfl _ _ hb
  obtain ⟨hfind, -⟩ := Option.filter_eq_some_iff.mp hb
  exact hk (by rw [hfind]; rfl) b

/-- The statements after the transaction of `reserve`. -/
def recordReservation (dto : ReserveStockDto) : ShopProg StockReservation :=
  (atomic (.stock (.createReservation dto)) fun i s => createReservation dto i.now s).bind
    fun reservation => (createMovement dto.warehouseId dto.variantId .reservation dto.quantity
      "stock_reservation" reservation.id none).bind
    fun _ => (maybeLowStock dto.warehouseId dto.variantId).bind
    fun _ => .done (.ok reservation)

theorem holds_createReservation {dto : ReserveStockDto}
    (hw : (s.warehouses.find? dto.warehouseId).isSome = true)
    (hv : s.variants.contains dto.variantId = true) (hq : 0 < dto.quantity) (hs : Owed dto s) :
    StockHolds (fun _ t => Backed t) (recordReservation dto) s := by
  refine holds_atomicBind ?_
  rintro t rfl hi i ho
  refine ⟨served_of_none rfl, ?_, ?_⟩
  · rintro e t' (hf | he) - -
    · exact absurd hf (by simp [ho.1])
    · exact absurd he (createReservation_accepted hq hw hv ho.2 e)
  · intro r u _ hu
    obtain ⟨hc, hb⟩ := createReservation_backed hi hs hu
    refine ⟨hc, served_of_none rfl, holds_quiet ?_ hb⟩
    refine Prog.Every.bind (createMovement_quiet _ _ _ _ _ _ _) fun _ => ?_
    exact Prog.Every.bind (maybeLowStock_quiet _ _) fun _ => trivial

theorem holds_refused {dto : ReserveStockDto} (hq : dto.quantity ≤ 0) (hs : Backed s) :
    StockHolds (fun _ t => Backed t) (recordReservation dto) s := by
  refine holds_atomicBind ?_
  rintro t rfl hi i ho
  refine ⟨served_of_none rfl, fun _ _ _ ht' _ => ht' ▸ hs, ?_⟩
  intro r u _ hu
  simp only [createReservation, bind_eq_ok, check_eq_ok, Bool.and_eq_true, decide_eq_true_eq] at hu
  obtain ⟨-, -, -, -, -, -, -, hpos, -⟩ := hu
  omega

theorem reserve_backed {token : ℕ} {dto : ReserveStockDto} (hs : Backed s) :
    StockHolds (fun _ t => Backed t) (reserve token dto) s := by
  refine LockService.holds_withLock (P := Backed) (fun t t' (h : t = t') hb => h ▸ hb)
    (fun t t' (h : t = t') hb => h ▸ hb) (fun _ _ h => h) (fun _ _ h => h) (fun _ h => h)
    (fun m t h => ⟨h.nonneg, h.variant, h.quantity⟩) ?_ ?_ hs
  · rintro l i m t (rfl | rfl) _ <;> exact ⟨served_of_none rfl, served_of_none rfl⟩
  intro t ht hb
  refine holds_requireWarehouse (fun _ => hb) fun hw _ => ?_
  refine holds_queryBind ?_
  rintro _ rfl hi i -
  refine ⟨served_of_none rfl, fun t' ht' _ => ht' ▸ hb, fun _ => ?_⟩
  refine Holds.ensureBind (fun hle => ?_) fun _ t' ht' _ => ht' ▸ hb
  refine holds_atomicBind ?_
  rintro _ rfl _ i' -
  refine ⟨served_of_none rfl, fun e t' _ ht' _ => ht' ▸ hb, ?_⟩
  intro _ u _ hu
  rcases le_or_gt dto.quantity 0 with hq | hq
  · -- nothing was moved, and the row will be refused
    obtain rfl := reserveRows_of_nonpos hq hu
    refine ⟨hi, served_of_none rfl, holds_refused hq hb⟩
  · have hv := variant_of_available hi (Int.lt_of_lt_of_le hq hle)
    obtain ⟨hc, howed⟩ := reserveRows_owed hi hb hq.le hle hu
    have hsame := reserveRows_frame hu
    refine ⟨hc, served_of_none rfl, holds_createReservation ?_ ?_ hq howed⟩
    · rw [hsame.1]
      exact hw
    · rw [hsame.2]
      exact hv

/-! ### Release -/

theorem quantity_le_activeTotal {r : StockReservation} (hs : Consistent s)
    (hr : r ∈ s.reservations.rows) (ha : isActive w v r = true) :
    r.quantity ≤ activeTotal w v s.reservations := by
  refine List.single_le_sum ?_ _ (List.mem_map.mpr ⟨r, hr, if_pos ha⟩)
  intro x hx
  obtain ⟨a, hm, rfl⟩ := List.mem_map.mp hx
  have := hs.quantity a hm
  split <;> omega

theorem release_served {r : StockReservation} (rank : ℕ → ℕ) (hs : Consistent s)
    (hle : activeTotal w v s.reservations ≤ reservedTotal w v s.inventory)
    (hr : r ∈ s.reservations.rows) (ha : isActive w v r = true) :
    leftover InventoryRow.reserved (findRows rank w v s.inventory) r.quantity = 0 := by
  refine leftover_eq_zero (fun a h => (hs.nonneg a (mem_findRows.mp h).1).2) (hs.quantity r hr).le ?_
  rw [sum_findRows]
  exact (quantity_le_activeTotal hs hr ha).trans hle

theorem activeTotal_release {R : Table StockReservation} {r : StockReservation}
    (hr : R.find? r.id = some r) (ha : isActive w v r = true) (w' v' : ℕ) :
    activeTotal w' v' (R.update r.id fun a => { a with status := .released }) =
      activeTotal w' v' R - if (w', v') = (w, v) then r.quantity else 0 := by
  have hgone : isActive w' v' { r with status := .released } = false := by simp [isActive]
  have hwv : r.warehouseId = w ∧ r.variantId = v ∧ r.status = .active ∧ r.deleted = false := by
    simpa [isActive, and_assoc] using ha
  have hthis : isActive w' v' r = true ↔ (w', v') = (w, v) := by
    simp only [isActive, hwv, Bool.and_eq_true, beq_iff_eq, Prod.mk.injEq, beq_self_eq_true,
      Bool.not_false, and_true]
    exact ⟨fun h => ⟨h.1.symm, h.2.symm⟩, fun h => ⟨h.1.symm, h.2.symm⟩⟩
  have := Table.total_update (p := isActive w' v') (f := StockReservation.quantity)
    (g := fun a : StockReservation => { a with status := .released }) (fun _ => by rfl) hr
  simp only [hgone, hthis, Bool.false_eq_true, if_false, add_zero] at this
  exact eq_sub_of_add_eq this

theorem releaseRows_spec {r : StockReservation} {rank : ℕ → ℕ} {u : Unit} (hs : Consistent s)
    (hle : activeTotal r.warehouseId r.variantId s.reservations ≤
      reservedTotal r.warehouseId r.variantId s.inventory)
    (hr : s.reservations.find? r.id = some r) (ha : isActive r.warehouseId r.variantId r = true)
    (h : releaseRows r (findRows rank r.warehouseId r.variantId s.inventory) s = .ok (u, s')) :
    Consistent s' ∧
      s'.reservations = (s.reservations.update r.id fun a => { a with status := .released }) ∧
      ∀ w v, let moved := if (w, v) = (r.warehouseId, r.variantId) then r.quantity else 0
        reservedTotal w v s'.inventory = reservedTotal w v s.inventory - moved ∧
          availableTotal w v s'.inventory = availableTotal w v s.inventory + moved := by
  have hzero := release_served rank hs hle (Table.find?_mem hr).1 ha
  simp only [releaseRows, bind_eq_ok, pure_eq_ok, Prod.mk.injEq] at h
  obtain ⟨⟨m, T⟩, hT, -, -, -, rfl⟩ := h
  refine ⟨⟨moveUnits_nonneg hT hs.nonneg, ?_, ?_⟩, rfl, fun w v => ?_⟩
  · exact moveUnits_variant hT hs.variant
  · exact Table.forall_update (fun _ => by rfl) (fun b hb _ => hs.quantity b hb)
      fun b hb _ => hs.quantity b hb
  · have htotals := moveUnits_totals (current_findRows rank) hT w v
    simp only [hzero, sub_zero, neg_one_mul] at htotals
    refine ⟨htotals.1.trans ?_, htotals.2.trans ?_⟩ <;> split <;> omega

theorem releaseRows_backed {r : StockReservation} {rank : ℕ → ℕ} {u : Unit} (hs : Consistent s)
    (hb : Backed s) (hr : s.reservations.find? r.id = some r)
    (ha : isActive r.warehouseId r.variantId r = true)
    (h : releaseRows r (findRows rank r.warehouseId r.variantId s.inventory) s = .ok (u, s')) :
    Consistent s' ∧ Backed s' := by
  obtain ⟨hc, hres, htotals⟩ := releaseRows_spec hs (hb _ _).ge hr ha h
  refine ⟨hc, fun w v => ?_⟩
  rw [(htotals w v).1, hres, activeTotal_release hr ha, hb w v]

theorem release_backed {token id : ℕ} (hs : Backed s) :
    StockHolds (fun _ t => Backed t) (releaseReservation token id) s := by
  refine holds_lookupBind (fun _ _ _ _ => served_of_none rfl) (fun e t ht _ => ht ▸ hs) ?_
  rintro t i r rfl - - hr
  obtain ⟨hfind, hdel⟩ := Option.filter_eq_some_iff.mp hr
  refine Holds.ensureBind (fun hact => ?_) fun _ t ht _ => ht ▸ hs
  have hid : r.id = id := (Table.find?_mem hfind).2
  have ha : isActive r.warehouseId r.variantId r = true := by
    simpa [isActive, hact] using hdel
  -- alone, the reservation is still what was read when the lock is held
  refine LockService.holds_withLock (P := fun t => Backed t ∧ t.reservations.find? r.id = some r)
    (fun t t' (h : t = t') hb => h ▸ hb) (fun t t' (h : t = t') hb => h ▸ hb) (fun _ _ h => h)
    (fun _ _ h => h) (fun _ h => h.1) (fun m t h => ⟨h.nonneg, h.variant, h.quantity⟩) ?_ ?_
    ⟨hs, hid ▸ hfind⟩
  · rintro l i m t (rfl | rfl) _ <;> exact ⟨served_of_none rfl, served_of_none rfl⟩
  rintro t ht ⟨hb, hr⟩
  refine holds_queryBind ?_
  rintro _ rfl hi i -
  refine ⟨served_of_none rfl, fun t' ht' _ => ht' ▸ hb, fun _ => ?_⟩
  have hserved : Served (.stock (.releaseRows r
      (findRows i.rank r.warehouseId r.variantId t.inventory))) := by
    rintro _ _ ⟨⟩
    exact release_served i.rank hi (hb _ _).ge (Table.find?_mem hr).1 ha
  refine holds_atomicBind ?_
  rintro _ rfl _ i' -
  refine ⟨hserved, fun e t' _ ht' _ => ht' ▸ hb, fun _ u _ hu => ?_⟩
  obtain ⟨hc, hb'⟩ := releaseRows_backed hi hb hr ha hu
  exact ⟨hc, hserved, holds_quiet (createMovement_quiet _ _ _ _ _ _ _) hb'⟩

/-! ### Whole runs -/

theorem request_backed (r : StockRequest) (token : ℕ) (hi : Consistent s) (hs : Backed s) :
    StockHolds (fun _ t => Backed t) (r.prog token) s := by
  cases r with
  | reserve dto =>
    refine Holds.bind (Holds.mono ?_ (reserve_backed hs)) hi
    rintro (e | a) t - hb
    · exact hb
    · exact fun t' (h : t = t') _ => h ▸ hb
  | release id => exact release_backed hs
  | adjust dto => exact holds_quiet (Prog.Every.bind (adjust_quiet token dto) fun _ => trivial) hs
  | goodsReceipt dto =>
    exact holds_quiet (Prog.Every.bind (createGoodsReceipt_quiet token dto) fun _ => trivial) hs
  | transfer dto =>
    exact holds_quiet (Prog.Every.bind (createTransfer_quiet token dto) fun _ => trivial) hs

theorem inTurn_backed (requests : List StockRequest) (hi : Consistent s) (hs : Backed s) :
    StockHolds (fun _ t => Backed t) (inTurn requests) s := by
  refine Holds.callAll (fun t t' (h : t = t') hb => h ▸ hb) ?_ hi hs
  intro p hp t ht hb
  obtain ⟨token, hlt, rfl⟩ := List.mem_mapIdx.mp hp
  exact request_backed _ token ht hb

/-- Whatever the requests and the answers of the database, the reserved units are those of the
active reservations after each finished sequence of calls, no quantity is ever negative, and a
release always finds the units it gives back. -/
theorem backed_run (requests : List StockRequest) (s : Shop) (inputs : List ShopInput)
    (hi : Consistent s) (hs : Backed s)
    (hok : Pool.SoloAdmits ReservationAccepted (inTurn requests) s inputs) :
    let end_ := Pool.solo (inTurn requests) s inputs
    (end_.threads[0]? = some (.done (.ok ())) → Backed end_.state) ∧
      (∀ r ∈ end_.state.inventory.rows, 0 ≤ r.available ∧ 0 ≤ r.reserved) ∧
      ∀ reservation rows, end_.label? 0 = some (.stock (.releaseRows reservation rows)) →
        leftover InventoryRow.reserved rows reservation.quantity = 0 := by
  have hholds : Holds stockWorld stockAlone stockAlone (fun _ t => Backed t) (inTurn requests) s :=
    inTurn_backed requests hi hs
  refine ⟨?_, ?_, ?_⟩
  · exact Pool.solo_post (W := stockWorld) hi hholds hok
  · exact (Pool.solo_holds (W := stockWorld) hi hholds hok).1.nonneg
  · intro reservation rows hl
    have hanswer : ReservationAccepted (.stock (.releaseRows reservation rows)) { reply := {} }
        (Pool.solo (inTurn requests) s inputs).state := rfl
    exact Pool.solo_guar (W := stockWorld) hi hholds hok hl hanswer reservation rows rfl

/-- One warehouse with a bin that holds five units of variant 1. -/
def fiveUnits : Shop where
  variants := [1]
  warehouses := oneWarehouse
  bins := oneBin
  inventory := fiveInBin

def answers (n : ℕ) : List ShopInput := List.replicate n { reply := {} }

theorem fiveUnits_consistent : Consistent fiveUnits := by
  refine ⟨?_, ?_, ?_⟩ <;> decide

theorem backed_of_empty {s : Shop} (hr : s.reservations.rows = [])
    (hi : ∀ r ∈ s.inventory.rows, r.reserved = 0) : Backed s := by
  intro w v
  rw [activeTotal, Table.total, hr, reservedTotal, Table.total]
  refine List.sum_eq_zero ?_
  intro x hx
  obtain ⟨r, hm, rfl⟩ := List.mem_map.mp hx
  rw [hi r hm, ite_self]

def reserveAndRelease : List StockRequest := [.reserve ⟨0, 1, 3, none, none, none, none⟩, .release 0]

/-- Three units reserved and given back. -/
theorem backed_run_reserve_release :
    (Pool.solo (inTurn reserveAndRelease) fiveUnits (answers 14)).threads[0]? =
        some (.done (.ok ())) ∧
      Backed (Pool.solo (inTurn reserveAndRelease) fiveUnits (answers 14)).state := by
  have hend : (Pool.solo (inTurn reserveAndRelease) fiveUnits (answers 14)).threads[0]? =
      some (.done (.ok ())) := rfl
  have hempty : Backed fiveUnits := backed_of_empty rfl (by decide)
  exact ⟨hend, (backed_run reserveAndRelease fiveUnits (answers 14) fiveUnits_consistent hempty
    (by decide)).1 hend⟩

/-- A reservation for a cart that does not exist: the units are moved, the row is refused, and
the three units stay reserved for nothing. -/
theorem units_reserved_for_no_reservation :
    Consistent fiveUnits ∧ Backed fiveUnits ∧
      (Pool.solo (inTurn [.reserve ⟨0, 1, 3, some 9, none, none, none⟩]) fiveUnits
        (answers 7)).threads[0]? = some (.done (.ok ())) ∧
      ¬ Backed (Pool.solo (inTurn [.reserve ⟨0, 1, 3, some 9, none, none, none⟩]) fiveUnits
        (answers 7)).state := by
  refine ⟨fiveUnits_consistent, backed_of_empty rfl (by decide), rfl, fun h => ?_⟩
  have := h 0 1
  revert this
  decide

end ElectronicsCart.Inventory
