import ElectronicsCart.Inventory.Ledger
import ElectronicsCart.Inventory.StockRuns

/-!
# The movement ledger over sequential runs

A goods receipt and a transfer book their movements in the transaction that moves the stock.
`reserve`, `releaseReservation` and `adjust` move it first and book it by a later call, after a
write that the database may refuse; the ledger then misses what they moved.
-/

namespace ElectronicsCart.Inventory

open Interleaving Relational Allocation

/-- What the constraints of the tables promise, and where the rows stand. -/
structure Sound (s : Shop) : Prop extends Consistent s where
  placed : Placed s
  reservation : ∀ r ∈ s.reservations.rows, (s.warehouses.find? r.warehouseId).isSome = true ∧
    s.variants.contains r.variantId = true ∧ fitsInt4 r.quantity = true

/-- What `inventoryAdjustment.create` asks of a request beyond what `adjust` has checked. -/
def adjustable (dto : AdjustStockDto) : Bool :=
  (AdjustmentReason.parse (dto.reason.getD "correction")).isSome && fitsInt4 dto.quantityDelta

/-- The database answers; the row that a reservation or an adjustment writes once the stock has
moved is acceptable; and a release finds the units it gives back. -/
def Recordable : ShopCall → ShopInput → Shop → Prop
  | .stock (.createReservation dto), i, s =>
    i.fails = false ∧ (0 < dto.quantity → acceptable dto i.now s = true)
  | .stock (.createAdjustment dto), i, _ =>
    i.fails = false ∧ (dto.quantityDelta ≠ 0 → adjustable dto = true)
  | .stock (.releaseRows reservation rows), i, _ =>
    i.fails = false ∧ reservation.quantity ≤ (rows.map InventoryRow.reserved).sum
  | _, i, _ => i.fails = false

instance (l : ShopCall) (i : ShopInput) (s : Shop) : Decidable (Recordable l i s) :=
  match l with
  | .stock call => by cases call <;> unfold Recordable <;> infer_instance
  | .acquire _ _ | .release _ _ | .deadline _ | .timer _ | .payment _ | .order _ | .rma _ =>
    inferInstanceAs (Decidable (i.fails = false))

/-- The stock and the ledger disagree by `g`, and by `n` more at one warehouse and variant. -/
structure Owing (g : ℕ → ℕ → ℤ) (w v : ℕ) (n : ℤ) (s : Shop) : Prop extends Sound s where
  gap : ∀ w' v', gap w' v' s = g w' v' + if (w', v') = (w, v) then n else 0

/-- The stock and the ledger disagree by `g`. -/
structure Agreed (g : ℕ → ℕ → ℤ) (s : Shop) : Prop extends Sound s where
  gap : ∀ w v, Inventory.gap w v s = g w v

variable {s s' : Shop} {g : ℕ → ℕ → ℤ} {w v : ℕ} {n : ℤ}

abbrev Balances {α : Type} (g : ℕ → ℕ → ℤ) (p : ShopProg α) (s : Shop) : Prop :=
  Alone Recordable (fun _ t => Agreed g t) p s

/-! ### Single calls -/

theorem Sound.of_site (hs : Sound s) (hc : Consistent s') (hp : Placed s') (h : SameSite s s') :
    Sound s' := by
  refine ⟨hc, hp, fun r hr => ?_⟩
  rw [h.reservations] at hr
  rw [h.warehouses, h.variants]
  exact hs.reservation r hr

theorem Agreed.explained (ha : Agreed g s) (hc : Consistent s') (h : Explained s s') : Agreed g s' :=
  ⟨ha.toSound.of_site hc h.placed h.site, fun w v => (h.gap w v).trans (ha.gap w v)⟩

theorem Agreed.setLocks (ha : Agreed g s) (m : LockStore ShopLock) :
    Agreed g (Lockable.setLocks ShopCall m s) :=
  ⟨⟨⟨ha.nonneg, ha.variant, ha.quantity⟩, ha.placed, ha.reservation⟩, ha.gap⟩

theorem balances_withLock {α : Type} {key : ShopLock} {token : ℕ} {fn : ShopProg α}
    (hs : Agreed g s) (hfn : ∀ m, Agreed g (Lockable.setLocks ShopCall m s) →
      Balances g fn (Lockable.setLocks ShopCall m s)) :
    Balances g (LockService.withLock key token fn) s :=
  Alone.withLock_blind (fun _ => hs) (fun _ _ m h => h.setLocks m) (fun _ _ h => h)
    fun m => hfn m (hs.setLocks m)

theorem balances_lastMovement {type : MovementType} {quantity : ℤ} {referenceType : String}
    {referenceId : ℕ} {notes : Option String}
    (hs : Owing g w v (signedQuantity ⟨0, w, v, type, quantity, "", 0, none⟩) s)
    (hw : (s.warehouses.find? w).isSome = true) (hv : s.variants.contains v = true)
    (hq : fitsInt4 quantity = true) (hne : quantity ≠ 0) :
    Balances g (createMovement w v type quantity referenceType referenceId notes) s := by
  refine Alone.atomic (fun i _ u _ _ hu => ?_) fun i e ho he => ?_
  · simp only [bind_eq_ok, pure_eq_ok, Prod.mk.injEq] at hu
    obtain ⟨s₁, h₁, -, rfl⟩ := hu
    have hsite := insertMovement_site h₁
    have hinv : s₁.inventory = s.inventory := by rw [insertMovement_eq h₁]
    refine ⟨hs.toSound.of_site ((insertMovement_same h₁).consistent hs.toConsistent)
      (placed_of_eq hinv hsite.bins hs.placed) hsite, fun w' v' => ?_⟩
    have hgap := hs.gap w' v'
    rw [gap] at hgap
    rw [gap, stockAt_of_eq hinv, booked_insertMovement w' v' h₁, sub_add_eq_sub_sub, hgap,
      add_sub_cancel_right]
  · -- the movement is refused by nothing
    rcases he with hf | he
    · exact absurd hf (by simp [show i.fails = false from ho])
    · have hfk : ((s.warehouses.find? w).isSome && s.variants.contains v) = true := by
        rw [hw, hv, Bool.and_self]
      have hint : (fitsInt4 quantity && decide (quantity ≠ 0)) = true := by
        rw [hq, decide_eq_true hne, Bool.and_self]
      simp only [insertMovement, check, demand, hfk, hint, if_true, bind, Except.bind, pure,
        Except.pure] at he
      cases he

theorem maybeLowStock_balances (hs : Agreed g s) : Balances g (maybeLowStock w v) s := by
  refine Alone.queryBind (fun i _ _ => ?_) fun _ _ _ => hs
  dsimp only
  split
  · exact Alone.done hs
  refine Alone.queryBind (fun i' _ _ => ?_) fun _ _ _ => hs
  split
  · exact Alone.done hs
  refine Alone.atomic (fun i'' b u _ _ hu => ?_) fun _ _ _ _ => hs
  simp only [createAlert, bind_eq_ok, pure_eq_ok, Prod.mk.injEq] at hu
  obtain ⟨-, -, -, rfl⟩ := hu
  exact ⟨⟨⟨hs.nonneg, hs.variant, hs.quantity⟩, hs.placed, hs.reservation⟩, hs.gap⟩

/-! ### Reserve -/

theorem reserveRows_owing {dto : ReserveStockDto} {rank : ℕ → ℕ} {u : Unit} (hs : Agreed g s)
    (hq : 0 ≤ dto.quantity)
    (hle : dto.quantity ≤ totalAvailable (findRows rank dto.warehouseId dto.variantId s.inventory))
    (h : reserveRows dto (findRows rank dto.warehouseId dto.variantId s.inventory) s = .ok (u, s')) :
    SameSite s s' ∧ Owing g dto.warehouseId dto.variantId (-dto.quantity) s' := by
  simp only [reserveRows, bind_eq_ok, pure_eq_ok, Prod.mk.injEq] at h
  obtain ⟨⟨m, T⟩, hT, -, rfl⟩ := h
  have hcur : Current dto.warehouseId dto.variantId _ s.inventory := current_findRows rank
  have hzero : leftover InventoryRow.available
      (findRows rank dto.warehouseId dto.variantId s.inventory) dto.quantity = 0 :=
    leftover_eq_zero (fun r hr => (hs.nonneg r (mem_findRows.mp hr).1).1) hq hle
  have hsite : SameSite s { s with inventory := T } := ⟨rfl, rfl, rfl, rfl, rfl⟩
  refine ⟨hsite, hs.toSound.of_site ⟨moveUnits_nonneg hT hs.nonneg, ?_, hs.quantity⟩
    (moveUnits_placed hs.placed hT) hsite, fun w v => ?_⟩
  · exact moveUnits_variant hT hs.variant
  · have hstock := moveUnits_stock hcur hT w v
    have hgap := hs.gap w v
    rw [hzero, sub_zero, one_mul] at hstock
    rw [gap, stockAt] at hgap ⊢
    rw [hstock, show booked w v { s with inventory := T } = booked w v s from rfl]
    split <;> omega

theorem createReservation_owing {dto : ReserveStockDto} {now : ℕ} {r : StockReservation}
    (hs : Owing g w v n s) (h : createReservation dto now s = .ok (r, s')) :
    Owing g w v n s' ∧ (s'.warehouses.find? dto.warehouseId).isSome = true ∧
      s'.variants.contains dto.variantId = true ∧ fitsInt4 dto.quantity = true := by
  simp only [createReservation, bind_eq_ok, check_eq_ok, pure_eq_ok, Prod.mk.injEq,
    Bool.and_eq_true, decide_eq_true_eq] at h
  obtain ⟨-, -, -, hfk, -, -, -, hq, -, -, -, rfl⟩ := h
  refine ⟨⟨⟨⟨hs.nonneg, hs.variant, ?_⟩, hs.placed, ?_⟩, hs.gap⟩, hfk.1, hfk.2, hq.1⟩
  · intro a ha
    rcases (Table.mem_insert fun _ => by rfl).mp ha with ha | rfl
    · exact hs.quantity a ha
    · exact hq.2
  · intro a ha
    rcases (Table.mem_insert fun _ => by rfl).mp ha with ha | rfl
    · exact hs.reservation a ha
    · exact ⟨hfk.1, hfk.2, hq.1⟩

theorem recordReservation_balances {dto : ReserveStockDto} (hq : 0 < dto.quantity)
    (hw : (s.warehouses.find? dto.warehouseId).isSome = true)
    (hv : s.variants.contains dto.variantId = true)
    (hs : Owing g dto.warehouseId dto.variantId (-dto.quantity) s) :
    Balances g (recordReservation dto) s := by
  refine Alone.atomicBind (fun i r u _ _ hu => ?_) fun i e ho he => ?_
  · obtain ⟨howing, hw', hv', hint⟩ := createReservation_owing hs hu
    refine Alone.bind (balances_lastMovement howing hw' hv' hint hq.ne') (fun _ t ht => ?_)
      fun _ _ ht => ht
    exact Alone.bind (maybeLowStock_balances ht) (fun _ _ ht => Alone.done ht) fun _ _ ht => ht
  · rcases he with hf | he
    · exact absurd hf (by simp [show i.fails = false from ho.1])
    · exact absurd he (createReservation_accepted hq hw hv (ho.2 hq) e)

theorem recordReservation_refused {dto : ReserveStockDto} (hq : dto.quantity ≤ 0)
    (hs : Agreed g s) : Balances g (recordReservation dto) s := by
  refine Alone.atomicBind (fun i r u _ _ hu => ?_) fun _ _ _ _ => hs
  simp only [createReservation, bind_eq_ok, check_eq_ok, Bool.and_eq_true, decide_eq_true_eq] at hu
  obtain ⟨-, -, -, -, -, -, -, hpos, -⟩ := hu
  omega

theorem reserve_balances {token : ℕ} {dto : ReserveStockDto} (hs : Agreed g s) :
    Balances g (reserve token dto) s := by
  refine balances_withLock hs fun m hm => ?_
  refine requireWarehouse_alone (fun _ => hm) fun hw _ => ?_
  refine Alone.queryBind (fun i _ _ => ?_) fun _ _ _ => hm
  refine Alone.ensureBind (fun hle => ?_) fun _ => hm
  refine Alone.atomicBind (fun i' b u _ _ hu => ?_) fun _ _ _ _ => hm
  rcases le_or_gt dto.quantity 0 with hq | hq
  · obtain rfl := reserveRows_of_nonpos hq hu
    exact recordReservation_refused hq hm
  · have hv := variant_of_available hm.toConsistent (Int.lt_of_lt_of_le hq hle)
    obtain ⟨hsite, howing⟩ := reserveRows_owing hm hq.le hle hu
    refine recordReservation_balances hq ?_ ?_ howing
    · rw [hsite.warehouses]
      exact hw
    · rw [hsite.variants]
      exact hv

/-! ### Release -/

theorem releaseRows_owing {r : StockReservation} {rank : ℕ → ℕ} {u : Unit} (hs : Agreed g s)
    (hr : r ∈ s.reservations.rows)
    (hle : r.quantity ≤ ((findRows rank r.warehouseId r.variantId s.inventory).map
      InventoryRow.reserved).sum)
    (h : releaseRows r (findRows rank r.warehouseId r.variantId s.inventory) s = .ok (u, s')) :
    s'.warehouses = s.warehouses ∧ s'.variants = s.variants ∧
      Owing g r.warehouseId r.variantId r.quantity s' := by
  simp only [releaseRows, bind_eq_ok, pure_eq_ok, Prod.mk.injEq] at h
  obtain ⟨⟨m, T⟩, hT, -, -, -, rfl⟩ := h
  have hzero : leftover InventoryRow.reserved
      (findRows rank r.warehouseId r.variantId s.inventory) r.quantity = 0 :=
    leftover_eq_zero (fun a h => (hs.nonneg a (mem_findRows.mp h).1).2) (hs.quantity r hr).le hle
  refine ⟨rfl, rfl, ⟨⟨moveUnits_nonneg hT hs.nonneg, ?_, ?_⟩, moveUnits_placed hs.placed hT, ?_⟩,
    fun w v => ?_⟩
  · exact moveUnits_variant hT hs.variant
  · exact Table.forall_update (fun _ => by rfl) (fun b hb _ => hs.quantity b hb)
      fun b hb _ => hs.quantity b hb
  · exact Table.forall_update (fun _ => by rfl) (fun b hb _ => hs.reservation b hb)
      fun b hb _ => hs.reservation b hb
  · have hstock := moveUnits_stock (current_findRows rank) hT w v
    have hgap := hs.gap w v
    rw [hzero, sub_zero, neg_one_mul] at hstock
    rw [gap, stockAt] at hgap ⊢
    have hbooked : ∀ R, booked w v { s with inventory := T, reservations := R } = booked w v s :=
      fun _ => rfl
    rw [hstock, hbooked]
    split <;> omega

theorem release_balances {token id : ℕ} (hs : Agreed g s) :
    Balances g (releaseReservation token id) s := by
  refine Alone.queryBind (fun i _ _ => ?_) fun _ _ _ => hs
  refine Alone.orThrowBind (fun r hr => ?_) fun _ => hs
  obtain ⟨hfind, -⟩ := Option.filter_eq_some_iff.mp hr
  have hmem := (Table.find?_mem hfind).1
  refine Alone.ensureBind (fun _ => ?_) fun _ => hs
  refine balances_withLock hs fun m hm => ?_
  refine Alone.queryBind (fun i' _ _ => ?_) fun _ _ _ => hm
  refine Alone.atomicBind (fun i'' b u ho _ hu => ?_) fun _ _ _ _ => hm
  obtain ⟨hw, hv, howing⟩ := releaseRows_owing hm hmem ho.2 hu
  obtain ⟨hrw, hrv, hint⟩ := hs.reservation r hmem
  have hpos := hs.quantity r hmem
  refine balances_lastMovement howing ?_ ?_ hint hpos.ne'
  · rw [hw]
    exact hrw
  · rw [hv]
    exact hrv

/-! ### Adjust -/

theorem Received.owing (hs : Agreed g s) (hc : Consistent s') (h : Received w v n s s') :
    Owing g w v n s' := by
  refine ⟨hs.toSound.of_site hc h.placed h.site, fun w' v' => ?_⟩
  have hgap := hs.gap w' v'
  rw [gap] at hgap ⊢
  rw [h.stockAt, h.booked]
  omega

theorem recordAdjustment_balances {dto : AdjustStockDto}
    (hs : Owing g dto.warehouseId dto.variantId dto.quantityDelta s)
    (hw : (s.warehouses.find? dto.warehouseId).isSome = true)
    (hv : s.variants.contains dto.variantId = true) :
    Balances g ((atomic (.stock (.createAdjustment dto)) fun _ s => createAdjustment dto s).bind
      fun adjustment => (createMovement dto.warehouseId dto.variantId .adjustment dto.quantityDelta
        "inventory_adjustment" adjustment.id dto.notes).bind
      fun _ => (maybeLowStock dto.warehouseId dto.variantId).bind
      fun _ => .done (.ok adjustment)) s := by
  have hfk : ((s.warehouses.find? dto.warehouseId).isSome && s.variants.contains dto.variantId) = true := by
    rw [hw, hv, Bool.and_self]
  refine Alone.atomicBind (fun i a u _ _ hu => ?_) fun i e ho he => ?_
  · simp only [createAdjustment, bind_eq_ok, check_eq_ok, pure_eq_ok, Prod.mk.injEq,
      Bool.and_eq_true, decide_eq_true_eq] at hu
    obtain ⟨-, -, -, -, -, hq, -, rfl⟩ := hu
    have howing : ∀ A, Owing g dto.warehouseId dto.variantId dto.quantityDelta
        { s with adjustments := A } := fun _ =>
      ⟨⟨⟨hs.nonneg, hs.variant, hs.quantity⟩, hs.placed, hs.reservation⟩, hs.gap⟩
    refine Alone.bind (balances_lastMovement (howing _) hw hv hq.1 hq.2) (fun _ t ht => ?_)
      fun _ _ ht => ht
    exact Alone.bind (maybeLowStock_balances ht) (fun _ _ ht => Alone.done ht) fun _ _ ht => ht
  · rcases he with hf | he
    · exact absurd hf (by simp [show i.fails = false from ho.1])
    · by_cases hne : dto.quantityDelta = 0
      · -- nothing has changed
        refine ⟨hs.toSound, fun w v => ?_⟩
        rw [hs.gap w v, hne, ite_self, add_zero]
      · have hok := ho.2 hne
        simp only [adjustable, Bool.and_eq_true] at hok
        obtain ⟨reason, hreason⟩ := Option.isSome_iff_exists.mp hok.1
        have hint : (fitsInt4 dto.quantityDelta && decide (dto.quantityDelta ≠ 0)) = true := by
          rw [hok.2, decide_eq_true hne, Bool.and_self]
        simp only [createAdjustment, hreason, Option.elim_some, check, demand, hfk, hint, if_true,
          bind, Except.bind, pure, Except.pure] at he
        cases he

theorem adjust_balances {token : ℕ} {dto : AdjustStockDto} (hs : Agreed g s) :
    Balances g (adjust token dto) s := by
  refine balances_withLock hs fun m hm => ?_
  refine requireWarehouse_alone (fun _ => hm) fun hw _ => ?_
  refine Alone.queryBind (fun i _ _ => ?_) fun _ _ _ => hm
  refine Alone.ensureBind (fun hbin => ?_) fun _ => hm
  refine Alone.queryBind (fun i' _ _ => ?_) fun _ _ _ => hm
  refine Alone.ensureBind (fun _ => ?_) fun _ => hm
  have hplace := bin_of_any hbin
  cases hrow : findRow dto.binId dto.variantId (Lockable.setLocks ShopCall m s).inventory with
  | none =>
    simp only [changeRow, Prog.bind_eq, Prog.bind_assoc]
    refine Alone.ensureBind (fun _ => ?_) fun _ => hm
    refine Alone.atomicBind (fun i'' r u _ _ hu => ?_) fun _ _ _ _ => hm
    have hin := received_createRow hm.placed hplace hu
    have hc := (createRow_same hu).consistent hm.toConsistent
    refine recordAdjustment_balances (hin.owing hm hc) (hin.site.warehouses ▸ hw) ?_
    rw [hin.site.variants]
    simp only [createRow, bind_eq_ok, check_eq_ok] at hu
    obtain ⟨-, hv, -⟩ := hu
    exact hv
  | some r =>
    refine Alone.atomicBind (fun i'' b u _ _ hu => ?_) fun _ _ _ _ => hm
    have hmem := (findRow_some hrow).1
    have hfind : (Lockable.setLocks ShopCall m s).inventory.find? r.id = some r :=
      Table.find?_eq_some_iff.mpr ⟨hmem, rfl⟩
    have hheld := holds_findRow hm.placed hplace hrow
    have hin := adjustRow_spec hm.placed hfind hheld hu
    have hc : Consistent u := by
      simp only [adjustRow, bind_eq_ok, pure_eq_ok, Prod.mk.injEq] at hu
      obtain ⟨T, hT, -, rfl⟩ := hu
      exact (updateRow_same hT).consistent hm.toConsistent
    refine recordAdjustment_balances (hin.owing hm hc) (hin.site.warehouses ▸ hw) ?_
    rw [hin.site.variants, ← (findRow_some hrow).2.2.1]
    exact hm.variant r hmem

/-! ### Goods receipts and transfers -/

theorem createGoodsReceipt_balances {token : ℕ} {dto : CreateGoodsReceiptDto} (hs : Agreed g s) :
    Balances g (createGoodsReceipt token dto) s := by
  refine Alone.queryBind (fun i _ _ => ?_) fun _ _ _ => hs
  refine Alone.ensureBind (fun _ => ?_) fun _ => hs
  refine Alone.ensureBind (fun _ => ?_) fun _ => hs
  refine balances_withLock hs fun m hm => ?_
  refine requireWarehouse_alone (fun _ => hm) fun _ _ => ?_
  refine Alone.atomic (fun i r u _ _ hu => ?_) fun _ _ _ _ => hm
  exact hm.explained ((postGoodsReceipt_same hu).consistent hm.toConsistent)
    (postGoodsReceipt_arrived hm.placed hu).toExplained

theorem createTransfer_balances {token : ℕ} {dto : CreateTransferDto} (hs : Agreed g s) :
    Balances g (createTransfer token dto) s := by
  refine Alone.ensureBind (fun _ => ?_) fun _ => hs
  refine Alone.queryBind (fun i _ _ => ?_) fun _ _ _ => hs
  refine Alone.ensureBind (fun _ => ?_) fun _ => hs
  refine balances_withLock hs fun m hm => ?_
  refine requireWarehouse_alone (fun _ => hm) fun _ _ => ?_
  refine requireWarehouse_alone (fun _ => hm) fun _ _ => ?_
  refine Alone.atomic (fun i r u _ _ hu => ?_) fun _ _ _ _ => hm
  obtain ⟨-, hc⟩ := postTransfer_carried hm.placed hu
  refine hm.explained ((postTransfer_same hu).consistent hm.toConsistent)
    ⟨hc.placed, ⟨hc.site.warehouses, hc.site.bins, hc.site.variants, hc.site.reservations,
      hc.site.alerts⟩, hc.gap⟩

/-! ### Whole runs -/

theorem request_balances (r : StockRequest) (token : ℕ) (hs : Agreed g s) :
    Balances g (r.prog token) s := by
  cases r with
  | reserve dto => exact Alone.bind (reserve_balances hs) (fun _ _ ht => Alone.done ht) fun _ _ ht => ht
  | release id => exact release_balances hs
  | adjust dto => exact Alone.bind (adjust_balances hs) (fun _ _ ht => Alone.done ht) fun _ _ ht => ht
  | goodsReceipt dto =>
    exact Alone.bind (createGoodsReceipt_balances hs) (fun _ _ ht => Alone.done ht) fun _ _ ht => ht
  | transfer dto =>
    exact Alone.bind (createTransfer_balances hs) (fun _ _ ht => Alone.done ht) fun _ _ ht => ht

theorem inTurn_balances (requests : List StockRequest) (hs : Agreed g s) :
    Balances g (inTurn requests) s := by
  refine Holds.callAll (P := Agreed g) (fun t t' (h : t = t') ht => h ▸ ht) ?_ trivial hs
  intro p hp t _ ht
  obtain ⟨token, hlt, rfl⟩ := List.mem_mapIdx.mp hp
  exact request_balances _ token ht

/-- After any requests, one after another, the stock of a warehouse and variant has changed by
what the movements written meanwhile add up to. -/
theorem ledger_explains_stock (requests : List StockRequest) (s : Shop) (inputs : List ShopInput)
    (hs : Sound s) (hok : Pool.SoloAdmits Recordable (inTurn requests) s inputs)
    (hend : (Pool.solo (inTurn requests) s inputs).threads[0]? = some (.done (.ok ()))) (w v : ℕ) :
    let t := (Pool.solo (inTurn requests) s inputs).state
    stockAt w v t = stockAt w v s + (booked w v t - booked w v s) := by
  have hagreed : Agreed (fun w v => gap w v s) s := ⟨hs, fun _ _ => rfl⟩
  have hfinal : Agreed (fun w v => gap w v s) (Pool.solo (inTurn requests) s inputs).state :=
    Pool.solo_post (W := ⟨Recordable, fun _ => True⟩) trivial (inTurn_balances requests hagreed) hok hend
  have hgap := hfinal.gap w v
  simp only [gap] at hgap
  dsimp only
  omega

theorem fiveUnits_sound : Sound fiveUnits := by
  refine ⟨fiveUnits_consistent, ?_, ?_⟩
  · unfold Placed
    decide
  · decide

theorem ledger_explains_stock_reserve_release :
    let t := (Pool.solo (inTurn reserveAndRelease) fiveUnits (answers 14)).state
    stockAt 0 1 t = stockAt 0 1 fiveUnits + (booked 0 1 t - booked 0 1 fiveUnits) :=
  ledger_explains_stock reserveAndRelease fiveUnits (answers 14) fiveUnits_sound (by decide) rfl 0 1

/-- Three units reserved for a cart that does not exist: no movement says where they went. -/
theorem stock_gone_without_movement :
    ¬ ∀ (requests : List StockRequest) (s : Shop) (inputs : List ShopInput), Sound s →
      (∀ i ∈ inputs, i.fails = false) →
      (Pool.solo (inTurn requests) s inputs).threads[0]? = some (.done (.ok ())) →
      ∀ w v, stockAt w v (Pool.solo (inTurn requests) s inputs).state = stockAt w v s +
        (booked w v (Pool.solo (inTurn requests) s inputs).state - booked w v s) := by
  intro h
  have hend := h [.reserve ⟨0, 1, 3, some 9, none, none, none⟩] fiveUnits (answers 7)
    fiveUnits_sound (by decide) rfl 0 1
  exact absurd hend (by decide)

end ElectronicsCart.Inventory
