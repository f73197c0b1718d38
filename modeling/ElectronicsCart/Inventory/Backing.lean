import ElectronicsCart.Inventory.Units

/-!
# Reserved units and active reservations

The units that the rows of a warehouse and variant hold as reserved are those of its active
reservations (`docs/database/InventoryFlow.md`).  `reserve` moves the units first and writes
the reservation afterwards, outside the transaction, so the two agree only when that second
write is accepted.
-/

namespace ElectronicsCart.Inventory

open Interleaving Relational Allocation

/-! ### The invariant -/

def isActive (w v : ℕ) (r : StockReservation) : Bool :=
  r.warehouseId == w && r.variantId == v && r.status == .active && !r.deleted

def activeTotal (w v : ℕ) (R : Table StockReservation) : ℤ :=
  R.total (isActive w v) StockReservation.quantity

/-- What the constraints of the tables promise. -/
structure Consistent (s : Shop) : Prop where
  nonneg : ∀ r ∈ s.inventory.rows, 0 ≤ r.available ∧ 0 ≤ r.reserved
  variant : ∀ r ∈ s.inventory.rows, s.variants.contains r.variantId = true
  quantity : ∀ r ∈ s.reservations.rows, 0 < r.quantity

/-- Every active reservation is backed by reserved units, and there are no others. -/
def Backed (s : Shop) : Prop :=
  ∀ w v, reservedTotal w v s.inventory = activeTotal w v s.reservations

/-- A write that moves no unit in or out of the reserved ones. -/
structure SameReserved (s s' : Shop) : Prop where
  reservations : s'.reservations = s.reservations
  reserved : ∀ w v, reservedTotal w v s'.inventory = reservedTotal w v s.inventory
  consistent : Consistent s → Consistent s'

variable {s s' s'' : Shop}

theorem SameReserved.backed (h : SameReserved s s') (hs : Backed s) : Backed s' := by
  intro w v
  rw [h.reserved, h.reservations]
  exact hs w v

theorem SameReserved.trans (h : SameReserved s s') (h' : SameReserved s' s'') : SameReserved s s'' :=
  ⟨h'.reservations.trans h.reservations, fun w v => (h'.reserved w v).trans (h.reserved w v),
    fun hs => h'.consistent (h.consistent hs)⟩

theorem SameReserved.of_eq (hi : s'.inventory = s.inventory) (hr : s'.reservations = s.reservations)
    (hv : s'.variants = s.variants) : SameReserved s s' := by
  refine ⟨hr, fun w v => by rw [hi], fun hs => ⟨?_, ?_, ?_⟩⟩
  · rw [hi]
    exact hs.nonneg
  · rw [hi, hv]
    exact hs.variant
  · rw [hr]
    exact hs.quantity

/-! ### Writes that leave the reserved units alone -/

theorem updateRow_same {id : ℕ} {n : ℤ} {T : Table InventoryRow}
    (h : updateRow id (addUnits n) (key_addUnits n) s.inventory = .ok T) :
    SameReserved s { s with inventory := T } := by
  obtain ⟨r, hr, hvalid, rfl⟩ := updateRow_eq_ok.mp h
  refine ⟨rfl, fun w v => ?_, fun hs => ⟨?_, ?_, hs.quantity⟩⟩
  · refine Table.total_updateWhere_of_eq (key_addUnits n) fun a _ _ => ?_
    rw [listed_addUnits]
    rfl
  · refine Table.forall_update (key_addUnits n) (fun b hb hk => ?_) fun b hb _ => hs.nonneg b hb
    obtain rfl : b = r := Table.eq_of_find?_eq hr hb hk
    exact validRow_nonneg hvalid
  · exact Table.forall_update (key_addUnits n) (fun b hb _ => hs.variant b hb) fun b hb _ => hs.variant b hb

theorem createRow_same {w b v : ℕ} {n : ℤ} {r : InventoryRow}
    (h : createRow w b v n s = .ok (r, s')) : SameReserved s s' := by
  simp only [createRow, bind_eq_ok, check_eq_ok, pure_eq_ok,
    Prod.mk.injEq] at h
  obtain ⟨-, hv, -, -, -, hvalid, -, rfl⟩ := h
  refine ⟨rfl, fun w' v' => ?_, fun hs => ⟨?_, ?_, hs.quantity⟩⟩
  · rw [reservedTotal, Table.total_insert]
    simp [reservedTotal]
  · intro a ha
    rcases (Table.mem_insert fun _ => by rfl).mp ha with ha | rfl
    · exact hs.nonneg a ha
    · exact validRow_nonneg hvalid
  · intro a ha
    rcases (Table.mem_insert fun _ => by rfl).mp ha with ha | rfl
    · exact hs.variant a ha
    · exact hv

theorem insertMovement_same {mk : ℕ → InventoryMovement} {hmk : ∀ n, key (mk n) = n}
    (h : insertMovement mk hmk s = .ok s') : SameReserved s s' := by
  simp only [insertMovement, bind_eq_ok, check_eq_ok, pure_eq_ok] at h
  obtain ⟨-, -, -, -, rfl⟩ := h
  exact .of_eq rfl rfl rfl

theorem receiveUnits_same {w b v : ℕ} {n : ℤ} (h : receiveUnits w b v n s = .ok s') :
    SameReserved s s' := by
  unfold receiveUnits at h
  split at h
  · simp only [bind_eq_ok, pure_eq_ok] at h
    obtain ⟨T, hT, rfl⟩ := h
    exact updateRow_same hT
  · simp only [bind_eq_ok, pure_eq_ok] at h
    obtain ⟨⟨r, s₁⟩, hr, rfl⟩ := h
    exact createRow_same hr

theorem receivePurchaseOrderItem_same {id : Option ℕ} {n : ℤ}
    (h : receivePurchaseOrderItem id n s = .ok s') : SameReserved s s' := by
  cases id with
  | none =>
    cases h
    exact .of_eq rfl rfl rfl
  | some id =>
    simp only [receivePurchaseOrderItem, bind_eq_ok, check_eq_ok, pure_eq_ok] at h
    obtain ⟨-, -, -, -, rfl⟩ := h
    exact .of_eq rfl rfl rfl

theorem createSerials_writes {w : ℕ} {item : GoodsReceiptItemDto} {serials : List String}
    (h : createSerials w item serials s = .ok s') :
    ∃ numbers, s' = { s with serialNumbers := numbers } := by
  induction serials generalizing s with
  | nil =>
    cases h
    exact ⟨_, rfl⟩
  | cons serial rest ih =>
    simp only [createSerials] at h
    split at h
    · cases h
    · simp only [bind_eq_ok] at h
      obtain ⟨-, -, h⟩ := h
      obtain ⟨numbers, hrest⟩ := ih h
      exact ⟨numbers, hrest⟩

theorem createSerials_same {w : ℕ} {item : GoodsReceiptItemDto} {serials : List String}
    (h : createSerials w item serials s = .ok s') : SameReserved s s' := by
  obtain ⟨numbers, rfl⟩ := createSerials_writes h
  exact .of_eq rfl rfl rfl

theorem receiveItem_same {w receiptId : ℕ} {item : GoodsReceiptItemDto}
    (h : receiveItem w receiptId item s = .ok s') : SameReserved s s' := by
  simp only [receiveItem, bind_eq_ok] at h
  obtain ⟨-, -, -, -, -, -, s₁, h₁, s₂, h₂, s₃, h₃, h₄⟩ := h
  have h₀ : SameReserved s { s with goodsReceiptItems := s.goodsReceiptItems.insert fun n =>
      ⟨n, receiptId, item.variantId, item.purchaseOrderItemId, item.quantityReceived,
        item.unitCost⟩ } := .of_eq rfl rfl rfl
  exact (((h₀.trans (receiveUnits_same h₁)).trans (insertMovement_same h₂)).trans
    (receivePurchaseOrderItem_same h₃)).trans (createSerials_same h₄)

theorem receiveItems_same {w receiptId : ℕ} {items : List GoodsReceiptItemDto}
    (h : receiveItems w receiptId items s = .ok s') : SameReserved s s' := by
  induction items generalizing s with
  | nil =>
    cases h
    exact .of_eq rfl rfl rfl
  | cons item items ih =>
    simp only [receiveItems, bind_eq_ok] at h
    obtain ⟨s₁, h₁, h⟩ := h
    exact (receiveItem_same h₁).trans (ih h)

theorem postGoodsReceipt_same {dto : CreateGoodsReceiptDto} {g : GoodsReceipt}
    (h : postGoodsReceipt dto s = .ok (g, s')) : SameReserved s s' := by
  simp only [postGoodsReceipt, bind_eq_ok, pure_eq_ok, Prod.mk.injEq] at h
  obtain ⟨-, -, -, -, -, -, s₁, h₁, -, rfl⟩ := h
  refine SameReserved.trans ?_ (receiveItems_same h₁)
  exact .of_eq rfl rfl rfl

theorem transferItem_same {dto : CreateTransferDto} {transferId : ℕ} {item : TransferItemDto}
    (h : transferItem dto transferId item s = .ok s') : SameReserved s s' := by
  simp only [transferItem, bind_eq_ok] at h
  obtain ⟨source, -, -, -, -, -, -, -, T, hT, s₁, h₁, -, -, s₂, h₂, h₃⟩ := h
  have h₀ : SameReserved s₁ { s₁ with transferItems := s₁.transferItems.insert fun n =>
      ⟨n, transferId, item.variantId, item.quantity⟩ } := .of_eq rfl rfl rfl
  exact ((((updateRow_same hT).trans (receiveUnits_same h₁)).trans h₀).trans
    (insertMovement_same h₂)).trans (insertMovement_same h₃)

theorem transferItems_same {dto : CreateTransferDto} {transferId : ℕ} {items : List TransferItemDto}
    (h : transferItems dto transferId items s = .ok s') : SameReserved s s' := by
  induction items generalizing s with
  | nil =>
    cases h
    exact .of_eq rfl rfl rfl
  | cons item items ih =>
    simp only [transferItems, bind_eq_ok] at h
    obtain ⟨s₁, h₁, h⟩ := h
    exact (transferItem_same h₁).trans (ih h)

theorem postTransfer_same {dto : CreateTransferDto} {t : StockTransfer}
    (h : postTransfer dto s = .ok (t, s')) : SameReserved s s' := by
  simp only [postTransfer, bind_eq_ok, pure_eq_ok, Prod.mk.injEq] at h
  obtain ⟨-, -, -, -, -, -, s₁, h₁, -, rfl⟩ := h
  refine SameReserved.trans ?_ (transferItems_same h₁)
  exact .of_eq rfl rfl rfl

end ElectronicsCart.Inventory
