import ElectronicsCart.Inventory.TransferRuns

/-!
# A goods receipt by itself

`createGoodsReceipt` posts all its items in one transaction.  A later item may add to a row that an
earlier one has created, and may list a serial number that an earlier one has inserted.
-/

namespace ElectronicsCart.Inventory

open Interleaving Relational

/-! ### What is counted -/

def inBin (b v : ℕ) (s : Shop) : ℤ :=
  s.inventory.total (fun r => r.binId == b && r.variantId == v && !r.deleted) InventoryRow.available

/-- The `quantity_received` of a purchase order item. -/
def receivedOn (id : ℕ) (s : Shop) : ℤ :=
  ((s.purchaseOrderItems.find? id).map PurchaseOrderItem.quantityReceived).getD 0

/-- The rows that have a serial number and are not deleted. -/
def serialsNamed (serial : String) (s : Shop) : ℕ :=
  s.serialNumbers.rows.countP fun n => n.serialNumber == serial && !n.deleted

section Items

variable (items : List GoodsReceiptItemDto)

def arriving (b v : ℕ) : ℤ :=
  (items.map fun i => if i.binId = b ∧ i.variantId = v then i.quantityReceived else 0).sum

def arrivingOn (id : ℕ) : ℤ :=
  (items.map fun i => if i.purchaseOrderItemId = some id then i.quantityReceived else 0).sum

def serialsOf : List String := items.flatMap GoodsReceiptItemDto.serialNumbers

end Items

/-- Serial numbers that were inserted: each of them is new, and listed once. -/
structure Numbered (serials : List String) (s s' : Shop) : Prop where
  more : ∀ serial, serialsNamed serial s' = serialsNamed serial s + serials.count serial
  fresh : ∀ serial ∈ serials, serialsNamed serial s = 0 ∧ serials.count serial = 1

structure Stocked (items : List GoodsReceiptItemDto) (s s' : Shop) : Prop extends
    Numbered (serialsOf items) s s' where
  stock : ∀ b v, inBin b v s' = inBin b v s + arriving items b v
  orders : ∀ id, receivedOn id s' = receivedOn id s + arrivingOn items id
  receipts : s'.goodsReceipts = s.goodsReceipts

variable {s s' s'' : Shop} {w : ℕ}

theorem Numbered.trans {xs ys : List String} (h : Numbered xs s s') (h' : Numbered ys s' s'') :
    Numbered (xs ++ ys) s s'' where
  more serial := by
    rw [h'.more, h.more, List.count_append]
    omega
  fresh serial hmem := by
    rw [List.count_append]
    have hmore := h.more serial
    rcases List.mem_append.mp hmem with hx | hy
    · obtain ⟨hnone, hone⟩ := h.fresh serial hx
      -- the serial is there after the first items, so that the others cannot list it
      have hlater : serial ∉ ys := by
        intro hy
        have hfree := (h'.fresh serial hy).1
        omega
      rw [List.count_eq_zero_of_not_mem hlater]
      exact ⟨hnone, by omega⟩
    · obtain ⟨hnone, hone⟩ := h'.fresh serial hy
      exact ⟨by omega, by omega⟩

theorem Stocked.cons {i : GoodsReceiptItemDto} {items : List GoodsReceiptItemDto}
    (h : Stocked [i] s s') (h' : Stocked items s' s'') : Stocked (i :: items) s s'' where
  toNumbered := by
    have hboth := h.toNumbered.trans h'.toNumbered
    simpa [serialsOf] using hboth
  stock b v := by
    rw [h'.stock, h.stock]
    simp only [arriving, List.map_cons, List.map_nil, List.sum_cons, List.sum_nil]
    omega
  orders id := by
    rw [h'.orders, h.orders]
    simp only [arrivingOn, List.map_cons, List.map_nil, List.sum_cons, List.sum_nil]
    omega
  receipts := h'.receipts.trans h.receipts

/-! ### One item -/

theorem serialsNamed_insert {serial other : String} {row : ℕ → SerialNumber}
    {hrow : ∀ n, key (row n) = n} (hname : (row s.serialNumbers.next).serialNumber = other)
    (hkept : (row s.serialNumbers.next).deleted = false) :
    serialsNamed serial { s with serialNumbers := s.serialNumbers.insert row hrow } =
      serialsNamed serial s + if other = serial then 1 else 0 := by
  simp [serialsNamed, Table.insert, List.countP_append, List.countP_singleton, hname, hkept]

theorem serialsNamed_eq_zero {serial : String}
    (h : (s.serialNumbers.first? fun n => n.serialNumber == serial && !n.deleted) = none) :
    serialsNamed serial s = 0 := by
  have hnone := List.find?_eq_none.mp h
  exact List.countP_eq_zero.mpr hnone

theorem createSerials_numbered {item : GoodsReceiptItemDto} {serials : List String}
    (h : createSerials w item serials s = .ok s') : Numbered serials s s' := by
  induction serials generalizing s with
  | nil =>
    obtain rfl := Except.ok.inj h
    exact ⟨fun _ => rfl, fun _ hmem => absurd hmem List.not_mem_nil⟩
  | cons serial rest ih =>
    simp only [createSerials] at h
    split at h
    · cases h
    next hdup =>
      have hnone := serialsNamed_eq_zero (Option.not_isSome_iff_eq_none.mp hdup)
      simp only [bind_eq_ok] at h
      obtain ⟨-, -, h⟩ := h
      have hfirst : Numbered [serial] s { s with serialNumbers := s.serialNumbers.insert fun n =>
          ⟨n, serial, w, item.binId, item.variantId, item.purchaseOrderItemId, false⟩ } := by
        refine ⟨fun other => ?_, fun other hmem => ?_⟩
        · rw [serialsNamed_insert rfl rfl, List.count_singleton]
          simp only [beq_iff_eq]
        · obtain rfl := List.mem_singleton.mp hmem
          exact ⟨hnone, List.count_singleton_self⟩
      exact hfirst.trans (ih h)

theorem createSerials_tables {item : GoodsReceiptItemDto} {serials : List String}
    (h : createSerials w item serials s = .ok s') :
    s'.purchaseOrderItems = s.purchaseOrderItems ∧ s'.goodsReceipts = s.goodsReceipts := by
  obtain ⟨numbers, rfl⟩ := createSerials_writes h
  exact ⟨rfl, rfl⟩

theorem receivePurchaseOrderItem_ordered {i : Option ℕ} {n : ℤ}
    (h : receivePurchaseOrderItem i n s = .ok s') :
    (∀ id, receivedOn id s' = receivedOn id s + if i = some id then n else 0) ∧
      s'.serialNumbers = s.serialNumbers ∧ s'.goodsReceipts = s.goodsReceipts := by
  cases i with
  | none =>
    obtain rfl := Except.ok.inj h
    exact ⟨fun id => by simp, rfl, rfl⟩
  | some i =>
    simp only [receivePurchaseOrderItem, bind_eq_ok, existing_eq_ok, check_eq_ok, pure_eq_ok] at h
    obtain ⟨item, hitem, -, -, rfl⟩ := h
    refine ⟨fun id => ?_, rfl, rfl⟩
    by_cases hid : i = id
    · subst hid
      rw [if_pos rfl]
      simp only [receivedOn, Table.find?_update_self _ hitem, hitem, Option.map_some, Option.getD_some]
    · rw [if_neg (by simpa using hid), add_zero]
      simp only [receivedOn, Table.find?_update_ne _ (Ne.symm hid)]

theorem receiveUnits_inBin {b v : ℕ} {n : ℤ} (h : receiveUnits w b v n s = .ok s') :
    (∀ b' v', inBin b' v' s' = inBin b' v' s + if b = b' ∧ v = v' then n else 0) ∧
      s' = { s with inventory := s'.inventory } := by
  have hstatic : ∀ b' v', Static fun r => r.binId == b' && r.variantId == v' && !r.deleted :=
    fun _ _ _ _ => rfl
  unfold receiveUnits at h
  split at h
  next r hr =>
    simp only [bind_eq_ok, pure_eq_ok] at h
    obtain ⟨T, hT, rfl⟩ := h
    obtain ⟨hmem, rfl, rfl, hkept⟩ := findRow_some hr
    have hfind : s.inventory.find? r.id = some r := Table.find?_eq_some_iff.mpr ⟨hmem, rfl⟩
    refine ⟨fun b' v' => ?_, rfl⟩
    refine (total_addUnits (hstatic b' v') hfind hT).trans ?_
    simp [hkept, inBin]
  next =>
    simp only [bind_eq_ok, pure_eq_ok] at h
    obtain ⟨⟨r, s₁⟩, hr, rfl⟩ := h
    simp only [createRow, bind_eq_ok, check_eq_ok, pure_eq_ok, Prod.mk.injEq] at hr
    obtain ⟨-, -, -, -, -, -, -, rfl⟩ := hr
    refine ⟨fun b' v' => ?_, rfl⟩
    simp [inBin, Table.total_insert]

theorem receiveItem_stocked {receiptId : ℕ} {item : GoodsReceiptItemDto}
    (h : receiveItem w receiptId item s = .ok s') : Stocked [item] s s' := by
  simp only [receiveItem, bind_eq_ok] at h
  obtain ⟨-, -, -, -, -, -, s₁, h₁, s₂, h₂, s₃, h₃, h₄⟩ := h
  obtain ⟨hunits, hframe⟩ := receiveUnits_inBin h₁
  obtain ⟨horders, hserials, hreceipts⟩ := receivePurchaseOrderItem_ordered h₃
  obtain ⟨hinv₃, -, -⟩ := receivePurchaseOrderItem_frame h₃
  obtain ⟨hinv₄, -, -⟩ := createSerials_frame h₄
  obtain ⟨horders₄, hreceipts₄⟩ := createSerials_tables h₄
  have hmove := insertMovement_eq h₂
  have hnumbered := createSerials_numbered h₄
  have hbefore : ∀ serial, serialsNamed serial s₃ = serialsNamed serial s := by
    intro serial
    rw [serialsNamed, hserials, hmove, hframe]
    rfl
  refine ⟨⟨fun serial => ?_, fun serial hmem => ?_⟩, fun b v => ?_, fun id => ?_, ?_⟩
  · rw [hnumbered.more, hbefore]
    simp [serialsOf]
  · obtain ⟨hnone, hone⟩ := hnumbered.fresh serial (by simpa [serialsOf] using hmem)
    exact ⟨(hbefore serial).symm.trans hnone, by simpa [serialsOf] using hone⟩
  · have hsame : inBin b v s' = inBin b v s₁ := by
      rw [inBin, hinv₄, hinv₃, hmove]
      rfl
    rw [hsame, hunits b v]
    simp [arriving, inBin]
  · have hsame : receivedOn id s₂ = receivedOn id s := by
      rw [hmove, receivedOn, hframe]
      rfl
    have hlast : receivedOn id s' = receivedOn id s₃ := by rw [receivedOn, horders₄, receivedOn]
    rw [hlast, horders id, hsame]
    simp [arrivingOn]
  · rw [hreceipts₄, hreceipts, hmove, hframe]

theorem receiveItems_stocked {receiptId : ℕ} {items : List GoodsReceiptItemDto}
    (h : receiveItems w receiptId items s = .ok s') : Stocked items s s' := by
  induction items generalizing s with
  | nil =>
    obtain rfl := Except.ok.inj h
    exact ⟨⟨fun _ => rfl, fun _ hmem => absurd hmem List.not_mem_nil⟩, fun _ _ => by simp [arriving],
      fun _ => by simp [arrivingOn], rfl⟩
  | cons i items ih =>
    simp only [receiveItems, bind_eq_ok] at h
    obtain ⟨s₁, h₁, h⟩ := h
    exact (receiveItem_stocked h₁).cons (ih h)

/-! ### The request -/

structure NothingReceived (s t : Shop) : Prop where
  inventory : t.inventory = s.inventory
  orders : t.purchaseOrderItems = s.purchaseOrderItems
  serials : t.serialNumbers = s.serialNumbers
  movements : t.movements = s.movements
  receipts : t.goodsReceipts = s.goodsReceipts ∧ t.goodsReceiptItems = s.goodsReceiptItems

structure AllReceived (dto : CreateGoodsReceiptDto) (s t : Shop) : Prop where
  stock : ∀ b v, inBin b v t = inBin b v s + arriving dto.items b v
  orders : ∀ id, receivedOn id t = receivedOn id s + arrivingOn dto.items id
  serials : ∀ serial ∈ serialsOf dto.items, serialsNamed serial s = 0 ∧ serialsNamed serial t = 1

/-- What the caller of a goods receipt may conclude from its outcome. -/
def AllOrNothingReceived (dto : CreateGoodsReceiptDto) (s : Shop) :
    Except Failure GoodsReceipt → Shop → Prop
  | .ok _, t => AllReceived dto s t
  | .error _, t => NothingReceived s t

/-- The release of the lock fails only when no receipt was written since `s`. -/
def ReleasedOnceReceived (s : Shop) : ShopCall → ShopInput → Shop → Prop
  | .release _ _, i, t => i.fails = true → t.goodsReceipts.next = s.goodsReceipts.next
  | _, _, _ => True

instance (s : Shop) (l : ShopCall) (i : ShopInput) (t : Shop) :
    Decidable (ReleasedOnceReceived s l i t) :=
  match l with
  | .release _ _ =>
    inferInstanceAs (Decidable (i.fails = true → t.goodsReceipts.next = s.goodsReceipts.next))
  | .acquire _ _ | .deadline _ | .timer _ | .stock _ | .payment _ | .order _ | .rma _ =>
    inferInstanceAs (Decidable True)

theorem nothingReceived_refl (s : Shop) : NothingReceived s s := ⟨rfl, rfl, rfl, rfl, rfl, rfl⟩

theorem postGoodsReceipt_received {dto : CreateGoodsReceiptDto} {g : GoodsReceipt}
    (h : postGoodsReceipt dto s = .ok (g, s')) :
    AllReceived dto s s' ∧ s'.goodsReceipts.next = s.goodsReceipts.next + 1 := by
  simp only [postGoodsReceipt, bind_eq_ok, pure_eq_ok, Prod.mk.injEq] at h
  obtain ⟨-, -, -, -, -, -, s₁, h₁, -, rfl⟩ := h
  have hitems := receiveItems_stocked h₁
  refine ⟨⟨hitems.stock, hitems.orders, fun serial hmem => ?_⟩, by rw [hitems.receipts]; rfl⟩
  obtain ⟨hnone, hone⟩ := hitems.fresh serial hmem
  have hmore := hitems.more serial
  exact ⟨hnone, by omega⟩

/-- The outcome of the critical section, before the lock is given back. -/
def ReceiptPosted (dto : CreateGoodsReceiptDto) (s : Shop) : Except Failure GoodsReceipt → Shop → Prop
  | .ok _, t => AllReceived dto s t ∧ t.goodsReceipts.next ≠ s.goodsReceipts.next
  | .error _, t => NothingReceived s t

theorem ReceiptPosted.drop {dto : CreateGoodsReceiptDto} {r : Except Failure GoodsReceipt} {t : Shop}
    {m : LockStore ShopLock} (h : ReceiptPosted dto s r t) :
    AllOrNothingReceived dto s r { t with locks := m } := by
  cases r with
  | ok g => exact ⟨h.1.stock, h.1.orders, h.1.serials⟩
  | error e => exact ⟨h.inventory, h.orders, h.serials, h.movements, h.receipts⟩

theorem createGoodsReceipt_alone {token : ℕ} {dto : CreateGoodsReceiptDto} :
    Alone (ReleasedOnceReceived s) (AllOrNothingReceived dto s) (createGoodsReceipt token dto) s := by
  refine Alone.queryBind (fun i _ _ => ?_) fun _ _ _ => nothingReceived_refl s
  refine Alone.ensureBind (fun _ => ?_) fun _ => nothingReceived_refl s
  refine Alone.ensureBind (fun _ => ?_) fun _ => nothingReceived_refl s
  refine Alone.withLock (R := ReceiptPosted dto s) (fun _ _ _ _ => nothingReceived_refl s)
    (fun _ => ?_) (fun r t hr => ?_) fun r i t hr ho hf => ?_
  · refine requireWarehouse_alone (fun _ => ⟨rfl, rfl, rfl, rfl, rfl, rfl⟩) fun _ _ => ?_
    refine Alone.atomic (fun i g u _ _ hu => ?_) fun _ _ _ _ => ⟨rfl, rfl, rfl, rfl, rfl, rfl⟩
    obtain ⟨hall, hnext⟩ := postGoodsReceipt_received hu
    refine ⟨⟨hall.stock, hall.orders, hall.serials⟩, ?_⟩
    exact fun h => Nat.succ_ne_self _ (hnext.symm.trans h)
  · rcases LockService.drop_cases (L := ShopCall) (ShopLock.grn dto.warehouseId) token t with
      ⟨-, hd⟩ | hd
    · rw [hd]
      exact hr.drop
    · rw [hd]
      exact hr.drop
  · cases r with
    | ok g => exact absurd (ho hf) hr.2
    | error e => exact hr

theorem createGoodsReceipt_exits (token : ℕ) (dto : CreateGoodsReceiptDto) (s : Shop) :
    (createGoodsReceipt token dto).Exits (fun l i t => ¬ ReleasedOnceReceived s l i t)
      fun r t => r = .error .database ∧ t.goodsReceipts.next ≠ s.goodsReceipts.next := by
  refine Prog.Exits.bind (every_query fun i t _ => not_not.mpr trivial) fun found => ?_
  refine Prog.Exits.bind (Prog.every_ensure _ _) fun _ => Prog.Exits.bind (Prog.every_ensure _ _) fun _ => ?_
  refine LockService.exits_withLock (fun i t => not_not.mpr trivial) ?_ fun i t hb => ?_
  · refine Prog.Every.bind ?_ fun _ => ?_
    · exact Prog.Every.bind (every_query fun i t _ => not_not.mpr trivial) fun _ => Prog.every_orThrow _ _
    · exact every_atomic (fun _ _ _ => not_not.mpr trivial) fun _ _ _ _ _ _ _ => not_not.mpr trivial
  · have hfail : i.fails = true ∧ t.goodsReceipts.next ≠ s.goodsReceipts.next := by
      by_contra hcon
      exact hb fun hf => by_contra fun hnext => hcon ⟨hf, hnext⟩
    exact ⟨hfail.1, rfl, hfail.2⟩

/-- A goods receipt that runs by itself is all or nothing for its caller exactly when the release of
its lock does not fail after the commit. -/
theorem receipt_all_or_nothing_iff (token : ℕ) (dto : CreateGoodsReceiptDto) (s : Shop)
    (inputs : List ShopInput) (r : Except Failure GoodsReceipt)
    (hr : (Pool.solo (createGoodsReceipt token dto) s inputs).threads[0]? = some (.done r)) :
    AllOrNothingReceived dto s r (Pool.solo (createGoodsReceipt token dto) s inputs).state ↔
      Pool.SoloAdmits (ReleasedOnceReceived s) (createGoodsReceipt token dto) s inputs := by
  constructor
  · intro hwhole
    by_contra hbad
    obtain ⟨r', hr', rfl, hnext⟩ := Pool.solo_exits (createGoodsReceipt_exits token dto s)
      (by simpa only [not_not] using hbad)
    obtain rfl : r = .error .database := by simpa using hr.symm.trans hr'
    exact hnext (congrArg Table.next hwhole.receipts.1)
  · intro hok
    exact Pool.solo_post (W := ⟨ReleasedOnceReceived s, fun _ => True⟩) trivial
      createGoodsReceipt_alone hok hr

/-- Two warehouses, a supplier, and an order of ten units of variant 1. -/
def expectingTen : Shop := { twoSites with
  suppliers := [0]
  purchaseOrderItems := Table.empty.insert fun n => { id := n, quantityOrdered := 10 } }

/-- Two items of one order for the second bin, the first of which finds no row there. -/
def twoParcels : CreateGoodsReceiptDto where
  grnNumber := "GRN-1"
  supplierId := 0
  warehouseId := 1
  items :=
    [{ variantId := 1, quantityReceived := 2, binId := 1, purchaseOrderItemId := some 0,
       serialNumbers := ["A", "B"] },
     { variantId := 1, quantityReceived := 1, binId := 1, purchaseOrderItemId := some 0,
       serialNumbers := ["C"] }]

theorem receipt_all_or_nothing_iff_twoParcels :
    AllOrNothingReceived twoParcels expectingTen (.ok ⟨0, "GRN-1", 0, 1, none, none, false⟩)
        (Pool.solo (createGoodsReceipt 7 twoParcels) expectingTen (answers 5)).state ↔
      Pool.SoloAdmits (ReleasedOnceReceived expectingTen) (createGoodsReceipt 7 twoParcels)
        expectingTen (answers 5) :=
  receipt_all_or_nothing_iff 7 twoParcels expectingTen (answers 5) _ rfl

/-- The goods are in stock, and the caller gets the error of the release. -/
theorem goods_received_and_rejected :
    ¬ ∀ (token : ℕ) (dto : CreateGoodsReceiptDto) (s : Shop) (inputs : List ShopInput)
      (r : Except Failure GoodsReceipt),
      (Pool.solo (createGoodsReceipt token dto) s inputs).threads[0]? = some (.done r) →
      AllOrNothingReceived dto s r (Pool.solo (createGoodsReceipt token dto) s inputs).state := by
  intro h
  have hend := h 7 twoParcels expectingTen (answers 4 ++ [{ fails := true, reply := {} }])
    (.error .database) rfl
  exact absurd (congrArg Table.next hend.receipts.1) (by decide +kernel)

end ElectronicsCart.Inventory
