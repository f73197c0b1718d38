import ElectronicsCart.Inventory.TransferRuns

/-!
# Low stock alerts over sequential runs

`reserve` and `adjust` end with `maybeLowStock`, which opens an alert unless one is open.
`createTransfer` takes stock out of a warehouse and never looks at its level.
-/

namespace ElectronicsCart.Inventory

open Interleaving Relational Allocation

/-! ### Alerts -/

/-- An open alert of the warehouse and variant, as `openLowStock` finds it. -/
def isOpen (w v : ℕ) (a : LowStockAlert) : Bool :=
  a.warehouseId == w && a.variantId == v && a.status == .opened && !a.deleted

def openAlerts (w v : ℕ) (s : Shop) : List LowStockAlert := s.alerts.rows.filter (isOpen w v)

def OneAlert (s : Shop) : Prop := ∀ w v, (openAlerts w v s).length ≤ 1

/-- A stock at or under its reorder level has an open alert. -/
def Alerted (w v : ℕ) (s : Shop) : Prop :=
  0 < reorderLevel w v s.inventory →
    availableTotal w v s.inventory ≤ reorderLevel w v s.inventory → openAlerts w v s ≠ []

/-- What a transfer leaves of a variant in its source warehouse needs no new alert. -/
def needsNoAlert (dto : CreateTransferDto) (v : ℕ) (s : Shop) : Bool :=
  let w := dto.fromWarehouseId
  !(openAlerts w v s).isEmpty || decide (reorderLevel w v s.inventory ≤ 0) ||
    decide (reorderLevel w v s.inventory < availableTotal w v s.inventory - moved v dto.items)

/-- No transfer is posted that takes a stock down to its reorder level without an open alert. -/
def NoSilentTransfer : ShopCall → ShopInput → Shop → Prop
  | .stock (.postTransfer dto), _, s => (dto.items.all fun i => needsNoAlert dto i.variantId s) = true
  | _, _, _ => True

instance (l : ShopCall) (i : ShopInput) (s : Shop) : Decidable (NoSilentTransfer l i s) := by
  unfold NoSilentTransfer
  split <;> infer_instance

structure Watched (s : Shop) : Prop where
  one : OneAlert s
  placed : Placed s

/-- What a request that began in `s` has done when it returns. -/
def Watches {α : Type} (s : Shop) : Except Failure α → Shop → Prop
  | .ok _, t => Watched t ∧ ∀ w v,
      availableTotal w v t.inventory < availableTotal w v s.inventory → Alerted w v t
  | .error _, t => Watched t

/-- Only the stock of one warehouse and variant may have fallen since `s`. -/
structure Lowered (s : Shop) (w v : ℕ) (t : Shop) : Prop extends Watched t where
  others : ∀ w' v', (w', v') ≠ (w, v) →
    availableTotal w' v' s.inventory ≤ availableTotal w' v' t.inventory

variable {s t u : Shop} {w v : ℕ}

/-! ### The check -/

theorem reorder_findRows (rank : ℕ → ℕ) (T : Table InventoryRow) :
    ((findRows rank w v T).map InventoryRow.reorderLevel).foldr max 0 = reorderLevel w v T :=
  ((findRows_perm rank).map InventoryRow.reorderLevel).foldr_eq 0

theorem Watched.of_eq (ht : Watched t) (hi : u.inventory = t.inventory) (hb : u.bins = t.bins)
    (ha : u.alerts = t.alerts) : Watched u := by
  refine ⟨fun w v => ?_, placed_of_eq hi hb ht.placed⟩
  rw [openAlerts, ha]
  exact ht.one w v

theorem Lowered.of_eq (ht : Lowered s w v t) (hi : u.inventory = t.inventory)
    (hb : u.bins = t.bins) (ha : u.alerts = t.alerts) : Lowered s w v u := by
  refine ⟨ht.toWatched.of_eq hi hb ha, ?_⟩
  rw [hi]
  exact ht.others

theorem Lowered.watches {α : Type} {a : α} (ht : Lowered s w v t) (h : Alerted w v t) :
    Watches s (.ok a) t := by
  refine ⟨ht.toWatched, fun w' v' hlt => ?_⟩
  by_cases hw : (w', v') = (w, v)
  · obtain ⟨rfl, rfl⟩ := Prod.mk.inj hw
    exact h
  · exact absurd hlt (ht.others w' v' hw).not_gt

theorem createAlert_watched {available reorder : ℤ} {b : Unit} (ht : Watched t)
    (hnone : openAlerts w v t = []) (h : createAlert w v available reorder t = .ok (b, u)) :
    Watched u ∧ u.inventory = t.inventory ∧ u.bins = t.bins ∧ openAlerts w v u ≠ [] := by
  simp only [createAlert, bind_eq_ok, pure_eq_ok, Prod.mk.injEq] at h
  obtain ⟨-, -, -, rfl⟩ := h
  have hrows : ∀ w' v', openAlerts w' v' { t with alerts := t.alerts.insert fun n =>
      { id := n, warehouseId := w, variantId := v, available := available, reorderLevel := reorder } } =
      openAlerts w' v' t ++ if (w', v') = (w, v) then
        [{ id := t.alerts.next, warehouseId := w, variantId := v, available := available,
           reorderLevel := reorder }] else [] := by
    intro w' v'
    by_cases hw : (w', v') = (w, v)
    · obtain ⟨rfl, rfl⟩ := Prod.mk.inj hw
      simp [openAlerts, Table.insert, isOpen]
    · have hne : ¬ (w = w' ∧ v = v') := fun h => hw (by rw [h.1, h.2])
      simp [openAlerts, Table.insert, isOpen, hne, hw]
  refine ⟨⟨fun w' v' => ?_, ht.placed⟩, rfl, rfl, ?_⟩
  · rw [hrows]
    have hone := ht.one w' v'
    split
    next hw =>
      obtain ⟨rfl, rfl⟩ := Prod.mk.inj hw
      rw [hnone]
      exact Nat.le_refl 1
    next =>
      rw [List.append_nil]
      exact hone
  · rw [hrows, if_pos rfl]
    simp

theorem maybeLowStock_watches {ok : ShopCall → ShopInput → Shop → Prop} (ht : Lowered s w v t) :
    Alone ok (Watches s) (maybeLowStock w v) t := by
  refine Alone.queryBind (fun i _ _ => ?_) fun _ _ _ => ht.toWatched
  have htotal : totalAvailable (findRows i.rank w v t.inventory) = availableTotal w v t.inventory :=
    sum_findRows i.rank InventoryRow.available
  rw [reorder_findRows, htotal]
  dsimp only
  split
  next hlevel =>
    -- the stock is over its level, or has none
    refine Alone.done (ht.watches fun hpos hle => ?_)
    rcases hlevel with h | h
    · exact absurd hpos (not_lt.mpr h)
    · exact absurd hle (not_le.mpr h)
  next =>
    refine Alone.queryBind (fun i' _ _ => ?_) fun _ _ _ => ht.toWatched
    split
    next hsome =>
      refine Alone.done (ht.watches fun _ _ hnil => ?_)
      obtain ⟨a, ha⟩ := Option.isSome_iff_exists.mp hsome
      obtain ⟨hmem, hopen⟩ := Table.first?_mem ha
      have : a ∈ openAlerts w v t := List.mem_filter.mpr ⟨hmem, hopen⟩
      rw [hnil] at this
      cases this
    next hnone =>
      have hempty : openAlerts w v t = [] := by
        rw [Option.isSome_iff_ne_none, not_not, Table.first?, List.find?_eq_none] at hnone
        refine List.filter_eq_nil_iff.mpr fun a ha => ?_
        exact hnone a ha
      refine Alone.atomic (fun i'' b u _ _ hu => ?_) fun _ _ _ _ => ht.toWatched
      obtain ⟨hw, hi, hb, hopen⟩ := createAlert_watched ht.toWatched hempty hu
      have hlow : Lowered s w v u := ⟨hw, by rw [hi]; exact ht.others⟩
      exact hlow.watches fun _ _ => hopen

/-! ### Requests -/

variable {ok : ShopCall → ShopInput → Shop → Prop}

theorem Watches.setLocks {α : Type} {r : Except Failure α} (h : Watches s r t)
    (m : LockStore ShopLock) : Watches s r (Lockable.setLocks ShopCall m t) := by
  cases r with
  | ok a => exact ⟨h.1.of_eq rfl rfl rfl, h.2⟩
  | error e => exact h.of_eq rfl rfl rfl

theorem Watches.watched {α : Type} {r : Except Failure α} (h : Watches s r t) : Watched t := by
  cases r with
  | ok a => exact h.1
  | error e => exact h

theorem watches_withLock {α : Type} {key : ShopLock} {token : ℕ} {fn : ShopProg α} (hs : Watched s)
    (hfn : ∀ m, Watched (Lockable.setLocks ShopCall m s) →
      Alone ok (Watches s) fn (Lockable.setLocks ShopCall m s)) :
    Alone ok (Watches s) (LockService.withLock key token fn) s :=
  Alone.withLock_blind (fun _ => hs) (fun _ _ m h => h.setLocks m) (fun _ _ h => h.watched)
    fun m => hfn m (hs.of_eq rfl rfl rfl)

theorem watches_dropped {α : Type} {p : ShopProg α} (h : Alone ok (Watches s) p s) :
    Alone ok (Watches s) (p.bind fun _ => .done (.ok ())) s :=
  Alone.bind h (fun _ _ ht => Alone.done ht) fun _ _ ht => ht

theorem lowered_atomicBind {α β : Type} {l : ShopCall} {f : ShopInput → Shop → Except Failure (β × Shop)}
    {k : β → ShopProg α} (ht : Lowered s w v t)
    (hf : ∀ i b u, f i t = .ok (b, u) →
      u.inventory = t.inventory ∧ u.bins = t.bins ∧ u.alerts = t.alerts)
    (hk : ∀ b u, Lowered s w v u → Alone ok (Watches s) (k b) u) :
    Alone ok (Watches s) ((atomic l f).bind k) t := by
  refine Alone.atomicBind (fun i b u _ _ hu => hk b u ?_) fun _ _ _ _ => ht.toWatched
  obtain ⟨hi, hb, ha⟩ := hf i b u hu
  exact ht.of_eq hi hb ha

theorem finish_watches {α : Type} {type : MovementType} {quantity : ℤ} {referenceType : String}
    {referenceId : ℕ} {notes : Option String} {a : α} (ht : Lowered s w v t) :
    Alone ok (Watches s) ((createMovement w v type quantity referenceType referenceId notes).bind
      fun _ => (maybeLowStock w v).bind fun _ => .done (.ok a)) t := by
  refine lowered_atomicBind ht (fun i b u hu => ?_) fun _ u hu => ?_
  · simp only [bind_eq_ok, pure_eq_ok, Prod.mk.injEq] at hu
    obtain ⟨s₁, h₁, -, rfl⟩ := hu
    have hsite := insertMovement_site h₁
    exact ⟨by rw [insertMovement_eq h₁], hsite.bins, hsite.alerts⟩
  · exact Alone.bind (maybeLowStock_watches hu) (fun _ _ ht => Alone.done ht) fun _ _ ht => ht

theorem reserve_watches {token : ℕ} {dto : ReserveStockDto} (hs : Watched s) :
    Alone ok (Watches s) (reserve token dto) s := by
  refine watches_withLock hs fun m hm => ?_
  refine requireWarehouse_alone (fun _ => hm) fun _ _ => ?_
  refine Alone.queryBind (fun i _ _ => ?_) fun _ _ _ => hm
  refine Alone.ensureBind (fun _ => ?_) fun _ => hm
  refine Alone.atomicBind (fun i' b u _ _ hu => ?_) fun _ _ _ _ => hm
  have hlow : Lowered s dto.warehouseId dto.variantId u := by
    simp only [reserveRows, bind_eq_ok, pure_eq_ok, Prod.mk.injEq] at hu
    obtain ⟨⟨k, T⟩, hT, -, rfl⟩ := hu
    refine ⟨⟨hm.one, moveUnits_placed hm.placed hT⟩, fun w' v' hne => le_of_eq ?_⟩
    have := (moveUnits_totals (current_findRows i.rank) hT w' v').2
    rw [if_neg hne, sub_zero] at this
    exact this.symm
  refine lowered_atomicBind hlow (fun i'' r u' hu' => ?_) fun _ _ hu' => finish_watches hu'
  simp only [createReservation, bind_eq_ok, check_eq_ok, pure_eq_ok, Prod.mk.injEq] at hu'
  obtain ⟨-, -, -, -, -, -, -, -, -, -, -, rfl⟩ := hu'
  exact ⟨rfl, rfl, rfl⟩

theorem Received.lowered {n : ℤ} (h : Received w v n t u) (ht : Watched t)
    (hst : ∀ w' v', availableTotal w' v' t.inventory = availableTotal w' v' s.inventory) :
    Lowered s w v u := by
  refine ⟨⟨fun w' v' => ?_, h.placed⟩, fun w' v' hne => ?_⟩
  · rw [openAlerts, h.site.alerts]
    exact ht.one w' v'
  · obtain ⟨r, hr, htotal⟩ := h.row
    have hother : listed w' v' r ≠ true := by
      intro hl
      have hheld := holds_of_listed hl
      rw [holds_eq hr] at hheld
      exact hne hheld
    rw [← hst, availableTotal, availableTotal, htotal (listed w' v') static_listed, if_neg hother,
      add_zero]

theorem adjust_watches {token : ℕ} {dto : AdjustStockDto} (hs : Watched s) :
    Alone ok (Watches s) (adjust token dto) s := by
  refine watches_withLock hs fun m hm => ?_
  refine requireWarehouse_alone (fun _ => hm) fun _ _ => ?_
  refine Alone.queryBind (fun i _ _ => ?_) fun _ _ _ => hm
  refine Alone.ensureBind (fun hbin => ?_) fun _ => hm
  refine Alone.queryBind (fun i' _ _ => ?_) fun _ _ _ => hm
  refine Alone.ensureBind (fun _ => ?_) fun _ => hm
  have hplace := bin_of_any hbin
  -- what follows the write of the row
  have hrest : ∀ u, Lowered s dto.warehouseId dto.variantId u → Alone ok (Watches s)
      ((atomic (.stock (.createAdjustment dto)) fun _ s => createAdjustment dto s).bind
        fun adjustment => (createMovement dto.warehouseId dto.variantId .adjustment dto.quantityDelta
          "inventory_adjustment" adjustment.id dto.notes).bind
        fun _ => (maybeLowStock dto.warehouseId dto.variantId).bind
        fun _ => .done (.ok adjustment)) u := by
    intro u hu
    refine lowered_atomicBind hu (fun i a u' hu' => ?_) fun _ _ hu' => finish_watches hu'
    simp only [createAdjustment, bind_eq_ok, check_eq_ok, pure_eq_ok, Prod.mk.injEq] at hu'
    obtain ⟨-, -, -, -, -, -, -, rfl⟩ := hu'
    exact ⟨rfl, rfl, rfl⟩
  cases hrow : findRow dto.binId dto.variantId (Lockable.setLocks ShopCall m s).inventory with
  | none =>
    simp only [changeRow, Prog.bind_eq, Prog.bind_assoc]
    refine Alone.ensureBind (fun _ => ?_) fun _ => hm
    refine Alone.atomicBind (fun i'' r u _ _ hu => ?_) fun _ _ _ _ => hm
    exact hrest u ((received_createRow hm.placed hplace hu).lowered hm fun _ _ => rfl)
  | some r =>
    refine Alone.atomicBind (fun i'' b u _ _ hu => ?_) fun _ _ _ _ => hm
    have hfind : (Lockable.setLocks ShopCall m s).inventory.find? r.id = some r :=
      Table.find?_eq_some_iff.mpr ⟨(findRow_some hrow).1, rfl⟩
    have hheld := holds_findRow hm.placed hplace hrow
    exact hrest u ((adjustRow_spec hm.placed hfind hheld hu).lowered hm fun _ _ => rfl)

theorem watches_of_more {α : Type} {a : α} (ht : Watched t)
    (h : ∀ w v, availableTotal w v s.inventory ≤ availableTotal w v t.inventory) :
    Watches s (.ok a) t :=
  ⟨ht, fun w v hlt => absurd hlt (h w v).not_gt⟩

theorem releaseRows_watched {r : StockReservation} {rank : ℕ → ℕ} {b : Unit} (ht : Watched t)
    (h : releaseRows r (findRows rank r.warehouseId r.variantId t.inventory) t = .ok (b, u)) :
    Watched u ∧ ∀ w v, availableTotal w v t.inventory ≤ availableTotal w v u.inventory := by
  simp only [releaseRows, bind_eq_ok, pure_eq_ok, Prod.mk.injEq] at h
  obtain ⟨⟨k, T⟩, hT, -, -, -, rfl⟩ := h
  refine ⟨⟨ht.one, moveUnits_placed ht.placed hT⟩, fun w v => ?_⟩
  have htotal := (moveUnits_totals (current_findRows rank) hT w v).2
  have hleft : leftover InventoryRow.reserved (findRows rank r.warehouseId r.variantId t.inventory)
      r.quantity ≤ r.quantity := leftover_le _ _
  change _ ≤ availableTotal w v T
  rw [htotal]
  split <;> omega

theorem release_watches {token id : ℕ} (hs : Watched s) :
    Alone ok (Watches s) (releaseReservation token id) s := by
  refine Alone.queryBind (fun i _ _ => ?_) fun _ _ _ => hs
  refine Alone.orThrowBind (fun r _ => ?_) fun _ => hs
  refine Alone.ensureBind (fun _ => ?_) fun _ => hs
  refine watches_withLock hs fun m hm => ?_
  refine Alone.queryBind (fun i' _ _ => ?_) fun _ _ _ => hm
  refine Alone.atomicBind (fun i'' b u _ _ hu => ?_) fun _ _ _ _ => hm
  obtain ⟨hw, hmore⟩ := releaseRows_watched hm hu
  refine Alone.atomic (fun j a u' _ _ hu' => ?_) fun _ _ _ _ => hw
  simp only [bind_eq_ok, pure_eq_ok, Prod.mk.injEq] at hu'
  obtain ⟨s₁, h₁, -, rfl⟩ := hu'
  rw [insertMovement_eq h₁]
  exact watches_of_more (hw.of_eq rfl rfl rfl) hmore

theorem createGoodsReceipt_watches {token : ℕ} {dto : CreateGoodsReceiptDto} (hs : Watched s) :
    Alone ok (Watches s) (createGoodsReceipt token dto) s := by
  refine Alone.queryBind (fun i _ _ => ?_) fun _ _ _ => hs
  refine Alone.ensureBind (fun _ => ?_) fun _ => hs
  refine Alone.ensureBind (fun _ => ?_) fun _ => hs
  refine watches_withLock hs fun m hm => ?_
  refine requireWarehouse_alone (fun _ => hm) fun _ _ => ?_
  refine Alone.atomic (fun i r u _ _ hu => ?_) fun _ _ _ _ => hm
  have harr := postGoodsReceipt_arrived hm.placed hu
  refine watches_of_more ⟨fun w v => ?_, harr.placed⟩ harr.more
  rw [openAlerts, harr.site.alerts]
  exact hm.one w v

theorem mem_of_moved {items : List TransferItemDto} (h : moved v items ≠ 0) :
    ∃ i ∈ items, i.variantId = v := by
  by_contra hcon
  refine h (List.sum_eq_zero fun x hx => ?_)
  obtain ⟨i, hi, rfl⟩ := List.mem_map.mp hx
  exact if_neg fun hv => hcon ⟨i, hi, hv.symm⟩

theorem postTransfer_watches {dto : CreateTransferDto} {x : StockTransfer} (hm : Watched t)
    (hst : ∀ w v, availableTotal w v t.inventory = availableTotal w v s.inventory)
    (hok : (dto.items.all fun i => needsNoAlert dto i.variantId t) = true)
    (h : postTransfer dto t = .ok (x, u)) : Watches s (.ok x) u := by
  obtain ⟨-, hc⟩ := postTransfer_carried hm.placed h
  have hreorder : ∀ w v, reorderLevel w v u.inventory = reorderLevel w v t.inventory := hc.reorder
  have halerts : ∀ w v, openAlerts w v u = openAlerts w v t := fun w v => by
    rw [openAlerts, show u.alerts = t.alerts from hc.site.alerts, openAlerts]
  refine ⟨⟨fun w v => by rw [halerts]; exact hm.one w v, hc.placed⟩, fun w v hlt hpos hle => ?_⟩
  have hleast : availableTotal w v t.inventory - (if w = dto.fromWarehouseId then
      moved v dto.items else 0) ≤ availableTotal w v u.inventory := hc.least w v
  rw [← hst] at hlt
  rw [hreorder] at hpos hle
  -- the stock that fell is that of an item in the source warehouse
  obtain rfl : w = dto.fromWarehouseId := by
    by_contra hne
    rw [if_neg hne] at hleast
    omega
  rw [if_pos rfl] at hleast
  obtain ⟨i, hi, rfl⟩ := @mem_of_moved v dto.items (by omega)
  have hneeds := List.all_eq_true.mp hok i hi
  simp only [needsNoAlert, Bool.or_eq_true, Bool.not_eq_true', List.isEmpty_eq_false_iff,
    decide_eq_true_eq] at hneeds
  rw [halerts]
  rcases hneeds with (hopen | hzero) | hover
  · exact hopen
  · omega
  · omega

theorem createTransfer_watches {token : ℕ} {dto : CreateTransferDto} (hs : Watched s) :
    Alone NoSilentTransfer (Watches s) (createTransfer token dto) s := by
  refine Alone.ensureBind (fun _ => ?_) fun _ => hs
  refine Alone.queryBind (fun i _ _ => ?_) fun _ _ _ => hs
  refine Alone.ensureBind (fun _ => ?_) fun _ => hs
  refine watches_withLock hs fun m hm => ?_
  refine requireWarehouse_alone (fun _ => hm) fun _ _ => ?_
  refine requireWarehouse_alone (fun _ => hm) fun _ _ => ?_
  refine Alone.atomic (fun i r u ho _ hu => ?_) fun _ _ _ _ => hm
  exact postTransfer_watches hm (fun _ _ => rfl) ho hu

/-! ### Whole runs -/

theorem request_watches (r : StockRequest) (token : ℕ) (hs : Watched s) :
    Alone NoSilentTransfer (Watches s) (r.prog token) s := by
  cases r with
  | reserve dto => exact watches_dropped (reserve_watches hs)
  | release id => exact release_watches hs
  | adjust dto => exact watches_dropped (adjust_watches hs)
  | goodsReceipt dto => exact watches_dropped (createGoodsReceipt_watches hs)
  | transfer dto => exact watches_dropped (createTransfer_watches hs)

def tokened (q : ℕ × StockRequest) : ShopProg Unit := q.2.prog q.1

/-- In every sequence of requests without a silent transfer, a request that takes stock down to its
reorder level leaves an open alert, and no stock has two. -/
theorem low_stock_alerted {calls : List ((ℕ × StockRequest) × Except Failure Unit)} (hone : OneAlert s)
    (hplaced : Placed s) (h : Pool.History NoSilentTransfer tokened s calls t) :
    OneAlert t ∧ ∀ q u, Pool.Ran NoSilentTransfer (tokened q) t (.ok ()) u →
      OneAlert u ∧ ∀ w v,
        availableTotal w v u.inventory < availableTotal w v t.inventory → Alerted w v u := by
  have ht : Watched t := by
    refine h.invariant (P := fun _ t => Watched t) ⟨hone, hplaced⟩ fun _ _ q _ _ ih hr => ?_
    exact (ran_alone (request_watches q.2 q.1 ih) hr).watched
  refine ⟨ht.one, fun q u hr => ?_⟩
  obtain ⟨hu, halerted⟩ := ran_alone (request_watches q.2 q.1 ht) hr
  exact ⟨hu.one, halerted⟩

/-- Five units of variant 1 in the first warehouse, to be reordered at three. -/
def reorderAtThree : Shop :=
  { twoSites with inventory := Table.empty.insert fun n =>
      { id := n, warehouseId := 0, binId := 0, variantId := 1, available := 5, reorderLevel := 3 } }

theorem reorderAtThree_placed : Placed reorderAtThree := by
  unfold Placed
  decide

theorem reorderAtThree_oneAlert : OneAlert reorderAtThree := fun _ _ => Nat.zero_le 1

def takeThree : ℕ × StockRequest := (0, .reserve ⟨0, 1, 3, none, none, none, none⟩)

/-- A reservation that leaves two units. -/
theorem low_stock_alerted_reserve :
    Alerted 0 1 (Pool.solo (tokened takeThree) reorderAtThree (answers 10)).state := by
  have hran : Pool.Ran NoSilentTransfer (tokened takeThree) reorderAtThree (.ok ())
      (Pool.solo (tokened takeThree) reorderAtThree (answers 10)).state :=
    ⟨answers 10, by decide, rfl, rfl⟩
  exact ((low_stock_alerted reorderAtThree_oneAlert reorderAtThree_placed .nil).2 _ _ hran).2 0 1
    (by decide)

/-- A transfer leaves two units, and no alert is opened. -/
theorem low_stock_after_transfer :
    ¬ ∀ (s u : Shop) (q : ℕ × StockRequest), OneAlert s → Placed s →
      Pool.Ran (fun _ i _ => i.fails = false) (tokened q) s (.ok ()) u → ∀ w v,
        availableTotal w v u.inventory < availableTotal w v s.inventory → Alerted w v u := by
  intro h
  have hend := h reorderAtThree _ (0, .transfer ⟨"TR-1", 0, 1, none, [⟨1, 3, 0, 1⟩]⟩)
    reorderAtThree_oneAlert reorderAtThree_placed ⟨answers 6, by decide, rfl, rfl⟩ 0 1 (by decide)
  exact hend (by decide) (by decide) (by decide)

end ElectronicsCart.Inventory
