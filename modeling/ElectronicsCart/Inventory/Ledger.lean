import ElectronicsCart.Core.Alone
import ElectronicsCart.Inventory.Backing

/-!
# Stock and the movement ledger

What each transaction of the inventory service does to the available units of any set of rows,
and what its movements book.  A row carries the warehouse of its bin (`warehouse_id`
denormalized, `docs/database/InventoryFlow.md`); every operation checks it before it writes.
-/

namespace ElectronicsCart.Inventory

open Interleaving Relational Allocation

/-! ### Stock -/

/-- A row of the warehouse and variant, active or not. -/
def holds (w v : ℕ) (r : InventoryRow) : Bool :=
  r.warehouseId == w && r.variantId == v && !r.deleted

def stockAt (w v : ℕ) (s : Shop) : ℤ := s.inventory.total (holds w v) InventoryRow.available

def stockOf (v : ℕ) (s : Shop) : ℤ :=
  s.inventory.total (fun r => r.variantId == v && !r.deleted) InventoryRow.available

/-- The reserved units of one row; a row that does not exist holds none. -/
def reservedIn (id : ℕ) (s : Shop) : ℤ := ((s.inventory.find? id).map InventoryRow.reserved).getD 0

def Placed (s : Shop) : Prop :=
  ∀ r ∈ s.inventory.rows, r.deleted = false →
    (s.bins.find? r.binId).map WarehouseBin.warehouseId = some r.warehouseId

/-! ### Movements -/

/-- What a movement adds to the stock of its warehouse and variant. -/
def signedQuantity (m : InventoryMovement) : ℤ :=
  match m.movementType with
  | .purchase | .transferIn | .adjustment | .reservationRelease => m.quantity
  | .transferOut | .reservation => -m.quantity
  | _ => 0

def movedAt (w v : ℕ) (m : InventoryMovement) : Bool := m.warehouseId == w && m.variantId == v

/-- What the movements of the warehouse and variant add up to. -/
def booked (w v : ℕ) (s : Shop) : ℤ := s.movements.total (movedAt w v) signedQuantity

def gap (w v : ℕ) (s : Shop) : ℤ := stockAt w v s - booked w v s

variable {s s' s'' : Shop} {w v w' v' id : ℕ} {n : ℤ} {T T' : Table InventoryRow}
  {p : InventoryRow → Bool}

theorem holds_iff {r : InventoryRow} :
    holds w v r = true ↔ r.warehouseId = w ∧ r.variantId = v ∧ r.deleted = false := by
  simp [holds, and_assoc]

theorem holds_of_listed {r : InventoryRow} (h : listed w v r = true) : holds w v r = true := by
  obtain ⟨hw, hv, -, hd⟩ := listed_iff.mp h
  exact holds_iff.mpr ⟨hw, hv, hd⟩

theorem holds_eq {r : InventoryRow} (h : holds w v r = true) :
    (holds w' v' r = true) = ((w', v') = (w, v)) := by
  obtain ⟨rfl, rfl, hd⟩ := holds_iff.mp h
  simp only [holds, hd, Bool.not_false, Bool.and_true, Bool.and_eq_true, beq_iff_eq, Prod.mk.injEq]
  exact propext ⟨fun h => ⟨h.1.symm, h.2.symm⟩, fun h => ⟨h.1.symm, h.2.symm⟩⟩

/-! ### Rows that grow -/

/-- A choice of rows into which the available quantity does not enter. -/
def Static (p : InventoryRow → Bool) : Prop := ∀ n r, p (addUnits n r) = p r

theorem static_holds : Static (holds w v) := fun _ _ => rfl

theorem static_listed : Static (listed w v) := fun _ _ => rfl

theorem static_variant : Static fun r => r.variantId == v && !r.deleted := fun _ _ => rfl

theorem total_addUnits {r : InventoryRow} (hp : Static p) (hr : T.find? id = some r)
    (h : updateRow id (addUnits n) (key_addUnits n) T = .ok T') :
    T'.total p InventoryRow.available =
      T.total p InventoryRow.available + if p r = true then n else 0 := by
  obtain ⟨r', hr', -, rfl⟩ := updateRow_eq_ok.mp h
  obtain rfl : r = r' := Option.some.inj (hr.symm.trans hr')
  have hsum := Table.total_update (p := p) (f := InventoryRow.available) (key_addUnits n) hr
  rw [hp n r] at hsum
  have havail : (addUnits n r).available = r.available + n := rfl
  split at hsum <;> rename_i hpr
  · rw [if_pos hpr]
    omega
  · rw [if_neg hpr]
    omega

theorem reservedIn_update (id' : ℕ) (n : ℤ) (s : Shop) :
    reservedIn id { s with inventory := s.inventory.update id' (addUnits n) (key_addUnits n) } =
      reservedIn id s := by
  simp only [reservedIn, Table.find?_update, Option.map_map]
  congr 2
  funext a
  simp only [Function.comp_apply]
  split <;> rfl

theorem placed_update (id : ℕ) (n : ℤ) (hs : Placed s) :
    Placed { s with inventory := s.inventory.update id (addUnits n) (key_addUnits n) } := by
  exact Table.forall_update (key_addUnits n) (fun a ha _ => hs a ha) fun a ha _ => hs a ha

def reorderLevel (w v : ℕ) (T : Table InventoryRow) : ℤ :=
  ((T.rows.filter (listed w v)).map InventoryRow.reorderLevel).foldr max 0

theorem reorderLevel_update (id : ℕ) (n : ℤ) (T : Table InventoryRow) :
    reorderLevel w v (T.update id (addUnits n) (key_addUnits n)) = reorderLevel w v T := by
  have hlisted : (listed w v ∘ fun r => if key r = id then addUnits n r else r) = listed w v := by
    funext r
    simp only [Function.comp_apply]
    split <;> rfl
  rw [reorderLevel, Table.rows_update, List.filter_map, hlisted, List.map_map, reorderLevel]
  congr 1
  refine List.map_congr_left fun r _ => ?_
  simp only [Function.comp_apply]
  split <;> rfl

theorem reorderLevel_insert {mk : ℕ → InventoryRow} (hmk : ∀ n, key (mk n) = n)
    (hzero : (mk T.next).reorderLevel = 0) :
    reorderLevel w v (T.insert mk hmk) = reorderLevel w v T := by
  have hrows : (T.insert mk hmk).rows = T.rows ++ [mk T.next] := rfl
  rw [reorderLevel, hrows, List.filter_append, List.map_append, List.foldr_append, reorderLevel]
  congr 1
  by_cases hl : listed w v (mk T.next) = true <;> simp [hl, hzero]

/-- A choice of rows into which the quantities do not enter. -/
def Blind (p : InventoryRow → Bool) : Prop :=
  ∀ r a b, p { r with available := a, reserved := b } = p r

/-- Only rows of the given warehouses and variants may have changed. -/
def Confined (pairs : List (ℕ × ℕ)) (s s' : Shop) : Prop :=
  ∀ p, Blind p → (∀ r, p r = true → (r.warehouseId, r.variantId) ∉ pairs) →
    s'.inventory.rows.filter p = s.inventory.rows.filter p

theorem Confined.of_eq {pairs : List (ℕ × ℕ)} (h : s'.inventory = s.inventory) :
    Confined pairs s s' := fun p _ _ => by rw [h]

theorem Confined.mono {ps qs : List (ℕ × ℕ)} (hsub : ∀ x ∈ ps, x ∈ qs) (h : Confined ps s s') :
    Confined qs s s' :=
  fun p hp hout => h p hp fun r hr hmem => hout r hr (hsub _ hmem)

theorem Confined.trans {ps : List (ℕ × ℕ)} (h : Confined ps s s') (h' : Confined ps s' s'') :
    Confined ps s s'' :=
  fun p hp hout => (h' p hp hout).trans (h p hp hout)

theorem filter_map_rows {rows : List InventoryRow} {g : InventoryRow → InventoryRow}
    (hp : ∀ r, p (g r) = p r) (hsame : ∀ r ∈ rows, p r = true → g r = r) :
    (rows.map g).filter p = rows.filter p := by
  have hcomp : p ∘ g = p := funext hp
  rw [List.filter_map, hcomp]
  conv_rhs => rw [← List.map_id (rows.filter p)]
  refine List.map_congr_left fun r hr => ?_
  obtain ⟨hm, hpr⟩ := List.mem_filter.mp hr
  exact hsame r hm hpr

theorem confined_updateRow {r : InventoryRow} (hr : s.inventory.find? id = some r)
    (hheld : holds w v r = true) (h : updateRow id (addUnits n) (key_addUnits n) s.inventory = .ok T) :
    Confined [(w, v)] s { s with inventory := T } := by
  obtain ⟨-, -, -, rfl⟩ := updateRow_eq_ok.mp h
  obtain ⟨rfl, rfl, -⟩ := holds_iff.mp hheld
  intro p hp hout
  refine (congrArg (List.filter p) (Table.rows_update (key_addUnits n))).trans
    (filter_map_rows (fun a => ?_) ?_)
  · split
    · exact hp a (a.available + n) a.reserved
    · rfl
  · intro a ha hpa
    refine if_neg fun hk => hout a hpa ?_
    obtain ⟨hmem, hid⟩ := Table.find?_mem hr
    obtain rfl := Table.eq_of_key_eq ha hmem (hk.trans hid.symm)
    exact List.mem_singleton_self _

theorem confined_moveUnits {cap : InventoryRow → ℤ} {sign m : ℤ} {rows : List InventoryRow}
    (hrows : Current w v rows s.inventory) (h : moveUnits cap sign rows n s.inventory = .ok (m, T)) :
    Confined [(w, v)] s { s with inventory := T } := by
  obtain ⟨-, rfl⟩ := moveUnits_spec h
  intro p hp hout
  refine (congrArg (List.filter p) (Table.rows_mapRows fun r => key_shift _ r)).trans
    (filter_map_rows ?_ ?_)
  · exact fun a => hp a _ _
  · intro a ha hpa
    have hne : (a.warehouseId, a.variantId) ≠ (w, v) := fun heq => hout a hpa (by simp [heq])
    rw [taken_eq_zero hrows ha hne, mul_zero, shift_zero]

/-- What the stock transactions read and do not write. -/
structure SameSite (s s' : Shop) : Prop where
  warehouses : s'.warehouses = s.warehouses
  bins : s'.bins = s.bins
  variants : s'.variants = s.variants
  reservations : s'.reservations = s.reservations
  alerts : s'.alerts = s.alerts

theorem SameSite.refl (s : Shop) : SameSite s s := ⟨rfl, rfl, rfl, rfl, rfl⟩

theorem SameSite.trans (h : SameSite s s') (h' : SameSite s' s'') : SameSite s s'' :=
  ⟨h'.warehouses.trans h.warehouses, h'.bins.trans h.bins, h'.variants.trans h.variants,
    h'.reservations.trans h.reservations, h'.alerts.trans h.alerts⟩

/-- Where the units of a write go: a row of the warehouse and variant, whose bin is known. -/
structure Received (w v : ℕ) (n : ℤ) (s s' : Shop) : Prop where
  frame : s' = { s with inventory := s'.inventory }
  placed : Placed s'
  reserved : ∀ id, reservedIn id s' = reservedIn id s
  reorder : ∀ w v, reorderLevel w v s'.inventory = reorderLevel w v s.inventory
  others : Confined [(w, v)] s s'
  row : ∃ r, holds w v r = true ∧ ∀ p, Static p →
    s'.inventory.total p InventoryRow.available =
      s.inventory.total p InventoryRow.available + if p r = true then n else 0

theorem received_updateRow {r : InventoryRow} (hs : Placed s) (hr : s.inventory.find? id = some r)
    (hheld : holds w v r = true) (h : updateRow id (addUnits n) (key_addUnits n) s.inventory = .ok T) :
    Received w v n s { s with inventory := T } := by
  refine ⟨rfl, ?_, ?_, ?_, confined_updateRow hr hheld h, r, hheld, fun p hp => total_addUnits hp hr h⟩
  · obtain ⟨-, -, -, rfl⟩ := updateRow_eq_ok.mp h
    exact placed_update id n hs
  · obtain ⟨-, -, -, rfl⟩ := updateRow_eq_ok.mp h
    exact fun id' => reservedIn_update id n s
  · obtain ⟨-, -, -, rfl⟩ := updateRow_eq_ok.mp h
    exact fun w' v' => reorderLevel_update id n s.inventory

theorem received_createRow {b : ℕ} {r : InventoryRow} (hs : Placed s)
    (hb : (s.bins.find? b).map WarehouseBin.warehouseId = some w)
    (h : createRow w b v n s = .ok (r, s')) : Received w v n s s' := by
  simp only [createRow, bind_eq_ok, check_eq_ok, pure_eq_ok, Prod.mk.injEq] at h
  obtain ⟨-, -, -, -, -, -, rfl, rfl⟩ := h
  refine ⟨rfl, ?_, fun id => ?_, fun w' v' => reorderLevel_insert _ rfl, fun p _ hout => ?_,
    ⟨s.inventory.next, w, b, v, n, 0, 0, true, false⟩, holds_iff.mpr ⟨rfl, rfl, rfl⟩, fun p hp => ?_⟩
  · intro r hr hd
    rcases (Table.mem_insert fun _ => by rfl).mp hr with hr | rfl
    · exact hs r hr hd
    · exact hb
  · simp only [reservedIn, Table.find?_insert]
    split
    next hid =>
      subst hid
      have hnone : s.inventory.find? s.inventory.next = none :=
        Table.find?_eq_none_iff.mpr fun r hr => Nat.ne_of_lt (s.inventory.fresh r hr)
      rw [hnone]
      rfl
    next => rfl
  · have hnew : p ⟨s.inventory.next, w, b, v, n, 0, 0, true, false⟩ = false := by
      by_contra hp
      exact hout _ (Bool.not_eq_false _ ▸ hp) (List.mem_singleton_self _)
    simp [Table.insert, hnew]
  · exact Table.total_insert _

theorem holds_findRow {b : ℕ} {r : InventoryRow} (hs : Placed s)
    (hb : (s.bins.find? b).map WarehouseBin.warehouseId = some w)
    (h : findRow b v s.inventory = some r) : holds w v r = true := by
  obtain ⟨hr, rfl, rfl, hd⟩ := findRow_some h
  have hplace := (hs r hr hd).symm.trans hb
  exact holds_iff.mpr ⟨Option.some.inj hplace, rfl, hd⟩

theorem receiveUnits_spec {b : ℕ} (hs : Placed s)
    (hb : (s.bins.find? b).map WarehouseBin.warehouseId = some w)
    (h : receiveUnits w b v n s = .ok s') : Received w v n s s' := by
  unfold receiveUnits at h
  split at h
  next r hr =>
    simp only [bind_eq_ok, pure_eq_ok] at h
    obtain ⟨T, hT, rfl⟩ := h
    have hfind : s.inventory.find? r.id = some r :=
      Table.find?_eq_some_iff.mpr ⟨(findRow_some hr).1, rfl⟩
    exact received_updateRow hs hfind (holds_findRow hs hb hr) hT
  next =>
    simp only [bind_eq_ok, pure_eq_ok] at h
    obtain ⟨⟨r, s₁⟩, hr, rfl⟩ := h
    exact received_createRow hs hb hr

theorem Received.stockAt (h : Received w v n s s') (w' v' : ℕ) :
    stockAt w' v' s' = stockAt w' v' s + if (w', v') = (w, v) then n else 0 := by
  obtain ⟨r, hr, htotal⟩ := h.row
  have := htotal (holds w' v') static_holds
  simp only [holds_eq hr] at this
  exact this

theorem Received.stockOf (h : Received w v n s s') (v' : ℕ) :
    stockOf v' s' = stockOf v' s + if v' = v then n else 0 := by
  obtain ⟨r, hr, htotal⟩ := h.row
  obtain ⟨-, rfl, hd⟩ := holds_iff.mp hr
  have := htotal (fun r => r.variantId == v' && !r.deleted) static_variant
  simp only [hd, Bool.not_false, Bool.and_true, beq_iff_eq, eq_comm (a := r.variantId)] at this
  exact this

/-! ### Movements of a transaction -/

theorem insertMovement_eq {mk : ℕ → InventoryMovement} {hmk : ∀ n, key (mk n) = n}
    (h : insertMovement mk hmk s = .ok s') : s' = { s with movements := s.movements.insert mk hmk } := by
  simp only [insertMovement, bind_eq_ok, check_eq_ok, pure_eq_ok] at h
  obtain ⟨-, -, -, -, rfl⟩ := h
  rfl

theorem booked_insertMovement {type : MovementType} {referenceType : String} {referenceId : ℕ}
    {notes : Option String} (w' v' : ℕ)
    (h : insertMovement (fun k => ⟨k, w, v, type, n, referenceType, referenceId, notes⟩)
      (fun _ => rfl) s = .ok s') :
    booked w' v' s' = booked w' v' s +
      if (w', v') = (w, v) then signedQuantity ⟨0, w, v, type, n, "", 0, none⟩ else 0 := by
  rw [insertMovement_eq h, booked, Table.total_insert, booked]
  congr 1
  have hcond : (movedAt w' v' ⟨s.movements.next, w, v, type, n, referenceType, referenceId, notes⟩ =
      true) = ((w', v') = (w, v)) := by
    simp only [movedAt, Bool.and_eq_true, beq_iff_eq, Prod.mk.injEq, eq_comm (a := w),
      eq_comm (a := v)]
  simp only [hcond]
  rfl

theorem Received.booked (h : Received w v n s s') (w' v' : ℕ) : booked w' v' s' = booked w' v' s := by
  rw [h.frame]
  rfl

theorem Received.site (h : Received w v n s s') : SameSite s s' := by
  rw [h.frame]
  exact ⟨rfl, rfl, rfl, rfl, rfl⟩

theorem insertMovement_site {mk : ℕ → InventoryMovement} {hmk : ∀ n, key (mk n) = n}
    (h : insertMovement mk hmk s = .ok s') : SameSite s s' := by
  rw [insertMovement_eq h]
  exact ⟨rfl, rfl, rfl, rfl, rfl⟩

theorem placed_of_eq (hi : s'.inventory = s.inventory) (hb : s'.bins = s.bins) (hs : Placed s) :
    Placed s' := by
  unfold Placed
  rw [hi, hb]
  exact hs

theorem stockAt_of_eq (hi : s'.inventory = s.inventory) : stockAt w v s' = stockAt w v s := by
  rw [stockAt, hi, stockAt]

theorem stockOf_of_eq (hi : s'.inventory = s.inventory) : stockOf v s' = stockOf v s := by
  rw [stockOf, hi, stockOf]

theorem reservedIn_of_eq (hi : s'.inventory = s.inventory) : reservedIn id s' = reservedIn id s := by
  rw [reservedIn, hi, reservedIn]

theorem elim_eq_ok {α : Type} {o : Option α} {e : Failure} {a : α} :
    o.elim (.error e) (.ok : α → Except Failure α) = .ok a ↔ o = some a := by
  cases o <;> simp

theorem bin_of_any {b : ℕ} (h : ((s.bins.find? b).filter fun b => !b.deleted).any
    (fun b => b.warehouseId == w) = true) :
    (s.bins.find? b).map WarehouseBin.warehouseId = some w := by
  obtain ⟨x, hx, hw⟩ := (Option.any_eq_true _ _).mp h
  obtain ⟨hfind, -⟩ := Option.filter_eq_some_iff.mp hx
  rw [hfind, Option.map_some, beq_iff_eq.mp hw]

/-! ### Transfers -/

def moved (v : ℕ) (items : List TransferItemDto) : ℤ :=
  (items.map fun i => if v = i.variantId then i.quantity else 0).sum

@[simp] theorem moved_nil (v : ℕ) : moved v [] = 0 := rfl

@[simp] theorem moved_cons (v : ℕ) (i : TransferItemDto) (items : List TransferItemDto) :
    moved v (i :: items) = (if v = i.variantId then i.quantity else 0) + moved v items := rfl

/-- One item takes its units from a row of the source warehouse and adds them to a row of the
destination, and books both. -/
theorem transferItem_spec {dto : CreateTransferDto} {transferId : ℕ} {item : TransferItemDto}
    (hs : Placed s) (h : transferItem dto transferId item s = .ok s') :
    0 < item.quantity ∧ ∃ s₁ s₂,
      Received dto.fromWarehouseId item.variantId (-item.quantity) s s₁ ∧
      Received dto.toWarehouseId item.variantId item.quantity s₁ s₂ ∧
      s'.inventory = s₂.inventory ∧ SameSite s s' ∧ s'.transfers = s.transfers ∧
      ∀ w v, booked w v s' = booked w v s +
        ((if (w, v) = (dto.toWarehouseId, item.variantId) then item.quantity else 0) -
          if (w, v) = (dto.fromWarehouseId, item.variantId) then item.quantity else 0) := by
  simp only [transferItem, bind_eq_ok, demand_eq_ok, check_eq_ok, elim_eq_ok, exists_const,
    Bool.and_eq_true, decide_eq_true_eq, beq_iff_eq] at h
  obtain ⟨source, hsource, -, hfrom, hbin, T, hT, s₂, h₂, hpos, s₃, h₃, h₄⟩ := h
  obtain ⟨hmem, -, hvariant, hd⟩ := findRow_some hsource
  have hfind : s.inventory.find? source.id = some source :=
    Table.find?_eq_some_iff.mpr ⟨hmem, rfl⟩
  have hout : Received dto.fromWarehouseId item.variantId (-item.quantity) s { s with inventory := T } :=
    received_updateRow hs hfind (holds_iff.mpr ⟨hfrom, hvariant, hd⟩) hT
  have hin := receiveUnits_spec hout.placed (bin_of_any hbin) h₂
  refine ⟨hpos.2, _, s₂, hout, hin, ?_, ?_, ?_, fun w v => ?_⟩
  · rw [insertMovement_eq h₄, insertMovement_eq h₃]
  · have hitem : SameSite s₂ { s₂ with transferItems := s₂.transferItems.insert fun k =>
        ⟨k, transferId, item.variantId, item.quantity⟩ } := ⟨rfl, rfl, rfl, rfl, rfl⟩
    exact ((hout.site.trans hin.site).trans hitem).trans
      ((insertMovement_site h₃).trans (insertMovement_site h₄))
  · rw [insertMovement_eq h₄, insertMovement_eq h₃, hin.frame]
  · have hb₄ := booked_insertMovement w v h₄
    have hb₃ := booked_insertMovement w v h₃
    have hb₂ : booked w v s₂ = booked w v s := (hin.booked w v).trans (hout.booked w v)
    have hitems : ∀ x, booked w v { s₂ with transferItems := x } = booked w v s₂ := fun _ => rfl
    rw [hitems, hb₂] at hb₃
    rw [hb₄, hb₃]
    simp only [signedQuantity]
    split <;> split <;> omega

/-- What the items of a transfer, one after another, do to the stock and its records. -/
structure Carried (dto : CreateTransferDto) (items : List TransferItemDto) (s s' : Shop) : Prop where
  placed : Placed s'
  site : SameSite s s'
  transfers : s'.transfers = s.transfers
  reserved : ∀ id, reservedIn id s' = reservedIn id s
  stock : ∀ w v, stockAt w v s' = stockAt w v s +
    ((if w = dto.toWarehouseId then moved v items else 0) -
      if w = dto.fromWarehouseId then moved v items else 0)
  whole : ∀ v, stockOf v s' = stockOf v s
  reorder : ∀ w v, reorderLevel w v s'.inventory = reorderLevel w v s.inventory
  gap : ∀ w v, gap w v s' = gap w v s
  others : Confined (items.flatMap fun i =>
    [(dto.fromWarehouseId, i.variantId), (dto.toWarehouseId, i.variantId)]) s s'
  /-- whatever is counted, the items take no more from it than they move -/
  least : ∀ w v, availableTotal w v s.inventory -
    (if w = dto.fromWarehouseId then moved v items else 0) ≤ availableTotal w v s'.inventory

theorem transferItem_carried {dto : CreateTransferDto} {transferId : ℕ} {item : TransferItemDto}
    (hs : Placed s) (h : transferItem dto transferId item s = .ok s') : Carried dto [item] s s' := by
  obtain ⟨hpos, s₁, s₂, hout, hin, hinv, hsite, htransfers, hbooked⟩ :=
    transferItem_spec hs h
  have hstock : ∀ w v, stockAt w v s' = stockAt w v s +
      ((if (w, v) = (dto.toWarehouseId, item.variantId) then item.quantity else 0) -
        if (w, v) = (dto.fromWarehouseId, item.variantId) then item.quantity else 0) := by
    intro w v
    rw [stockAt_of_eq hinv, hin.stockAt, hout.stockAt]
    split <;> split <;> omega
  have hbins : s'.bins = s₂.bins := by
    rw [hsite.bins, hin.site.bins, hout.site.bins]
  refine ⟨placed_of_eq hinv hbins hin.placed, hsite, htransfers, fun id => ?_, fun w v => ?_,
    fun v => ?_, fun w v => ?_, fun w v => ?_, ?_, fun w v => ?_⟩
  · rw [reservedIn_of_eq hinv, hin.reserved, hout.reserved]
  · rw [hstock w v]
    simp only [Prod.mk.injEq, moved_cons, moved_nil, add_zero, ite_and]
  · rw [stockOf_of_eq hinv, hin.stockOf, hout.stockOf]
    split <;> omega
  · rw [hinv, hin.reorder, hout.reorder]
  · rw [Inventory.gap, Inventory.gap, hstock w v, hbooked w v]
    omega
  · let both : List (ℕ × ℕ) := [(dto.fromWarehouseId, item.variantId), (dto.toWarehouseId, item.variantId)]
    have hfirst : Confined both _ _ := hout.others.mono (by simp [both])
    have hsecond : Confined both _ _ := hin.others.mono (by simp [both])
    exact (hfirst.trans hsecond).trans (.of_eq hinv)
  · obtain ⟨source, hsource, hout⟩ := hout.row
    obtain ⟨dest, -, hin⟩ := hin.row
    have hout := hout (listed w v) static_listed
    have hin := hin (listed w v) static_listed
    have hmine : listed w v source = true → w = dto.fromWarehouseId ∧ v = item.variantId := by
      intro hl
      have := holds_of_listed hl
      rw [holds_eq hsource] at this
      exact Prod.mk.inj this
    rw [availableTotal, availableTotal, hinv, hin, hout]
    simp only [moved_cons, moved_nil, add_zero]
    by_cases hl : listed w v source = true
    · rw [if_pos hl, if_pos (hmine hl).1, if_pos (hmine hl).2]
      split <;> omega
    · rw [if_neg hl]
      split <;> split <;> omega

theorem Carried.cons {dto : CreateTransferDto} {i : TransferItemDto} {items : List TransferItemDto}
    (h : Carried dto [i] s s') (h' : Carried dto items s' s'') : Carried dto (i :: items) s s'' := by
  refine ⟨h'.placed, h.site.trans h'.site, h'.transfers.trans h.transfers,
    fun id => (h'.reserved id).trans (h.reserved id), fun w v => ?_,
    fun v => (h'.whole v).trans (h.whole v), fun w v => (h'.reorder w v).trans (h.reorder w v),
    fun w v => (h'.gap w v).trans (h.gap w v), ?_, fun w v => ?_⟩
  · rw [h'.stock, h.stock, moved_cons, moved_cons, moved_nil]
    split <;> split <;> omega
  · refine (h.others.mono ?_).trans (h'.others.mono ?_)
    · exact fun x hx => List.mem_append_left _ (by simpa using hx)
    · exact fun x hx => List.mem_append_right _ hx
  · have h₁ := h.least w v
    have h₂ := h'.least w v
    rw [moved_cons, moved_nil] at h₁
    rw [moved_cons]
    split at h₁ <;> rename_i hw
    · rw [if_pos hw] at h₂ ⊢
      omega
    · rw [if_neg hw] at h₂ ⊢
      omega

theorem transferItems_carried {dto : CreateTransferDto} {transferId : ℕ} {items : List TransferItemDto}
    (hs : Placed s) (h : transferItems dto transferId items s = .ok s') : Carried dto items s s' := by
  induction items generalizing s with
  | nil =>
    obtain rfl : s = s' := Except.ok.inj h
    exact ⟨hs, .refl s, rfl, fun _ => rfl, fun w v => by simp, fun _ => rfl, fun _ _ => rfl,
      fun _ _ => rfl, .of_eq rfl, fun w v => by simp⟩
  | cons i items ih =>
    simp only [transferItems, bind_eq_ok] at h
    obtain ⟨s₁, h₁, h⟩ := h
    have hfirst := transferItem_carried hs h₁
    exact hfirst.cons (ih hfirst.placed h)

theorem postTransfer_carried {dto : CreateTransferDto} {t : StockTransfer} (hs : Placed s)
    (h : postTransfer dto s = .ok (t, s')) :
    s'.transfers.next = s.transfers.next + 1 ∧
      Carried dto dto.items { s with transfers := s'.transfers } s' := by
  simp only [postTransfer, bind_eq_ok, pure_eq_ok, Prod.mk.injEq] at h
  obtain ⟨-, -, -, -, -, -, s₁, h₁, -, rfl⟩ := h
  have hc := transferItems_carried (by exact hs) h₁
  have hrows : s₁.transfers = _ := hc.transfers
  rw [hrows]
  exact ⟨rfl, hc⟩

/-! ### Goods receipts -/

/-- A write whose movements explain what it does to the stock. -/
structure Explained (s s' : Shop) : Prop where
  placed : Placed s'
  site : SameSite s s'
  gap : ∀ w v, gap w v s' = gap w v s

theorem Explained.trans (h : Explained s s') (h' : Explained s' s'') : Explained s s'' :=
  ⟨h'.placed, h.site.trans h'.site, fun w v => (h'.gap w v).trans (h.gap w v)⟩

theorem receivePurchaseOrderItem_frame {i : Option ℕ} (h : receivePurchaseOrderItem i n s = .ok s') :
    s'.inventory = s.inventory ∧ s'.movements = s.movements ∧ SameSite s s' := by
  cases i with
  | none =>
    cases h
    exact ⟨rfl, rfl, .refl s⟩
  | some i =>
    simp only [receivePurchaseOrderItem, bind_eq_ok, check_eq_ok, pure_eq_ok] at h
    obtain ⟨-, -, -, -, rfl⟩ := h
    exact ⟨rfl, rfl, rfl, rfl, rfl, rfl, rfl⟩

theorem createSerials_frame {item : GoodsReceiptItemDto} {serials : List String}
    (h : createSerials w item serials s = .ok s') :
    s'.inventory = s.inventory ∧ s'.movements = s.movements ∧ SameSite s s' := by
  obtain ⟨numbers, rfl⟩ := createSerials_writes h
  exact ⟨rfl, rfl, rfl, rfl, rfl, rfl, rfl⟩

theorem receiveItem_spec {receiptId : ℕ} {item : GoodsReceiptItemDto} (hs : Placed s)
    (h : receiveItem w receiptId item s = .ok s') :
    0 < item.quantityReceived ∧ Explained s s' ∧ Confined [(w, item.variantId)] s s' ∧
      ∃ r, holds w item.variantId r = true ∧
      ∀ p, Static p → s'.inventory.total p InventoryRow.available =
        s.inventory.total p InventoryRow.available + if p r = true then item.quantityReceived else 0 := by
  simp only [receiveItem, bind_eq_ok, demand_eq_ok, check_eq_ok, exists_const, Bool.and_eq_true,
    decide_eq_true_eq] at h
  obtain ⟨hbin, -, hpos, s₁, h₁, s₂, h₂, s₃, h₃, h₄⟩ := h
  have hin := receiveUnits_spec (by exact hs) (by exact bin_of_any hbin) h₁
  obtain ⟨hi₃, hm₃, hsite₃⟩ := receivePurchaseOrderItem_frame h₃
  obtain ⟨hi₄, hm₄, hsite₄⟩ := createSerials_frame h₄
  have hinv : s'.inventory = s₁.inventory := by rw [hi₄, hi₃, insertMovement_eq h₂]
  have hrest : SameSite s₁ s' := (insertMovement_site h₂).trans (hsite₃.trans hsite₄)
  have hfirst : SameSite s s₁ := ⟨hin.site.warehouses, hin.site.bins, hin.site.variants,
    hin.site.reservations, hin.site.alerts⟩
  refine ⟨hpos.1.2, ⟨placed_of_eq hinv hrest.bins hin.placed, hfirst.trans hrest,
    fun w' v' => ?_⟩, ?_, ?_⟩
  · have hmoves : booked w' v' s' = booked w' v' s₂ := by rw [booked, hm₄, hm₃, booked]
    have hbooked : booked w' v' s₂ = booked w' v' s +
        if (w', v') = (w, item.variantId) then item.quantityReceived else 0 :=
      (booked_insertMovement w' v' h₂).trans (congrArg (· + _) (hin.booked w' v'))
    have hstock : stockAt w' v' s' = stockAt w' v' s +
        if (w', v') = (w, item.variantId) then item.quantityReceived else 0 :=
      (stockAt_of_eq hinv).trans (hin.stockAt w' v')
    rw [Inventory.gap, hmoves, hbooked, hstock, add_sub_add_right_eq_sub, Inventory.gap]
  · have hothers : Confined [(w, item.variantId)] s s₁ := hin.others
    exact hothers.trans (.of_eq hinv)
  · obtain ⟨r, hr, htotal⟩ := hin.row
    refine ⟨r, hr, fun p hp => ?_⟩
    rw [hinv, htotal p hp]

structure Arrived (w : ℕ) (items : List GoodsReceiptItemDto) (s s' : Shop) : Prop extends
    Explained s s' where
  others : Confined (items.map fun i => (w, i.variantId)) s s'
  more : ∀ w v, availableTotal w v s.inventory ≤ availableTotal w v s'.inventory

theorem receiveItems_arrived {receiptId : ℕ} {items : List GoodsReceiptItemDto} (hs : Placed s)
    (h : receiveItems w receiptId items s = .ok s') : Arrived w items s s' := by
  induction items generalizing s with
  | nil =>
    obtain rfl : s = s' := Except.ok.inj h
    exact ⟨⟨hs, .refl s, fun _ _ => rfl⟩, .of_eq rfl, fun _ _ => le_refl _⟩
  | cons i items ih =>
    simp only [receiveItems, bind_eq_ok] at h
    obtain ⟨s₁, h₁, h⟩ := h
    obtain ⟨hpos, hexp, hothers, r, -, htotal⟩ := receiveItem_spec hs h₁
    have hrest := ih hexp.placed h
    refine ⟨hexp.trans hrest.toExplained, (hothers.mono ?_).trans (hrest.others.mono ?_),
      fun w v => le_trans ?_ (hrest.more w v)⟩
    · exact fun x hx => List.mem_singleton.mp hx ▸ List.mem_cons_self
    · exact fun x hx => List.mem_cons_of_mem _ hx
    have := htotal (listed w v) static_listed
    rw [availableTotal, availableTotal, this]
    split <;> omega

theorem postGoodsReceipt_arrived {dto : CreateGoodsReceiptDto} {g : GoodsReceipt} (hs : Placed s)
    (h : postGoodsReceipt dto s = .ok (g, s')) : Arrived dto.warehouseId dto.items s s' := by
  simp only [postGoodsReceipt, bind_eq_ok, pure_eq_ok, Prod.mk.injEq] at h
  obtain ⟨-, -, -, -, -, -, s₁, h₁, -, rfl⟩ := h
  obtain ⟨⟨hp, hsite, hg⟩, hothers, hmore⟩ := receiveItems_arrived (by exact hs) h₁
  exact ⟨⟨hp, ⟨hsite.warehouses, hsite.bins, hsite.variants, hsite.reservations, hsite.alerts⟩, hg⟩,
    hothers, hmore⟩

/-! ### Reservations -/

theorem moveUnits_stock {cap : InventoryRow → ℤ} {sign m : ℤ} {rows : List InventoryRow}
    (hrows : Current w v rows T) (h : moveUnits cap sign rows n T = .ok (m, T')) (w' v' : ℕ) :
    T'.total (holds w' v') InventoryRow.available = T.total (holds w' v') InventoryRow.available -
      if (w', v') = (w, v) then sign * (n - leftover cap rows n) else 0 := by
  have htaken : T.total (holds w' v') (fun r => sign * taken cap InventoryRow.id rows n r.id) =
      if (w', v') = (w, v) then sign * (n - leftover cap rows n) else 0 := by
    rw [total_mul]
    by_cases hw : (w', v') = (w, v)
    · obtain ⟨rfl, rfl⟩ := Prod.mk.inj hw
      rw [if_pos hw, total_taken fun r hr => ⟨(hrows r hr).1, holds_of_listed (hrows r hr).2⟩]
    · rw [if_neg hw, total_taken_of_ne hrows (fun r hr => ?_), mul_zero]
      obtain ⟨rfl, rfl, -⟩ := holds_iff.mp hr
      exact hw
  obtain ⟨-, rfl⟩ := moveUnits_spec h
  rw [← htaken, Table.total_mapRows _ fun r => by rfl, eq_sub_iff_add_eq, ← Table.total_add]
  simp only [shift, sub_add_cancel]

theorem moveUnits_placed {cap : InventoryRow → ℤ} {sign m : ℤ} {rows : List InventoryRow}
    (hs : Placed s) (h : moveUnits cap sign rows n s.inventory = .ok (m, T)) :
    Placed { s with inventory := T } := by
  obtain ⟨-, rfl⟩ := moveUnits_spec h
  intro r hr hd
  rw [Table.rows_mapRows, List.mem_map] at hr
  obtain ⟨a, ha, rfl⟩ := hr
  exact hs a ha hd

/-! ### Adjustments -/

theorem adjustRow_spec {dto : AdjustStockDto} {r : InventoryRow} {u : Unit} (hs : Placed s)
    (hr : s.inventory.find? r.id = some r)
    (hheld : holds dto.warehouseId dto.variantId r = true) (h : adjustRow r.id dto s = .ok (u, s')) :
    Received dto.warehouseId dto.variantId dto.quantityDelta s s' := by
  simp only [adjustRow, bind_eq_ok, pure_eq_ok, Prod.mk.injEq] at h
  obtain ⟨T, hT, -, rfl⟩ := h
  exact received_updateRow hs hr hheld hT

/-! ### Requests by themselves -/

theorem requireWarehouse_alone {α : Type} {ok : ShopCall → ShopInput → Shop → Prop}
    {Q : Except Failure α → Shop → Prop} {id : ℕ} {k : Warehouse → ShopProg α}
    (herr : ∀ e, Q (.error e) s)
    (hk : (s.warehouses.find? id).isSome = true → ∀ b, Alone ok Q (k b) s) :
    Alone ok Q ((requireWarehouse id).bind k) s := by
  rw [requireWarehouse, Prog.bind_eq, Prog.bind_assoc]
  refine Alone.queryBind (fun i _ _ => ?_) fun _ _ _ => herr _
  refine Alone.orThrowBind (fun b hb => hk ?_ b) fun _ => herr _
  obtain ⟨hfind, -⟩ := Option.filter_eq_some_iff.mp hb
  rw [hfind]
  rfl

end ElectronicsCart.Inventory
