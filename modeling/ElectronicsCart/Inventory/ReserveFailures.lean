import ElectronicsCart.Inventory.StockRuns
import ElectronicsCart.Core.Journal

/-!
# Reservations that are rejected

`InventoryService.reserve` shifts the units in one transaction, and writes the reservation and the
movement by calls of their own.  A call that is rejected before that transaction commits leaves
everything as it was; one that is rejected after it leaves the units shifted.
-/

namespace ElectronicsCart.Inventory

open Interleaving Relational Allocation

def quantities (T : Table InventoryRow) : List (ℕ × ℤ × ℤ) :=
  T.rows.map fun r => (r.id, r.available, r.reserved)

def activeReservations (s : Shop) : List StockReservation :=
  s.reservations.rows.filter fun r => r.status == .active && !r.deleted

def AsBefore (s t : Shop) : Prop :=
  quantities t.inventory = quantities s.inventory ∧ activeReservations t = activeReservations s

def commitsRows (c : Entry ShopCall ShopInput Shop) : Bool :=
  match c.label with
  | .stock (.reserveRows dto rows) => !c.input.fails && (reserveRows dto rows c.before).isOk
  | _ => false

variable {s t : Shop} {dto : ReserveStockDto} {rows : List InventoryRow}

theorem commitsRows_of_ok {c : ℕ} {i : ShopInput} {r : Unit × Shop} (hf : i.fails = false)
    (h : reserveRows dto rows s = .ok r) :
    commitsRows ⟨c, .stock (.reserveRows dto rows), i, s⟩ = true := by
  show (!i.fails && (reserveRows dto rows s).isOk) = true
  rw [h, hf]
  rfl

theorem commitsRows_of_error {c : ℕ} {i : ShopInput} {e : Failure}
    (h : i.fails = true ∨ reserveRows dto rows s = .error e) :
    commitsRows ⟨c, .stock (.reserveRows dto rows), i, s⟩ = false := by
  show (!i.fails && (reserveRows dto rows s).isOk) = false
  rcases h with hf | he
  · rw [hf]
    rfl
  · rw [he]
    exact Bool.and_false _

/-! ### The transaction -/

theorem moveUnits_quantities {T T' : Table InventoryRow} {w v : ℕ} {n m : ℤ}
    (hrows : Current w v rows T) (hn : leftover InventoryRow.available rows n < n)
    (h : moveUnits InventoryRow.available 1 rows n T = .ok (m, T')) : quantities T' ≠ quantities T := by
  intro heq
  have htotal := (moveUnits_totals hrows h w v).1
  rw [if_pos rfl, one_mul] at htotal
  obtain ⟨-, rfl⟩ := moveUnits_spec h
  -- no row was shifted, so the totals are the same
  have hsame : T.rows.map
      (fun r => shift (1 * taken InventoryRow.available InventoryRow.id rows n r.id) r) = T.rows := by
    rw [quantities, quantities, Table.rows_mapRows, List.map_map, List.map_inj_left] at heq
    conv_rhs => rw [← List.map_id T.rows]
    refine List.map_congr_left fun r hr => ?_
    have hr := heq r hr
    simp only [Function.comp_apply, shift, Prod.mk.injEq] at hr
    have hzero : 1 * taken InventoryRow.available InventoryRow.id rows n r.id = 0 := by
      omega
    rw [hzero, shift_zero, id]
  rw [reservedTotal, reservedTotal, Table.total, Table.total, Table.rows_mapRows, hsame] at htotal
  omega

theorem reserveRows_quantities {rank : ℕ → ℕ} {u : Unit} (hpos : 0 < dto.quantity)
    (hle : dto.quantity ≤ totalAvailable (findRows rank dto.warehouseId dto.variantId s.inventory))
    (h : reserveRows dto (findRows rank dto.warehouseId dto.variantId s.inventory) s = .ok (u, t)) :
    quantities t.inventory ≠ quantities s.inventory := by
  simp only [reserveRows, bind_eq_ok, pure_eq_ok, Prod.mk.injEq] at h
  obtain ⟨⟨m, T⟩, hT, -, rfl⟩ := h
  exact moveUnits_quantities (current_findRows rank) (leftover_lt hpos (lt_of_lt_of_le hpos hle)) hT

/-! ### After the transaction -/

def KeepsRows (_ : ShopCall) (_ : ShopInput) (s s' : Shop) : Prop := s'.inventory = s.inventory

theorem createReservation_rows (dto : ReserveStockDto) :
    (atomic (.stock (.createReservation dto)) fun i s => createReservation dto i.now s :
      ShopProg StockReservation).Every (fun _ _ _ => True) KeepsRows := by
  refine every_atomic (fun _ _ _ => rfl) fun i s b s' _ _ h => ?_
  simp only [createReservation, bind_eq_ok, check_eq_ok, pure_eq_ok] at h
  obtain ⟨-, -, -, -, -, -, -, -, -, -, h⟩ := h
  obtain ⟨-, rfl⟩ := Prod.mk.inj h
  rfl

theorem createMovement_rows (w v : ℕ) (type : MovementType) (n : ℤ) (ref : String) (id : ℕ)
    (notes : Option String) :
    (createMovement w v type n ref id notes).Every (fun _ _ _ => True) KeepsRows := by
  refine every_atomic (fun _ _ _ => rfl) fun i s b s' _ _ h => ?_
  simp only [insertMovement, bind_eq_ok, check_eq_ok, pure_eq_ok] at h
  obtain ⟨_, ⟨-, -, -, -, rfl⟩, h⟩ := h
  obtain ⟨-, rfl⟩ := Prod.mk.inj h
  rfl

theorem maybeLowStock_rows (w v : ℕ) :
    (maybeLowStock w v).Every (fun _ _ _ => True) KeepsRows := by
  refine every_queryBind fun i s _ => ⟨rfl, ?_⟩
  dsimp only
  split
  · trivial
  refine every_queryBind fun i s _ => ⟨rfl, ?_⟩
  split
  · trivial
  refine every_atomic (fun _ _ _ => rfl) fun i s b s' _ _ h => ?_
  simp only [createAlert, bind_eq_ok, check_eq_ok, pure_eq_ok] at h
  obtain ⟨-, -, h⟩ := h
  obtain ⟨-, rfl⟩ := Prod.mk.inj h
  rfl

/-! ### The calls of a reservation -/

variable {u : Journaled ShopCall ShopInput Shop}

def LeftBy (dto : ReserveStockDto) (s : Shop) (u : Journaled ShopCall ShopInput Shop) : Prop :=
  AsBefore s u.state ↔ dto.quantity ≤ 0 ∨ ∀ c ∈ u.journal, commitsRows c = false

structure Unwritten (s : Shop) (u : Journaled ShopCall ShopInput Shop) : Prop where
  inventory : u.state.inventory = s.inventory
  reservations : u.state.reservations = s.reservations
  journal : ∀ c ∈ u.journal, commitsRows c = false

structure Shifted (s : Shop) (u : Journaled ShopCall ShopInput Shop) : Prop where
  quantities : quantities u.state.inventory ≠ quantities s.inventory
  journal : ∃ c ∈ u.journal, commitsRows c = true

theorem asBefore_of_eq (hi : u.state.inventory = s.inventory)
    (hr : u.state.reservations = s.reservations) : AsBefore s u.state := by
  refine ⟨by rw [hi], ?_⟩
  rw [activeReservations, activeReservations, hr]

theorem Unwritten.leaves (h : Unwritten s u) : LeftBy dto s u :=
  iff_of_true (asBefore_of_eq h.inventory h.reservations) (.inr h.journal)

theorem Shifted.leaves (hpos : 0 < dto.quantity) (h : Shifted s u) : LeftBy dto s u := by
  refine iff_of_false (fun hb => h.quantities hb.1) ?_
  rintro (hq | hnone)
  · omega
  · obtain ⟨c, hc, hcommits⟩ := h.journal
    rw [hnone c hc] at hcommits
    cases hcommits

theorem Unwritten.record {l : ShopCall} {i : ShopInput} {s' : Shop} (h : Unwritten s u)
    (hi : s'.inventory = u.state.inventory) (hr : s'.reservations = u.state.reservations)
    (hc : commitsRows ⟨0, l, i, u.state⟩ = false) : Unwritten s (u.record 0 l i s') := by
  refine ⟨hi.trans h.inventory, hr.trans h.reservations, fun c hm => ?_⟩
  rw [Journaled.journal_record, List.mem_cons] at hm
  rcases hm with rfl | hm
  · exact hc
  · exact h.journal c hm

theorem Shifted.record {l : ShopCall} {i : ShopInput} {s' : Shop} (h : Shifted s u)
    (hi : KeepsRows l i u.state s') : Shifted s (u.record 0 l i s') := by
  obtain ⟨hq, c, hc, hcommits⟩ := h
  refine ⟨?_, c, List.mem_cons_of_mem _ hc, hcommits⟩
  rwa [Journaled.state_record, hi]

theorem LeftBy.record {l : ShopCall} {i : ShopInput} {s' : Shop} (h : LeftBy dto s u)
    (hi : s'.inventory = u.state.inventory) (hr : s'.reservations = u.state.reservations)
    (hc : commitsRows ⟨0, l, i, u.state⟩ = false) : LeftBy dto s (u.record 0 l i s') := by
  have hstate : AsBefore s s' ↔ AsBefore s u.state := by
    simp only [AsBefore, activeReservations, hi, hr]
  have hjournal : (∀ c ∈ (u.record 0 l i s').journal, commitsRows c = false) ↔
      ∀ c ∈ u.journal, commitsRows c = false := by
    rw [Journaled.journal_record, List.forall_mem_cons]
    exact and_iff_right hc
  rw [LeftBy, Journaled.state_record, hstate, hjournal]
  exact h

abbrev Reserves {α : Type} (Q : Journaled ShopCall ShopInput Shop → Prop) (p : ShopProg α)
    (u : Journaled ShopCall ShopInput Shop) : Prop :=
  Traced (fun _ _ _ => True) (fun _ => Q) p u

theorem shifted_of_every {α : Type} {p : ShopProg α} (hp : p.Every (fun _ _ _ => True) KeepsRows)
    (hu : Shifted s u) : Reserves (Shifted s) p u :=
  Traced.of_every hp (fun _ _ _ _ h hk => h.record hk) hu

theorem settle_shifted (hu : Shifted s u) :
    Reserves (Shifted s) (do
      let reservation ← atomic (.stock (.createReservation dto)) fun i s =>
        createReservation dto i.now s
      createMovement dto.warehouseId dto.variantId .reservation dto.quantity "stock_reservation"
        reservation.id none
      maybeLowStock dto.warehouseId dto.variantId
      pure reservation) u := by
  refine Traced.bind (shifted_of_every (createReservation_rows dto) hu) (fun reservation v hv => ?_)
    fun _ _ h => h
  refine Traced.bind (shifted_of_every (createMovement_rows _ _ _ _ _ _ _) hv) (fun _ w hw => ?_)
    fun _ _ h => h
  refine Traced.bind (shifted_of_every (maybeLowStock_rows _ _) hw) (fun _ x hx => ?_) fun _ _ h => h
  exact Traced.done hx

theorem createReservation_pos {now : ℕ} {r : StockReservation}
    (h : createReservation dto now s = .ok (r, t)) : 0 < dto.quantity := by
  simp only [createReservation, bind_eq_ok, check_eq_ok, pure_eq_ok, Bool.and_eq_true,
    decide_eq_true_eq] at h
  obtain ⟨-, -, -, -, -, -, -, ⟨-, hpos⟩, -⟩ := h
  exact hpos

theorem reserving {u : Journaled ShopCall ShopInput Shop} (hu : Unwritten s u) :
    Reserves (LeftBy dto s) (do
      let _ ← requireWarehouse dto.warehouseId
      let rows ← query (.stock (.findRows dto.warehouseId dto.variantId)) fun i s =>
        findRows i.rank dto.warehouseId dto.variantId s.inventory
      Prog.ensure (dto.quantity ≤ totalAvailable rows)
        (insufficientStock (totalAvailable rows) dto.quantity)
      atomic (.stock (.reserveRows dto rows)) fun _ s => reserveRows dto rows s
      let reservation ← atomic (.stock (.createReservation dto)) fun i s =>
        createReservation dto i.now s
      createMovement dto.warehouseId dto.variantId .reservation dto.quantity "stock_reservation"
        reservation.id none
      maybeLowStock dto.warehouseId dto.variantId
      pure reservation) u := by
  have hread : ∀ {v : Journaled ShopCall ShopInput Shop} {l : ShopCall} {i : ShopInput},
      Unwritten s v → commitsRows ⟨0, l, i, v.state⟩ = false → Unwritten s (v.record 0 l i v.state) :=
    fun hv hc => hv.record rfl rfl hc
  simp only [requireWarehouse, Prog.bind_eq, Prog.bind_assoc]
  refine Traced.queryBind (fun i _ _ => ?_) fun i _ _ => (hread hu rfl).leaves
  let v := u.record 0 (.stock (.findWarehouse dto.warehouseId)) i u.state
  have hv : Unwritten s v := hread hu rfl
  refine Traced.orThrowBind (fun _ _ => ?_) fun _ => hv.leaves
  refine Traced.queryBind (fun i _ _ => ?_) fun i _ _ => (hread hv rfl).leaves
  let rows := findRows i.rank dto.warehouseId dto.variantId v.state.inventory
  let w := v.record 0 (.stock (.findRows dto.warehouseId dto.variantId)) i v.state
  have hw : Unwritten s w := hread hv rfl
  refine Traced.ensureBind (fun hle => ?_) fun _ => hw.leaves
  refine Traced.atomicBind (fun i' _ s' _ hf hs => ?_) fun i' e _ he => ?_
  · rcases Int.lt_or_le 0 dto.quantity with hpos | hneg
    · have hmoved := reserveRows_quantities hpos hle hs
      rw [show v.state.inventory = s.inventory from hv.inventory] at hmoved
      have hshifted : Shifted s (w.record 0 (.stock (.reserveRows dto rows)) i' s') := by
        exact ⟨hmoved, _, List.mem_cons_self, commitsRows_of_ok hf hs⟩
      exact (settle_shifted hshifted).mono fun _ _ h => h.leaves hpos
    · obtain rfl := reserveRows_of_nonpos hneg hs
      have hsame : ∀ x : Journaled ShopCall ShopInput Shop, x.state = v.state → LeftBy dto s x := by
        intro x hx
        refine iff_of_true (asBefore_of_eq ?_ ?_) (.inl hneg)
        · rw [hx]
          exact hv.inventory
        · rw [hx]
          exact hv.reservations
      refine Traced.atomicBind (fun i'' r s'' _ _ hr => ?_) fun i'' e _ _ => hsame _ rfl
      have hpos := createReservation_pos hr
      omega
  · exact (hw.record rfl rfl (commitsRows_of_error he)).leaves

theorem reserve_leaves (token : ℕ) (dto : ReserveStockDto) (s : Shop) :
    Reserves (LeftBy dto s) (reserve token dto) ⟨s, []⟩ := by
  have hstart : Unwritten s ⟨s, []⟩ := by
    refine ⟨rfl, rfl, ?_⟩
    simp
  refine Traced.withLock_blind (P := Unwritten s) (fun u hu => reserving hu) ?_ ?_ ?_ ?_ ?_
  · exact fun i m => hstart.record rfl rfl rfl
  · exact fun e i => (hstart.record rfl rfl rfl).leaves
  · exact fun r i m u hu => hu.record rfl rfl rfl
  · exact fun r i u hu => hu.record rfl rfl rfl
  · exact fun e r i u hu => hu.record rfl rfl rfl

/-! ### Rejected reservations -/

/-- A rejected reservation leaves the stock as it was exactly when its transaction over the rows did
not commit. -/
theorem reserve_all_or_nothing_iff (token : ℕ) (dto : ReserveStockDto) (s : Shop)
    (inputs : List ShopInput) (e : Failure)
    (h : (Pool.solo (reserve token dto) s inputs).result? = some (.error e)) :
    AsBefore s (Pool.solo (reserve token dto) s inputs).state ↔
      dto.quantity ≤ 0 ∨
        ∀ c ∈ Pool.callsOf (reserve token dto) s inputs, commitsRows c = false := by
  have hleaves := solo_traced (reserve_leaves token dto s)
    (Pool.soloAdmits_of_forall fun _ _ _ _ => trivial) h
  exact hleaves

/-- The stock does not suffice, and nothing is touched. -/
theorem scarce_stock_as_before :
    let p := Pool.solo (reserve 0 ⟨0, 1, 9, none, none, none, none⟩) fiveUnits (answers 4)
    p.result? = some (.error (insufficientStock 5 9)) ∧ AsBefore fiveUnits p.state := by
  have hend : (Pool.solo (reserve 0 ⟨0, 1, 9, none, none, none, none⟩) fiveUnits
      (answers 4)).result? = some (.error (insufficientStock 5 9)) := by decide +kernel
  exact ⟨hend, (reserve_all_or_nothing_iff 0 ⟨0, 1, 9, none, none, none, none⟩ fiveUnits (answers 4) _
    hend).mpr (.inr (by decide +kernel))⟩

/-- The movement is refused: the call throws, two units stay reserved and the reservation active. -/
theorem refused_movement_keeps_units :
    ¬ ∀ (token : ℕ) (dto : ReserveStockDto) (s : Shop) (inputs : List ShopInput) (e : Failure),
      (Pool.solo (reserve token dto) s inputs).result? = some (.error e) →
        AsBefore s (Pool.solo (reserve token dto) s inputs).state := by
  intro h
  have hleft := h 0 ⟨0, 1, 2, none, none, none, none⟩ fiveUnits
    (answers 5 ++ [{ fails := true, reply := {} }] ++ answers 1) .database (by decide +kernel)
  have hmoved : quantities (Pool.solo (reserve 0 ⟨0, 1, 2, none, none, none, none⟩) fiveUnits
      (answers 5 ++ [{ fails := true, reply := {} }] ++ answers 1)).state.inventory ≠
        quantities fiveUnits.inventory := by
    decide +kernel
  exact hmoved hleft.1

end ElectronicsCart.Inventory
