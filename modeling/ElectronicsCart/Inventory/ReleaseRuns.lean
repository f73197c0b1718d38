import ElectronicsCart.Inventory.StockRuns
import ElectronicsCart.Core.Exclusion

/-!
# Concurrent releases

`releaseReservation` checks the status of its reservation before it takes the lock and does not
look again inside.  The lock makes the rows read inside current, so a release moves what its
reservation holds; it moves it once as long as the reservation is still active when the
transaction runs.
-/

namespace ElectronicsCart.Inventory

open Interleaving Relational Allocation

/-- Releases of the given reservations at the same time, each with its own lock token. -/
def releasePool (ids : List ℕ) (s : Shop) : ShopPool Unit :=
  ⟨ids.mapIdx fun token id => releaseReservation token id, s⟩

/-- A release transaction runs while its reservation is still active. -/
def StillActive (l : ShopCall) (_ : ShopInput) (s : Shop) : Prop :=
  ∀ r rows, releaseOf l = some (r, rows) →
    (s.reservations.find? r.id).any (fun a => a.status == .active) = true

instance (l : ShopCall) (i : ShopInput) (s : Shop) : Decidable (StillActive l i s) :=
  match h : releaseOf l with
  | none => isTrue fun r rows hr => by rw [h] at hr; cases hr
  | some (r, rows) =>
    decidable_of_iff ((s.reservations.find? r.id).any (fun a => a.status == .active) = true)
      ⟨fun ha r' rows' hr => by rw [h] at hr; cases hr; exact ha, fun ha => ha r rows h⟩

/-- Reservations of `w` and `v` that were active in `s₀` and are released in `s`. -/
def becameReleased (w v : ℕ) (s₀ s : Shop) : ℤ :=
  s.reservations.total (fun r => r.warehouseId == w && r.variantId == v && r.status == .released &&
    (s₀.reservations.find? r.id).any fun a => a.status == .active) StockReservation.quantity

/-- The active reservations are covered by reserved units. -/
def Covered (s : Shop) : Prop :=
  ∀ w v, activeTotal w v s.reservations ≤ reservedTotal w v s.inventory

/-! ### What every call keeps -/

def clearStatus (r : StockReservation) : StockReservation := { r with status := .active }

def StatusOnly (R R' : Table StockReservation) : Prop :=
  ∀ id, (R'.find? id).map clearStatus = (R.find? id).map clearStatus

theorem StatusOnly.find? {R R' : Table StockReservation} (h : StatusOnly R R') {id : ℕ}
    {r : StockReservation} (hr : R.find? id = some r) :
    ∃ status, R'.find? id = some { r with status := status } := by
  have hid := h id
  rw [hr] at hid
  obtain ⟨a, ha, heq⟩ := Option.map_eq_some_iff.mp hid
  refine ⟨a.status, ?_⟩
  rw [ha]
  cases a
  cases r
  simp only [clearStatus, StockReservation.mk.injEq] at heq
  simp [heq]

theorem statusOnly_release (R : Table StockReservation) (id : ℕ) :
    StatusOnly R (R.update id fun r => { r with status := .released }) := by
  intro j
  rw [Table.find?_update]
  cases R.find? j with
  | none => rfl
  | some a =>
    simp only [Option.map_some, Option.some.injEq]
    split <;> rfl

/-- A stock lock guards the rows of its warehouse and variant. -/
def stockProtection : Protection ShopCall Shop ShopLock (List InventoryRow) where
  view
    | .stock w v, s => s.inventory.rows.filter (listed w v)
    | _, _ => []
  frame s s' := StatusOnly s.reservations s'.reservations
  refl _ _ := rfl
  trans h h' id := (h' id).trans (h id)
  view_setLocks key m s := by cases key <;> rfl
  frame_setLocks _ _ _ := rfl

/-- The books since the start `s₀`: units left the reserved ones exactly for the reservations
that became released. -/
structure Accounted (s₀ s : Shop) : Prop where
  consistent : Consistent s
  covered : Covered s
  reservations : StatusOnly s₀.reservations s.reservations
  active : ∀ id r, s.reservations.find? id = some r → r.status = .active →
    s₀.reservations.find? id = some r
  available : ∀ w v, availableTotal w v s.inventory =
    availableTotal w v s₀.inventory + becameReleased w v s₀ s
  reserved : ∀ w v, reservedTotal w v s.inventory =
    reservedTotal w v s₀.inventory - becameReleased w v s₀ s

variable {s₀ s s' : Shop} {w v : ℕ}

theorem Accounted.of_eq (h : Accounted s₀ s) (hi : s'.inventory = s.inventory)
    (hr : s'.reservations = s.reservations) (hv : s'.variants = s.variants) : Accounted s₀ s' := by
  have hb : ∀ w v, becameReleased w v s₀ s' = becameReleased w v s₀ s := by
    intro w v
    rw [becameReleased, becameReleased, hr]
  refine ⟨(SameReserved.of_eq hi hr hv).consistent h.consistent, ?_, ?_, ?_, ?_, ?_⟩
  · intro w v
    rw [hi, hr]
    exact h.covered w v
  · rw [hr]
    exact h.reservations
  · rw [hr]
    exact h.active
  · intro w v
    rw [hi, hb]
    exact h.available w v
  · intro w v
    rw [hi, hb]
    exact h.reserved w v

theorem becameReleased_release {r : StockReservation} (hr : s.reservations.find? r.id = some r)
    (hactive : r.status = .active) (hr₀ : s₀.reservations.find? r.id = some r)
    (hs' : s'.reservations = s.reservations.update r.id fun a => { a with status := .released }) :
    becameReleased w v s₀ s' = becameReleased w v s₀ s +
      if (w, v) = (r.warehouseId, r.variantId) then r.quantity else 0 := by
  have := Table.total_update
    (p := fun a : StockReservation => a.warehouseId == w && a.variantId == v &&
      a.status == .released && (s₀.reservations.find? a.id).any fun b => b.status == .active)
    (f := StockReservation.quantity)
    (g := fun a : StockReservation => { a with status := .released }) (fun _ => by rfl) hr
  rw [becameReleased, hs', becameReleased]
  simp only [hactive, hr₀, Option.any_some, beq_self_eq_true, Bool.and_true, Bool.and_eq_true,
    beq_iff_eq, reduceCtorEq, and_false, if_false, add_zero] at this
  rw [this]
  congr 2
  simp only [Prod.mk.injEq, eq_iff_iff]
  exact ⟨fun h => ⟨h.1.symm, h.2.symm⟩, fun h => ⟨h.1.symm, h.2.symm⟩⟩

theorem releaseRows_accounted {r : StockReservation} {rank : ℕ → ℕ} {u : Unit}
    (hs : Accounted s₀ s) (hr : s.reservations.find? r.id = some r)
    (ha : isActive r.warehouseId r.variantId r = true)
    (h : releaseRows r (findRows rank r.warehouseId r.variantId s.inventory) s = .ok (u, s')) :
    Accounted s₀ s' := by
  have hactive : r.status = .active := by
    simp only [isActive, Bool.and_eq_true, beq_iff_eq] at ha
    exact ha.1.2
  obtain ⟨hc, hres, htotals⟩ := releaseRows_spec hs.consistent (hs.covered _ _) hr ha h
  have hbecame : ∀ w v, becameReleased w v s₀ s' = becameReleased w v s₀ s +
      if (w, v) = (r.warehouseId, r.variantId) then r.quantity else 0 := fun w v =>
    becameReleased_release hr hactive (hs.active r.id r hr hactive) hres
  refine ⟨hc, ?_, ?_, ?_, ?_, ?_⟩
  · intro w v
    rw [(htotals w v).1, hres, activeTotal_release hr ha]
    have := hs.covered w v
    omega
  · rw [hres]
    exact fun id => (statusOnly_release s.reservations r.id id).trans (hs.reservations id)
  · intro id a hfind hact
    rw [hres, Table.find?_update] at hfind
    obtain ⟨b, hb, rfl⟩ := Option.map_eq_some_iff.mp hfind
    split at hact
    · cases hact
    next hne =>
      rw [if_neg hne]
      exact hs.active id b hb hact
  · intro w v
    rw [(htotals w v).2, hs.available w v, hbecame]
    omega
  · intro w v
    rw [(htotals w v).1, hs.reserved w v, hbecame]
    omega

theorem releaseRows_guar {r : StockReservation} {rank : ℕ → ℕ} {u : Unit} {token : ℕ} {l : ShopCall}
    {i : ShopInput} (hlock : s.locks (.stock r.warehouseId r.variantId) = some token)
    (h : releaseRows r (findRows rank r.warehouseId r.variantId s.inventory) s = .ok (u, s')) :
    (stockProtection.discipline token).guar l i s s' := by
  simp only [releaseRows, bind_eq_ok, pure_eq_ok, Prod.mk.injEq] at h
  obtain ⟨⟨m, T⟩, hT, -, -, -, rfl⟩ := h
  refine Protection.guar_write (statusOnly_release s.reservations r.id) hlock rfl ?_
  intro other hother
  cases other with
  | stock w v =>
    refine moveUnits_other (current_findRows rank) hT ?_
    rintro ⟨⟩
    exact hother rfl
  | _ => rfl

/-! ### One release among others -/

def releaseWorld (s₀ : Shop) : World ShopCall ShopInput Shop := ⟨StillActive, Accounted s₀⟩

theorem movement_holds {token : ℕ} {C : Discipline ShopCall ShopInput Shop} {w v : ℕ}
    {type : MovementType} {n : ℤ} {ref : String} {id : ℕ} {notes : Option String} :
    Holds (releaseWorld s₀) C (stockProtection.discipline token) (fun _ _ => True)
      (createMovement w v type n ref id notes) s := by
  refine holds_atomic fun t _ hi i _ => ⟨Protection.guar_refl, fun _ _ _ _ _ => trivial, ?_⟩
  intro _ u _ hu
  simp only [insertMovement, bind_eq_ok, pure_eq_ok, Prod.mk.injEq] at hu
  obtain ⟨_, ⟨_, _, _, _, rfl⟩, -, rfl⟩ := hu
  refine ⟨hi.of_eq rfl rfl rfl, ⟨fun _ => rfl, fun _ _ key hk => ⟨hk, ?_⟩⟩, fun _ _ _ => trivial⟩
  cases key <;> rfl

theorem release_holds {token id : ℕ} {C : Discipline ShopCall ShopInput Shop} :
    Holds (releaseWorld s₀) C (stockProtection.discipline token) (fun _ _ => True)
      (releaseReservation token id) s := by
  refine holds_lookupBind (fun _ _ _ _ => Protection.guar_refl) (fun _ _ _ _ => trivial) ?_
  intro t i r _ _ _ hr
  obtain ⟨hfind, hdel⟩ := Option.filter_eq_some_iff.mp hr
  have hself : t.reservations.find? r.id = some r :=
    Table.find?_eq_some_iff.mpr ⟨(Table.find?_mem hfind).1, rfl⟩
  refine Holds.ensureBind (fun hact => ?_) fun _ _ _ _ => trivial
  have ha : isActive r.warehouseId r.variantId r = true := by
    simpa [isActive, hact] using hdel
  refine Protection.holds_withLock (P := fun t => ∃ status,
      t.reservations.find? r.id = some { r with status := status }) (R := fun _ => True) ?_
    (fun _ _ _ _ => trivial) (fun _ _ => trivial) (fun m t h => h.of_eq rfl rfl rfl) ?_
    ⟨r.status, hself⟩
  · rintro t t' hframe ⟨status, hst⟩
    obtain ⟨status', hst'⟩ := StatusOnly.find? hframe hst
    exact ⟨status', hst'⟩
  intro t _ hlock hP
  refine holds_queryBind fun t₁ ht₁ _ i₁ _ => ⟨Protection.guar_refl, fun _ _ _ => trivial, fun _ => ?_⟩
  have hlock₁ := (ht₁.2 (.stock r.warehouseId r.variantId) hlock).1
  refine holds_atomicBind fun t₂ ht₂ hi₂ i₂ ho₂ => ⟨Protection.guar_refl, fun _ _ _ _ _ => trivial, ?_⟩
  intro _ u _ hu
  obtain ⟨hlock₂, hview⟩ := ht₂.2 (.stock r.warehouseId r.variantId) hlock₁
  have hrows : findRows i₁.rank r.warehouseId r.variantId t₁.inventory =
      findRows i₁.rank r.warehouseId r.variantId t₂.inventory := by
    rw [findRows, findRows]
    exact congrArg _ hview.symm
  -- the row is what was read, up to a status that is active again by assumption
  obtain ⟨status, hst⟩ := hP
  obtain ⟨status₂, hst₂⟩ := StatusOnly.find? (stockProtection.trans ht₁.1 ht₂.1) hst
  have hstill := ho₂ r _ rfl
  simp only [hst₂, Option.any_some, beq_iff_eq] at hstill
  have hr₂ : t₂.reservations.find? r.id = some r := by
    rw [hst₂, hstill, ← hact]
  rw [hrows] at hu
  refine ⟨releaseRows_accounted hi₂ hr₂ ha hu, releaseRows_guar hlock₂ hu, ?_⟩
  exact movement_holds

/-! ### Whole runs -/

theorem accounted_start (hs : Consistent s) (hcov : Covered s) : Accounted s s := by
  have hzero : ∀ w v, becameReleased w v s s = 0 := by
    intro w v
    refine List.sum_eq_zero ?_
    intro x hx
    obtain ⟨r, hr, rfl⟩ := List.mem_map.mp hx
    refine if_neg fun h => ?_
    have hself : s.reservations.find? r.id = some r := Table.find?_eq_some_iff.mpr ⟨hr, rfl⟩
    simp only [Bool.and_eq_true, beq_iff_eq, hself, Option.any_some] at h
    rw [h.1.2] at h
    exact absurd h.2 (by decide)
  refine ⟨hs, hcov, fun _ => rfl, fun _ _ h _ => h, fun w v => ?_, fun w v => ?_⟩
  · rw [hzero, add_zero]
  · rw [hzero, sub_zero]

/-- Whatever the order of the calls of any number of releases, the units that went from reserved
to available are those of the reservations that became released, as long as each release
transaction meets its reservation still active. -/
theorem released_units_moved_once (ids : List ℕ) (s : Shop) (sched : List (ℕ × ShopInput))
    (hs : Consistent s) (hcov : Covered s) (hok : (releasePool ids s).Admits StillActive sched)
    (w v : ℕ) :
    let t := ((releasePool ids s).run sched).state
    availableTotal w v t.inventory = availableTotal w v s.inventory + becameReleased w v s t ∧
      reservedTotal w v t.inventory = reservedTotal w v s.inventory - becameReleased w v s t := by
  have hsafe : (releasePool ids s).Safe (releaseWorld s) Protection.idle
      (stockProtection.tokens ids.length) fun _ _ _ => True := by
    refine ⟨accounted_start hs hcov, fun j p hp => ?_⟩
    have hlt : j < ids.length := by
      simpa [releasePool] using (List.getElem?_eq_some_iff.mp hp).1
    obtain ⟨id, rfl⟩ : ∃ id, p = releaseReservation j id := by
      obtain ⟨hj, rfl⟩ := List.getElem?_eq_some_iff.mp hp
      exact ⟨_, List.getElem_mapIdx⟩
    rw [Protection.tokens, if_pos hlt]
    exact release_holds
  have hrun := hsafe.run (stockProtection.compatible fun _ _ _ _ => trivial)
    (by simp [releasePool]) hok
  exact ⟨hrun.inv.available w v, hrun.inv.reserved w v⟩

/-- Five reserved units, for reservations of two and of three. -/
def twoReservations : Shop where
  variants := [1]
  warehouses := oneWarehouse
  inventory := Table.empty.insert fun n =>
    { id := n, warehouseId := 0, binId := 0, variantId := 1, available := 0, reserved := 5 }
  reservations := (Table.empty.insert fun n =>
      { id := n, warehouseId := 0, variantId := 1, quantity := 2 }).insert fun n =>
    { id := n, warehouseId := 0, variantId := 1, quantity := 3 }

/-- The turns of a schedule, with calls that the database answers. -/
def turns (threads : List ℕ) : List (ℕ × ShopInput) := threads.map fun j => (j, { reply := {} })

theorem twoReservations_consistent : Consistent twoReservations := by
  refine ⟨?_, ?_, ?_⟩ <;> decide

theorem twoReservations_covered : Covered twoReservations := by
  intro w v
  by_cases h : w = 0 ∧ v = 1
  · obtain ⟨rfl, rfl⟩ := h
    decide
  · have hno : ∀ r ∈ twoReservations.reservations.rows, isActive w v r = false := by
      intro r hr
      simp only [twoReservations, Table.mem_insert, Table.empty, List.not_mem_nil, false_or] at hr
      rcases hr with rfl | rfl <;> simp only [isActive] <;> grind
    have hzero : activeTotal w v twoReservations.reservations = 0 := by
      refine List.sum_eq_zero ?_
      intro x hx
      obtain ⟨r, hr, rfl⟩ := List.mem_map.mp hx
      simp [hno r hr]
    rw [hzero]
    refine List.sum_nonneg ?_
    intro x hx
    obtain ⟨r, hr, rfl⟩ := List.mem_map.mp hx
    have := twoReservations_consistent.nonneg r hr
    split <;> omega

/-- One release after the other. -/
theorem released_units_moved_once_in_turn :
    (releasePool [0, 1] twoReservations).Admits StillActive (turns [0, 0, 0, 0, 0, 0, 1, 1, 1, 1, 1, 1]) ∧
      availableTotal 0 1 ((releasePool [0, 1] twoReservations).run
        (turns [0, 0, 0, 0, 0, 0, 1, 1, 1, 1, 1, 1])).state.inventory = 5 := by
  refine ⟨by decide, ?_⟩
  rw [(released_units_moved_once [0, 1] twoReservations (turns [0, 0, 0, 0, 0, 0, 1, 1, 1, 1, 1, 1])
    twoReservations_consistent twoReservations_covered (by decide) 0 1).1]
  decide

/-- Both calls read reservation 0 as active; the second one gives back two units that belong to
reservation 1. -/
theorem reservation_released_twice :
    Consistent twoReservations ∧ Covered twoReservations ∧
      ((releasePool [0, 0] twoReservations).run
        (turns [0, 1, 0, 0, 0, 0, 0, 1, 1, 1, 1, 1])).quiescent ∧
      availableTotal 0 1 ((releasePool [0, 0] twoReservations).run
          (turns [0, 1, 0, 0, 0, 0, 0, 1, 1, 1, 1, 1])).state.inventory ≠
        availableTotal 0 1 twoReservations.inventory +
          becameReleased 0 1 twoReservations ((releasePool [0, 0] twoReservations).run
            (turns [0, 1, 0, 0, 0, 0, 0, 1, 1, 1, 1, 1])).state :=
  ⟨twoReservations_consistent, twoReservations_covered, by decide, by decide⟩

end ElectronicsCart.Inventory
