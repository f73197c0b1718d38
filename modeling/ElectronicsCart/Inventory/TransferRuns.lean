import ElectronicsCart.Inventory.Ledger
import ElectronicsCart.Inventory.StockRuns

/-!
# A transfer by itself

`createTransfer` posts all its items in one transaction, so either all of them moved or none.
What the caller is told can still be wrong: the lock is released after the commit, and the
error of that release is thrown although the stock has moved.
-/

namespace ElectronicsCart.Inventory

open Interleaving Relational

def Untouched (s t : Shop) : Prop :=
  t.inventory = s.inventory ∧ t.movements = s.movements ∧ t.transfers = s.transfers ∧
    t.transferItems = s.transferItems

/-- The units of the items went from one warehouse to the other, and nowhere else. -/
structure Moved (dto : CreateTransferDto) (s t : Shop) : Prop where
  whole : ∀ v, stockOf v t = stockOf v s
  source : ∀ v, stockAt dto.fromWarehouseId v t = stockAt dto.fromWarehouseId v s - moved v dto.items
  dest : ∀ v, stockAt dto.toWarehouseId v t = stockAt dto.toWarehouseId v s + moved v dto.items
  reserved : ∀ id, reservedIn id t = reservedIn id s
  nonneg : ∀ r ∈ t.inventory.rows, 0 ≤ r.available ∧ 0 ≤ r.reserved

/-- What the caller of a transfer may conclude from its outcome. -/
def AllOrNothing (dto : CreateTransferDto) (s : Shop) : Except Failure StockTransfer → Shop → Prop
  | .ok _, t => Moved dto s t
  | .error _, t => Untouched s t

/-- The release of the lock fails only when no transfer was written since `s`. -/
def ReleasedOnceWritten (s : Shop) : ShopCall → ShopInput → Shop → Prop
  | .release _ _, i, t => i.fails = true → t.transfers.next = s.transfers.next
  | _, _, _ => True

instance (s : Shop) (l : ShopCall) (i : ShopInput) (t : Shop) :
    Decidable (ReleasedOnceWritten s l i t) := by
  unfold ReleasedOnceWritten
  split <;> infer_instance

variable {s s' : Shop}

theorem untouched_refl (s : Shop) : Untouched s s := ⟨rfl, rfl, rfl, rfl⟩

theorem postTransfer_moved {dto : CreateTransferDto} {x : StockTransfer} (hc : Consistent s)
    (hp : Placed s) (hne : dto.fromWarehouseId ≠ dto.toWarehouseId)
    (h : postTransfer dto s = .ok (x, s')) : Moved dto s s' := by
  obtain ⟨-, hcarried⟩ := postTransfer_carried hp h
  refine ⟨hcarried.whole, fun v => ?_, fun v => ?_, hcarried.reserved,
    ((postTransfer_same h).consistent hc).nonneg⟩
  · refine (hcarried.stock _ v).trans ?_
    rw [if_neg hne, if_pos rfl, zero_sub, ← sub_eq_add_neg]
    rfl
  · refine (hcarried.stock _ v).trans ?_
    rw [if_pos rfl, if_neg (Ne.symm hne), sub_zero]
    rfl

/-- The outcome of the critical section, before the lock is given back. -/
def Posted (dto : CreateTransferDto) (s : Shop) : Except Failure StockTransfer → Shop → Prop
  | .ok _, t => Moved dto s t ∧ t.transfers.next ≠ s.transfers.next
  | .error _, t => Untouched s t

theorem createTransfer_alone {token : ℕ} {dto : CreateTransferDto} (hc : Consistent s)
    (hp : Placed s) :
    Alone (ReleasedOnceWritten s) (AllOrNothing dto s) (createTransfer token dto) s := by
  refine Alone.ensureBind (fun hne => ?_) fun _ => untouched_refl s
  refine Alone.queryBind (fun i _ _ => ?_) fun _ _ _ => untouched_refl s
  refine Alone.ensureBind (fun _ => ?_) fun _ => untouched_refl s
  refine Alone.withLock (R := Posted dto s) (fun _ _ _ _ => untouched_refl s) (fun _ => ?_)
    (fun r t hr => ?_) fun r i t hr ho hf => ?_
  · refine requireWarehouse_alone (fun _ => untouched_refl s) fun _ _ => ?_
    refine requireWarehouse_alone (fun _ => untouched_refl s) fun _ _ => ?_
    refine Alone.atomic (fun i x u _ _ hu => ?_) fun _ _ _ _ => untouched_refl s
    obtain ⟨hnext, -⟩ := postTransfer_carried (by exact hp) hu
    have hmoved := postTransfer_moved (by exact ⟨hc.nonneg, hc.variant, hc.quantity⟩) (by exact hp)
      hne hu
    refine ⟨⟨hmoved.whole, hmoved.source, hmoved.dest, hmoved.reserved, hmoved.nonneg⟩, ?_⟩
    exact fun h => Nat.succ_ne_self _ (hnext.symm.trans h)
  · rcases LockService.drop_cases (L := ShopCall) (ShopLock.transfer
      (min dto.fromWarehouseId dto.toWarehouseId) (max dto.fromWarehouseId dto.toWarehouseId))
      token t with ⟨-, hd⟩ | hd
    · rw [hd]
      cases r with
      | ok x => exact ⟨hr.1.whole, hr.1.source, hr.1.dest, hr.1.reserved, hr.1.nonneg⟩
      | error e => exact hr
    · rw [hd]
      cases r with
      | ok x => exact hr.1
      | error e => exact hr
  · cases r with
    | ok x => exact absurd (ho hf) hr.2
    | error e => exact hr

theorem createTransfer_exits (token : ℕ) (dto : CreateTransferDto) (s : Shop) :
    (createTransfer token dto).Exits (fun l i t => ¬ ReleasedOnceWritten s l i t)
      fun r t => r = .error .database ∧ t.transfers.next ≠ s.transfers.next := by
  have hother : ∀ {l : ShopCall}, (∀ key k, l ≠ .release key k) → ∀ i t, ReleasedOnceWritten s l i t := by
    intro l hl i t
    unfold ReleasedOnceWritten
    split
    next => exact absurd rfl (hl _ _)
    next => trivial
  have hwarehouse : ∀ id, (requireWarehouse id).Every (fun _ _ _ => True)
      fun l i t _ => ¬ ¬ ReleasedOnceWritten s l i t := fun id =>
    Prog.Every.bind (every_query fun i t _ => not_not.mpr trivial) fun _ => Prog.every_orThrow _ _
  refine Prog.Exits.bind (Prog.every_ensure _ _) fun _ => ?_
  refine Prog.Exits.bind (every_query fun i t _ => not_not.mpr trivial) fun found => ?_
  refine Prog.Exits.bind (Prog.every_ensure _ _) fun _ => ?_
  refine LockService.exits_withLock (fun i t => not_not.mpr trivial) ?_ fun i t hb => ?_
  · refine Prog.Every.bind (hwarehouse _) fun _ => Prog.Every.bind (hwarehouse _) fun _ => ?_
    exact every_atomic (fun _ _ _ => not_not.mpr trivial) fun _ _ _ _ _ _ _ => not_not.mpr trivial
  · have hfail : i.fails = true ∧ t.transfers.next ≠ s.transfers.next := by
      by_contra hcon
      exact hb fun hf => by_contra fun hnext => hcon ⟨hf, hnext⟩
    exact ⟨hfail.1, rfl, hfail.2⟩

/-- A transfer that runs by itself is all or nothing for its caller exactly when the release of
its lock does not fail after the commit. -/
theorem transfer_all_or_nothing_iff {token : ℕ} {dto : CreateTransferDto} {inputs : List ShopInput}
    {r : Except Failure StockTransfer} (hc : Consistent s) (hp : Placed s)
    (hr : (Pool.solo (createTransfer token dto) s inputs).threads[0]? = some (.done r)) :
    AllOrNothing dto s r (Pool.solo (createTransfer token dto) s inputs).state ↔
      Pool.SoloAdmits (ReleasedOnceWritten s) (createTransfer token dto) s inputs := by
  constructor
  · intro hwhole
    by_contra hbad
    obtain ⟨r', hr', rfl, hnext⟩ := Pool.solo_exits (createTransfer_exits token dto s)
      (by simpa only [not_not] using hbad)
    obtain rfl : r = .error .database := by
      have := hr.symm.trans hr'
      simpa using this
    exact hnext (by rw [hwhole.2.2.1])
  · intro hok
    exact Pool.solo_post (W := ⟨ReleasedOnceWritten s, fun _ => True⟩) trivial
      (createTransfer_alone hc hp) hok hr

/-- Two warehouses with a bin each; five units of variant 1 in the first. -/
def twoSites : Shop where
  variants := [1]
  warehouses := twoWarehouses
  bins := twoBins
  inventory := fiveInBin

theorem twoSites_consistent : Consistent twoSites := by
  refine ⟨?_, ?_, ?_⟩ <;> decide

theorem twoSites_placed : Placed twoSites := by
  unfold Placed
  decide

def twiceTwo : CreateTransferDto := ⟨"TR-1", 0, 1, none, [⟨1, 2, 0, 1⟩, ⟨1, 2, 0, 1⟩]⟩

theorem transfer_all_or_nothing_iff_twice :
    AllOrNothing twiceTwo twoSites (.ok ⟨0, "TR-1", 0, 1, none, false⟩)
        (Pool.solo (createTransfer 7 twiceTwo) twoSites (answers 6)).state ↔
      Pool.SoloAdmits (ReleasedOnceWritten twoSites) (createTransfer 7 twiceTwo) twoSites (answers 6) :=
  transfer_all_or_nothing_iff twoSites_consistent twoSites_placed rfl

/-- The units have moved, and the caller gets the error of the release. -/
theorem transfer_moved_and_rejected :
    ¬ ∀ (token : ℕ) (dto : CreateTransferDto) (s : Shop) (inputs : List ShopInput)
      (r : Except Failure StockTransfer), Consistent s → Placed s → (∀ i ∈ dto.items, 0 < i.quantity) →
      (Pool.solo (createTransfer token dto) s inputs).threads[0]? = some (.done r) →
      AllOrNothing dto s r (Pool.solo (createTransfer token dto) s inputs).state := by
  intro h
  have hend := h 7 twiceTwo twoSites (answers 5 ++ [{ fails := true, reply := {} }])
    (.error .database) twoSites_consistent twoSites_placed (by decide) rfl
  exact absurd (congrArg Table.next hend.2.2.1) (by decide)

end ElectronicsCart.Inventory
