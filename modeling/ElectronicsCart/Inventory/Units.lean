import ElectronicsCart.Inventory.Service
import ElectronicsCart.Lib.Allocation
import Mathlib.Algebra.BigOperators.Ring.List

/-!
# What the stock writes do

`moveUnits` is a greedy allocation over the rows read before: every row is shifted by what
it gave.  On rows that are still current, the reserved and available totals of the warehouse
and variant move by what was served, and no other total moves.
-/

namespace ElectronicsCart.Inventory

open Relational Allocation

variable {T T' : Table InventoryRow} {cap : InventoryRow → ℤ} {sign n m : ℤ}
  {rows : List InventoryRow} {w v w' v' : ℕ}

/-! ### Single rows -/

@[simp] theorem shift_zero (r : InventoryRow) : shift 0 r = r := by
  simp [shift]

theorem shift_shift (a b : ℤ) (r : InventoryRow) : shift a (shift b r) = shift (b + a) r := by
  simp only [shift, InventoryRow.mk.injEq, true_and, and_true]
  omega

@[simp] theorem listed_shift (a : ℤ) (r : InventoryRow) : listed w v (shift a r) = listed w v r := rfl

@[simp] theorem listed_addUnits (a : ℤ) (r : InventoryRow) :
    listed w v (addUnits a r) = listed w v r := rfl

theorem listed_iff {r : InventoryRow} : listed w v r = true ↔
    r.warehouseId = w ∧ r.variantId = v ∧ r.active = true ∧ r.deleted = false := by
  simp [listed, and_assoc]

theorem validRow_nonneg {r : InventoryRow} (h : validRow r = true) :
    0 ≤ r.available ∧ 0 ≤ r.reserved := by
  simp only [validRow, Bool.and_eq_true, decide_eq_true_eq] at h
  exact ⟨h.1.1.2, h.2⟩

theorem updateRow_eq_ok {id : ℕ} {g : InventoryRow → InventoryRow}
    {hg : ∀ r, key (g r) = key r} :
    updateRow id g hg T = .ok T' ↔
      ∃ r, T.find? id = some r ∧ validRow (g r) = true ∧ T.update id g hg = T' := by
  simp only [updateRow, bind_eq_ok, existing_eq_ok, check_eq_ok, pure_eq_ok, exists_const]

/-! ### Reads -/

theorem findRows_perm (rank : ℕ → ℕ) : (findRows rank w v T).Perm (T.rows.filter (listed w v)) :=
  List.perm_insertionSort _ _

theorem mem_findRows {rank : ℕ → ℕ} {r : InventoryRow} :
    r ∈ findRows rank w v T ↔ r ∈ T.rows ∧ listed w v r = true := by
  rw [(findRows_perm rank).mem_iff, List.mem_filter]

theorem sum_findRows (rank : ℕ → ℕ) (f : InventoryRow → ℤ) :
    ((findRows rank w v T).map f).sum = T.total (listed w v) f := by
  rw [((findRows_perm rank).map f).sum_eq, Table.total]
  induction T.rows with
  | nil => rfl
  | cons r rs ih => by_cases h : listed w v r <;> simp [h, ih]

theorem findRow_some {binId variantId : ℕ} {r : InventoryRow}
    (h : findRow binId variantId T = some r) :
    r ∈ T.rows ∧ r.binId = binId ∧ r.variantId = variantId ∧ r.deleted = false := by
  obtain ⟨hr, hp⟩ := Table.first?_mem h
  simpa [and_assoc] using And.intro hr hp

def Current (w v : ℕ) (rows : List InventoryRow) (T : Table InventoryRow) : Prop :=
  ∀ r ∈ rows, T.find? r.id = some r ∧ listed w v r = true

theorem current_findRows (rank : ℕ → ℕ) : Current w v (findRows rank w v T) T := by
  intro r hr
  obtain ⟨hm, hl⟩ := mem_findRows.mp hr
  exact ⟨Table.find?_eq_some_iff.mpr ⟨hm, rfl⟩, hl⟩

/-! ### The greedy loop -/

theorem moveUnits_spec (h : moveUnits cap sign rows n T = .ok (m, T')) :
    m = leftover cap rows n ∧
      T' = T.mapRows (fun r => shift (sign * taken cap InventoryRow.id rows n r.id) r)
        fun r => key_shift _ r := by
  induction rows generalizing n T with
  | nil =>
    simp only [moveUnits, Except.ok.injEq, Prod.mk.injEq] at h
    obtain ⟨rfl, rfl⟩ := h
    refine ⟨rfl, Table.ext ?_ rfl⟩
    simp [taken, takes]
  | cons row rows ih =>
    simp only [moveUnits] at h
    simp only [leftover, taken, takes]
    split at h
    next hn =>
      simp only [Except.ok.injEq, Prod.mk.injEq] at h
      obtain ⟨rfl, rfl⟩ := h
      refine ⟨by simp [hn], Table.ext ?_ rfl⟩
      simp [hn]
    next hn =>
      split at h
      next ht =>
        simp only [if_neg hn, if_pos ht]
        exact ih h
      next ht =>
        simp only [if_neg hn, if_neg ht]
        obtain ⟨T₁, hT₁, hrest⟩ := bind_eq_ok.mp h
        obtain ⟨r, -, -, rfl⟩ := updateRow_eq_ok.mp hT₁
        obtain ⟨hm, hT'⟩ := ih hrest
        refine ⟨hm, ?_⟩
        rw [hT']
        refine Table.ext ?_ rfl
        rw [Table.rows_mapRows, Table.rows_mapRows, Table.rows_update, List.map_map]
        refine List.map_congr_left fun a _ => ?_
        by_cases ha : row.id = a.id
        · have hk : key a = row.id := ha.symm
          simp only [Function.comp_apply, hk, if_true, ha, shift_shift, List.map_cons,
            List.sum_cons, mul_add]
          rfl
        · have hk : key a ≠ row.id := fun h => ha h.symm
          simp only [Function.comp_apply, hk, if_false, ha, List.map_cons, List.sum_cons, zero_add]
          rfl

theorem moveUnits_nonneg (h : moveUnits cap sign rows n T = .ok (m, T'))
    (hT : ∀ r ∈ T.rows, 0 ≤ r.available ∧ 0 ≤ r.reserved) :
    ∀ r ∈ T'.rows, 0 ≤ r.available ∧ 0 ≤ r.reserved := by
  induction rows generalizing n T with
  | nil =>
    simp only [moveUnits, Except.ok.injEq, Prod.mk.injEq] at h
    exact h.2 ▸ hT
  | cons row rows ih =>
    simp only [moveUnits] at h
    split at h
    · simp only [Except.ok.injEq, Prod.mk.injEq] at h
      exact h.2 ▸ hT
    · split at h
      · exact ih h hT
      · obtain ⟨T₁, hT₁, hrest⟩ := bind_eq_ok.mp h
        obtain ⟨r, hr, hvalid, rfl⟩ := updateRow_eq_ok.mp hT₁
        refine ih hrest (Table.forall_update (fun _ => by rfl) (fun b hb hk => ?_)
          fun b hb _ => hT b hb)
        obtain rfl : b = r := Table.eq_of_find?_eq hr hb hk
        exact validRow_nonneg hvalid

theorem moveUnits_variant {variants : List ℕ} (h : moveUnits cap sign rows n T = .ok (m, T'))
    (hT : ∀ r ∈ T.rows, variants.contains r.variantId = true) :
    ∀ r ∈ T'.rows, variants.contains r.variantId = true := by
  obtain ⟨-, rfl⟩ := moveUnits_spec h
  intro r hr
  rw [Table.rows_mapRows, List.mem_map] at hr
  obtain ⟨a, ha, rfl⟩ := hr
  exact hT a ha

/-! ### Totals -/

/-- The units of a warehouse and variant that its listed rows hold as reserved. -/
def reservedTotal (w v : ℕ) (T : Table InventoryRow) : ℤ :=
  T.total (listed w v) InventoryRow.reserved

def availableTotal (w v : ℕ) (T : Table InventoryRow) : ℤ :=
  T.total (listed w v) InventoryRow.available

theorem total_taken {p : InventoryRow → Bool}
    (hrows : ∀ r ∈ rows, T.find? r.id = some r ∧ p r = true) :
    T.total p (fun r => taken cap InventoryRow.id rows n r.id) = n - leftover cap rows n := by
  have hmem : ∀ a ∈ takes cap rows n, T.find? a.1.id = some a.1 ∧ p a.1 = true :=
    fun a ha => hrows a.1 (mem_takes ha).1
  have hsum : T.total p (fun r => taken cap InventoryRow.id rows n r.id) =
      ((takes cap rows n).map Prod.snd).sum := by
    simp only [taken]
    generalize takes cap rows n = l at hmem
    induction l with
    | nil => simp [Table.total]
    | cons a l ih =>
      obtain ⟨ha, hl⟩ := hmem a (List.mem_cons_self ..)
      simp only [List.map_cons, List.sum_cons, Table.total_add]
      rw [ih fun b hb => hmem b (List.mem_cons_of_mem a hb)]
      congr 1
      refine Eq.trans ?_ (Table.total_single (m := a.2) ha hl)
      simp only [key, eq_comm]
  have := @sum_takes _ cap rows n
  omega

theorem taken_eq_zero (hrows : Current w v rows T) {r : InventoryRow} (hr : r ∈ T.rows)
    (hne : (r.warehouseId, r.variantId) ≠ (w, v)) : taken cap InventoryRow.id rows n r.id = 0 := by
  refine List.sum_eq_zero ?_
  intro y hy
  obtain ⟨a, ha, rfl⟩ := List.mem_map.mp hy
  refine if_neg fun hid => hne ?_
  obtain ⟨hfind, hla⟩ := hrows a.1 (mem_takes ha).1
  obtain rfl : a.1 = r := Table.eq_of_key_eq (Table.find?_mem hfind).1 hr hid
  obtain ⟨rfl, rfl, -⟩ := listed_iff.mp hla
  rfl

theorem total_taken_of_ne {p : InventoryRow → Bool} (hrows : Current w v rows T)
    (hne : ∀ r, p r = true → (r.warehouseId, r.variantId) ≠ (w, v)) :
    T.total p (fun r => taken cap InventoryRow.id rows n r.id) = 0 := by
  refine List.sum_eq_zero ?_
  intro x hx
  obtain ⟨r, hr, rfl⟩ := List.mem_map.mp hx
  split
  next hl => exact taken_eq_zero hrows hr (hne r hl)
  next => rfl

theorem listed_ne (hne : (w', v') ≠ (w, v)) (r : InventoryRow) (h : listed w' v' r = true) :
    (r.warehouseId, r.variantId) ≠ (w, v) := by
  obtain ⟨rfl, rfl, -⟩ := listed_iff.mp h
  exact hne

theorem total_mul (p : InventoryRow → Bool) (f : InventoryRow → ℤ) (a : ℤ) :
    T.total p (fun r => a * f r) = a * T.total p f := by
  rw [Table.total, Table.total, ← List.sum_map_mul_left]
  congr 1
  refine List.map_congr_left fun r _ => ?_
  by_cases h : p r <;> simp [h]

theorem moveUnits_totals (hrows : Current w v rows T)
    (h : moveUnits cap sign rows n T = .ok (m, T')) (w' v' : ℕ) :
    let moved := if (w', v') = (w, v) then sign * (n - leftover cap rows n) else 0
    reservedTotal w' v' T' = reservedTotal w' v' T + moved ∧
      availableTotal w' v' T' = availableTotal w' v' T - moved := by
  have hmoved : T.total (listed w' v') (fun r => sign * taken cap InventoryRow.id rows n r.id) =
      if (w', v') = (w, v) then sign * (n - leftover cap rows n) else 0 := by
    rw [total_mul]
    by_cases hw : (w', v') = (w, v)
    · obtain ⟨rfl, rfl⟩ := Prod.mk.inj hw
      rw [if_pos hw, total_taken hrows]
    · rw [if_neg hw, total_taken_of_ne hrows (listed_ne hw), mul_zero]
  obtain ⟨-, rfl⟩ := moveUnits_spec h
  dsimp only
  rw [← hmoved]
  refine ⟨?_, ?_⟩
  · rw [reservedTotal, Table.total_mapRows _ fun r => listed_shift _ r, reservedTotal,
      ← Table.total_add]
    rfl
  · rw [availableTotal, Table.total_mapRows _ fun r => listed_shift _ r, availableTotal,
      eq_sub_iff_add_eq, ← Table.total_add]
    simp only [shift, sub_add_cancel]

theorem moveUnits_other (hrows : Current w v rows T)
    (h : moveUnits cap sign rows n T = .ok (m, T')) (hne : (w', v') ≠ (w, v)) :
    T'.rows.filter (listed w' v') = T.rows.filter (listed w' v') := by
  obtain ⟨-, rfl⟩ := moveUnits_spec h
  rw [Table.rows_mapRows, List.filter_map]
  have hp : (listed w' v' ∘ fun r => shift (sign * taken cap InventoryRow.id rows n r.id) r) =
      listed w' v' := by
    funext r
    rfl
  rw [hp]
  conv_rhs => rw [← List.map_id (T.rows.filter (listed w' v'))]
  refine List.map_congr_left fun r hr => ?_
  obtain ⟨hm, hl⟩ := List.mem_filter.mp hr
  rw [taken_eq_zero hrows hm (listed_ne hne r hl), mul_zero, shift_zero, id]

end ElectronicsCart.Inventory
