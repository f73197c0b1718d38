import ElectronicsCart.Inventory.Units

/-!
# The loops of a reservation and of a release

`reserve` takes the units from what the rows have available, `releaseReservation` from what they
have reserved; both go through the rows in the order they were read.  A loop that is asked for no
more than the rows hold serves all of it, unless the column that grows would leave the range of
`INTEGER`: the database then refuses the update, and the transaction is rolled back.
-/

namespace ElectronicsCart.Inventory

open Relational Allocation

variable {T T' : Table InventoryRow} {cap : InventoryRow → ℤ} {sign n : ℤ}
  {rows : List InventoryRow}

/-- A row after the loop over `rows` that serves `n` units. -/
def afterLoop (cap : InventoryRow → ℤ) (sign : ℤ) (rows : List InventoryRow) (n : ℤ)
    (r : InventoryRow) : InventoryRow :=
  shift (sign * taken cap InventoryRow.id rows n r.id) r

/-- Rows of which the loop can serve `n` units: they are in the table under keys of their own,
none of their quantities is negative, and together they hold that many. -/
structure Servable (cap : InventoryRow → ℤ) (rows : List InventoryRow) (n : ℤ)
    (T : Table InventoryRow) : Prop where
  keys : (rows.map InventoryRow.id).Nodup
  held : ∀ r ∈ rows, T.find? r.id = some r
  nonneg : ∀ r ∈ rows, 0 ≤ r.available ∧ 0 ≤ r.reserved
  positive : 0 < n
  enough : n ≤ (rows.map cap).sum

/-- What the loop makes of the rows, `after` being a row as it stands then. -/
structure Serves (cap : InventoryRow → ℤ) (rows : List InventoryRow) (n : ℤ)
    (after : InventoryRow → InventoryRow) : Prop where
  /-- each row gives between nothing and what it holds -/
  gives : ∀ r ∈ rows, 0 ≤ cap r - cap (after r) ∧ cap r - cap (after r) ≤ cap r
  /-- and keeps its units -/
  keeps : ∀ r ∈ rows, (after r).available + (after r).reserved = r.available + r.reserved
  total : (rows.map fun r => (after r).available + (after r).reserved).sum =
    (rows.map fun r => r.available + r.reserved).sum
  served : (rows.map fun r => cap (after r)).sum = (rows.map cap).sum - n

/-- The rows that the loop writes stay in the range of `INTEGER`. -/
def InRange (cap : InventoryRow → ℤ) (rows : List InventoryRow)
    (after : InventoryRow → InventoryRow) : Prop :=
  ∀ r ∈ rows, cap (after r) < cap r → (after r).available ≤ 2147483647 ∧ (after r).reserved ≤ 2147483647

/-- Each row of the list is as it should be after the loop, and no other row has changed. -/
def Written (rows : List InventoryRow) (after : InventoryRow → InventoryRow)
    (T T' : Table InventoryRow) : Prop :=
  (∀ r ∈ rows, T'.find? r.id = some (after r)) ∧
    ∀ id, (∀ r ∈ rows, r.id ≠ id) → T'.find? id = T.find? id

/-- The loop ends with nothing remaining, or the database refuses one of its updates; which of the
two it is depends on the range of the columns alone. -/
structure LoopServes (cap : InventoryRow → ℤ) (sign : ℤ) (rows : List InventoryRow) (n : ℤ)
    (T : Table InventoryRow) : Prop where
  serves : Serves cap rows n (afterLoop cap sign rows n)
  ends : InRange cap rows (afterLoop cap sign rows n) → ∃ T',
    moveUnits cap sign rows n T = .ok (0, T') ∧ Written rows (afterLoop cap sign rows n) T T'
  refused : ¬ InRange cap rows (afterLoop cap sign rows n) →
    ∃ e, moveUnits cap sign rows n T = .error e

/-! ### When the database takes the updates -/

theorem moveUnits_isOk_iff (hkeys : (rows.map InventoryRow.id).Nodup)
    (hheld : ∀ r ∈ rows, T.find? r.id = some r) :
    (∃ m T', moveUnits cap sign rows n T = .ok (m, T')) ↔
      ∀ a ∈ takes cap rows n, validRow (shift (sign * a.2) a.1) = true := by
  induction rows generalizing n T with
  | nil => simp [moveUnits, takes]
  | cons row rows ih =>
    simp only [List.map_cons, List.nodup_cons, List.mem_map, not_exists, not_and] at hkeys
    have hrow : T.find? row.id = some row := hheld row (List.mem_cons_self ..)
    have htail : ∀ r ∈ rows, T.find? r.id = some r := fun r hr => hheld r (List.mem_cons_of_mem _ hr)
    simp only [moveUnits, takes]
    split
    · simp
    · split
      · exact ih hkeys.2 htail
      · rw [List.forall_mem_cons]
        constructor
        · rintro ⟨m, T', h⟩
          obtain ⟨T₁, hT₁, hrest⟩ := bind_eq_ok.mp h
          obtain ⟨r, hr, hvalid, rfl⟩ := updateRow_eq_ok.mp hT₁
          obtain rfl : row = r := Option.some.inj (hrow.symm.trans hr)
          refine ⟨hvalid, (ih hkeys.2 ?_).mp ⟨m, T', hrest⟩⟩
          intro b hb
          rw [Table.find?_update_ne _ (hkeys.1 b hb)]
          exact htail b hb
        · rintro ⟨hvalid, hrest⟩
          have hT₁ : updateRow row.id (shift (sign * min (cap row) n)) (key_shift _) T =
              .ok (T.update row.id (shift (sign * min (cap row) n)) (key_shift _)) :=
            updateRow_eq_ok.mpr ⟨row, hrow, hvalid, rfl⟩
          rw [hT₁]
          refine (ih hkeys.2 ?_).mpr hrest
          intro b hb
          rw [Table.find?_update_ne _ (hkeys.1 b hb)]
          exact htail b hb

/-! ### What the loop serves -/

section

variable (hcap : ∀ (r : InventoryRow) (t : ℤ), cap (shift (sign * t) r) = cap r - t)
include hcap

theorem cap_afterLoop (r : InventoryRow) :
    cap (afterLoop cap sign rows n r) = cap r - taken cap InventoryRow.id rows n r.id :=
  hcap r _

theorem afterLoop_serves (h : Servable cap rows n T) (hnonneg : ∀ r ∈ rows, 0 ≤ cap r) :
    Serves cap rows n (afterLoop cap sign rows n) := by
  have hkeeps : ∀ r : InventoryRow, (afterLoop cap sign rows n r).available +
      (afterLoop cap sign rows n r).reserved = r.available + r.reserved := by
    intro r
    simp only [afterLoop, shift]
    omega
  constructor
  case gives =>
    intro r hr
    have hle := taken_le (n := n) h.keys hr (hnonneg r hr)
    have hpos := @taken_nonneg _ cap _ _ InventoryRow.id rows n r.id
    rw [cap_afterLoop hcap]
    omega
  case keeps => exact fun r _ => hkeeps r
  case total => simp only [hkeeps]
  case served =>
    have hsum := @sum_taken _ cap _ _ InventoryRow.id rows n h.keys
    rw [leftover_eq_zero hnonneg h.positive.le h.enough] at hsum
    have hadd : (rows.map fun r => cap (afterLoop cap sign rows n r)).sum +
        (rows.map fun r => taken cap InventoryRow.id rows n r.id).sum = (rows.map cap).sum := by
      rw [← List.sum_map_add]
      simp only [cap_afterLoop hcap, sub_add_cancel]
    omega

theorem valid_takes_iff (h : Servable cap rows n T)
    (hafter : ∀ r ∈ rows, 0 ≤ (afterLoop cap sign rows n r).available ∧
      0 ≤ (afterLoop cap sign rows n r).reserved) :
    (∀ a ∈ takes cap rows n, validRow (shift (sign * a.2) a.1) = true) ↔
      InRange cap rows (afterLoop cap sign rows n) := by
  constructor
  · intro hvalid r hr hlt
    rw [cap_afterLoop hcap] at hlt
    have hv := hvalid _ (mem_takes_of_taken_pos h.keys hr (by omega))
    simp only [validRow, fitsInt4, Bool.and_eq_true, decide_eq_true_eq] at hv
    exact ⟨hv.1.1.1.2, hv.1.2.2⟩
  · intro hrange a ha
    obtain ⟨hr, hpos, -⟩ := mem_takes ha
    have htaken := taken_of_mem h.keys ha
    have hlt : cap (afterLoop cap sign rows n a.1) < cap a.1 := by
      rw [cap_afterLoop hcap]
      omega
    have hin := hrange a.1 hr hlt
    have hzero := hafter a.1 hr
    simp only [afterLoop, htaken] at hin hzero
    simp only [validRow, fitsInt4, Bool.and_eq_true, decide_eq_true_eq]
    omega

theorem loop_serves (h : Servable cap rows n T) (hnonneg : ∀ r ∈ rows, 0 ≤ cap r)
    (hafter : ∀ r ∈ rows, 0 ≤ (afterLoop cap sign rows n r).available ∧
      0 ≤ (afterLoop cap sign rows n r).reserved) : LoopServes cap sign rows n T := by
  have hok := @moveUnits_isOk_iff T cap sign n rows h.keys h.held
  rw [valid_takes_iff hcap h hafter] at hok
  constructor
  case serves => exact afterLoop_serves hcap h hnonneg
  case ends =>
    intro hrange
    obtain ⟨m, T', hmove⟩ := hok.mpr hrange
    obtain ⟨hm, hT'⟩ := moveUnits_spec hmove
    rw [leftover_eq_zero hnonneg h.positive.le h.enough] at hm
    refine ⟨T', ?_, ?_, ?_⟩
    · rw [hmove, hm]
    · intro r hr
      rw [hT', Table.find?_mapRows, h.held r hr]
      rfl
    · intro id hid
      have hzero : taken cap InventoryRow.id rows n id = 0 :=
        taken_eq_zero_of_forall fun a ha => hid a.1 (mem_takes ha).1
      rw [hT', Table.find?_mapRows]
      cases hfind : T.find? id with
      | none => rfl
      | some r =>
        have hk : r.id = id := (Table.find?_mem hfind).2
        rw [Option.map_some, hk, hzero, mul_zero, shift_zero]
  case refused =>
    intro hrange
    cases hmove : moveUnits cap sign rows n T with
    | ok r => exact absurd (hok.mp ⟨r.1, r.2, hmove⟩) hrange
    | error e => exact ⟨e, rfl⟩

end

/-- Both loops: that of `reserve`, which takes from what is available, and that of
`releaseReservation`, which takes from what is reserved. -/
theorem stock_loops_serve :
    (Servable InventoryRow.available rows n T → LoopServes InventoryRow.available 1 rows n T) ∧
      (Servable InventoryRow.reserved rows n T → LoopServes InventoryRow.reserved (-1) rows n T) := by
  constructor
  · intro h
    have hnonneg : ∀ r ∈ rows, 0 ≤ r.available := fun r hr => (h.nonneg r hr).1
    refine loop_serves (fun r t => ?_) h hnonneg fun r hr => ?_
    · simp only [shift, one_mul]
    · have hle := taken_le (n := n) h.keys hr (hnonneg r hr)
      have hpos := @taken_nonneg _ InventoryRow.available _ _ InventoryRow.id rows n r.id
      have hres := (h.nonneg r hr).2
      simp only [afterLoop, shift, one_mul]
      omega
  · intro h
    have hnonneg : ∀ r ∈ rows, 0 ≤ r.reserved := fun r hr => (h.nonneg r hr).2
    refine loop_serves (fun r t => ?_) h hnonneg fun r hr => ?_
    · simp only [shift]
      omega
    · have hle := taken_le (n := n) h.keys hr (hnonneg r hr)
      have hpos := @taken_nonneg _ InventoryRow.reserved _ _ InventoryRow.id rows n r.id
      have havail := (h.nonneg r hr).1
      simp only [afterLoop, shift]
      omega

/-- Two bins, of which the first holds three units and the second four, two of them reserved. -/
def stockedBins : Table InventoryRow :=
  (Table.empty.insert fun n => { id := n, warehouseId := 0, binId := 0, variantId := 1, available := 3 }).insert
    fun n => { id := n, warehouseId := 0, binId := 1, variantId := 1, available := 2, reserved := 2 }

theorem twoBins_served : LoopServes InventoryRow.available 1 stockedBins.rows 4 stockedBins ∧
    LoopServes InventoryRow.reserved (-1) stockedBins.rows.reverse 2 stockedBins :=
  ⟨stock_loops_serve.1 ⟨by decide, by decide, by decide, by decide, by decide⟩,
    stock_loops_serve.2 ⟨by decide, by decide, by decide, by decide, by decide⟩⟩

/-- A bin whose reserved units fill the column. -/
def fullBin : Table InventoryRow :=
  Table.empty.insert fun n =>
    { id := n, warehouseId := 0, binId := 0, variantId := 1, available := 1, reserved := 2147483647 }

/-- The unit that is available cannot be reserved. -/
theorem fullBin_refused : Servable InventoryRow.available fullBin.rows 1 fullBin ∧
    ¬ ∃ T', moveUnits InventoryRow.available 1 fullBin.rows 1 fullBin = .ok (0, T') := by
  refine ⟨⟨by decide, by decide, by decide, by decide, by decide⟩, ?_⟩
  rintro ⟨T', h⟩
  have herr : (moveUnits InventoryRow.available 1 fullBin.rows 1 fullBin).isOk = false := by decide
  rw [h] at herr
  exact Bool.noConfusion herr

end ElectronicsCart.Inventory
