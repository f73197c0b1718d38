import ElectronicsCart.Core.Environment
import ElectronicsCart.Lib.Doubles
import ElectronicsCart.Lib.Rankings
import Mathlib.Data.List.Dedup
import Mathlib.Data.List.Induction

/-!
# RFM segments

`InsightsService.rfm` of `modules/analytics/services/insights.service.ts`.  Customers are scored by
their places in three sorted lists of recency, number of orders and spending.  Sorting is stable, so
among equal customers the place is that of their first orders in the query, which names no order.
Spending is added up in doubles, which may tie or swap what the amounts themselves tell apart.
-/

namespace ElectronicsCart.Analytics

open Doubles Rankings

/-- What `rfm` reads of an `orders` row. -/
structure RfmOrder where
  customerId : Option String
  createdAt : ℤ
  grandTotal : ℚ
  deleted : Bool := false
deriving DecidableEq, Repr

/-- An entry of `byCustomer`. -/
structure CustomerOrders where
  customerId : String
  last : ℤ
  count : ℕ
  monetary : ℚ
deriving DecidableEq, Repr

structure RfmSegment where
  customerId : String
  recencyDays : ℤ
  frequency : ℕ
  monetary : ℚ
  r : ℕ := 0
  f : ℕ := 0
  m : ℕ := 0
  segment : String := "unscored"
deriving DecidableEq, Repr

def dayMs : ℤ := 24 * 60 * 60 * 1000

/-- The rows that the query delivers of a table that stands in the given order. -/
def findOrders (since : ℤ) (table : List RfmOrder) : List RfmOrder :=
  (table.filter fun o => !o.deleted && o.customerId.isSome && decide (since ≤ o.createdAt)).take 10000

def countOrder (o : RfmOrder) (v : CustomerOrders) : CustomerOrders where
  customerId := v.customerId
  last := if v.last < o.createdAt then o.createdAt else v.last
  count := v.count + 1
  monetary := nearest (v.monetary + nearest o.grandTotal)

/-- One turn of the first loop; the entries stand in the order in which they were set first. -/
def addOrder (entries : List CustomerOrders) (o : RfmOrder) : List CustomerOrders :=
  match truthy o.customerId with
  | none => entries
  | some c =>
    if entries.any fun v => v.customerId == c then
      entries.map fun v => if v.customerId == c then countOrder o v else v
    else entries ++ [countOrder o ⟨c, o.createdAt, 0, 0⟩]

def byCustomer (orders : List RfmOrder) : List CustomerOrders := orders.foldl addOrder []

def unscored (now : ℤ) (v : CustomerOrders) : RfmSegment where
  customerId := v.customerId
  recencyDays := (now - v.last) / dayMs
  frequency := v.count
  monetary := v.monetary

/-- `Math.min(5, Math.floor((i / n) * 5) + 1)`. -/
def quintile (n i : ℕ) : ℕ := min 5 (i * 5 / n + 1)

def scoreQuintile {κ : Type} [LinearOrder κ] (field : RfmSegment → κ)
    (scoreField : ℕ → RfmSegment → RfmSegment) (invert : Bool) (rows : List RfmSegment) :
    List RfmSegment :=
  let sorted := ranking field rows
  let n := if sorted.length = 0 then 1 else sorted.length
  rows.map fun row =>
    let q := quintile n ((sorted.map RfmSegment.customerId).idxOf row.customerId)
    scoreField (if invert then 6 - q else q) row

def rfmLabel (r f m : ℕ) : String :=
  if 4 ≤ r ∧ 4 ≤ f ∧ 4 ≤ m then "champions"
  else if 3 ≤ r ∧ 3 ≤ f then "loyal"
  else if 4 ≤ r ∧ f ≤ 2 then "promising"
  else if r ≤ 2 ∧ 3 ≤ f then "at_risk"
  else if r ≤ 2 ∧ f ≤ 2 then "hibernating"
  else "regular"

def scored (now : ℤ) (orders : List RfmOrder) : List RfmSegment :=
  let rows := (byCustomer orders).map (unscored now)
  let rows := scoreQuintile RfmSegment.recencyDays (fun q row => { row with r := q }) true rows
  let rows := scoreQuintile RfmSegment.frequency (fun q row => { row with f := q }) false rows
  let rows := scoreQuintile RfmSegment.monetary (fun q row => { row with m := q }) false rows
  rows.map fun row => { row with segment := rfmLabel row.r row.f row.m }

/-- `since` and `now` are read from the clock before and after the query. -/
def rfm (limit : ℕ) (since now : ℤ) (table : List RfmOrder) : List RfmSegment :=
  ((scored now (findOrders since table)).insertionSort fun a b => b.monetary ≤ a.monetary).take limit

/-! ### The customers and their values -/

def ordersOf (orders : List RfmOrder) (c : String) : List RfmOrder :=
  orders.filter fun o => o.customerId == some c

def customers (orders : List RfmOrder) : List String :=
  (orders.filterMap fun o => truthy o.customerId).dedup

def lastOf (orders : List RfmOrder) (c : String) : ℤ :=
  ((ordersOf orders c).map RfmOrder.createdAt).max?.getD 0

def recencyOf (now : ℤ) (orders : List RfmOrder) (c : String) : ℤ :=
  (now - lastOf orders c) / dayMs

def frequencyOf (orders : List RfmOrder) (c : String) : ℕ := (ordersOf orders c).length

def monetaryOf (orders : List RfmOrder) (c : String) : ℚ :=
  ((ordersOf orders c).map RfmOrder.grandTotal).sum

/-- The amounts of a customer as they add up in doubles. -/
def spentOf (orders : List RfmOrder) (c : String) : ℚ :=
  (ordersOf orders c).foldl (fun sum o => nearest (sum + nearest o.grandTotal)) 0

/-- Spending in doubles ranks the customers as their spending does. -/
def RanksAlike (orders : List RfmOrder) : Prop :=
  ∀ c ∈ customers orders, ∀ d ∈ customers orders,
    spentOf orders c ≤ spentOf orders d ↔ monetaryOf orders c ≤ monetaryOf orders d

instance (orders : List RfmOrder) : Decidable (RanksAlike orders) :=
  inferInstanceAs (Decidable (∀ c ∈ customers orders, ∀ d ∈ customers orders, (_ ↔ _)))

def profiles (now : ℤ) (orders : List RfmOrder) : List (ℤ × ℕ × ℚ) :=
  (customers orders).map fun c => (recencyOf now orders c, frequencyOf orders c, monetaryOf orders c)

def tally (orders : List RfmOrder) (c : String) : CustomerOrders where
  customerId := c
  last := lastOf orders c
  count := frequencyOf orders c
  monetary := spentOf orders c

variable {orders orders' : List RfmOrder} {o : RfmOrder} {c : String}

theorem truthy_eq_some {text : Option String} : truthy text = some c ↔ text = some c ∧ c ≠ "" := by
  simp [truthy, Option.filter_eq_some_iff]

theorem mem_customers : c ∈ customers orders ↔ c ≠ "" ∧ ordersOf orders c ≠ [] := by
  simp only [customers, List.mem_dedup, List.mem_filterMap, truthy_eq_some, ordersOf, ne_eq,
    List.filter_eq_nil_iff, beq_iff_eq, not_forall, not_not]
  exact ⟨fun ⟨o, ho, hc, hne⟩ => ⟨hne, o, ho, hc⟩, fun ⟨hne, o, ho, hc⟩ => ⟨o, ho, hc, hne⟩⟩

theorem ordersOf_concat (orders : List RfmOrder) (o : RfmOrder) (c : String) :
    ordersOf (orders ++ [o]) c = ordersOf orders c ++ if o.customerId = some c then [o] else [] := by
  simp [ordersOf, List.filter_append, List.filter_singleton]

theorem max?_concat (l : List ℤ) (t : ℤ) :
    (l ++ [t]).max? = some (match l.max? with | none => t | some u => max u t) := by
  cases l with
  | nil => rfl
  | cons a l =>
    rw [List.cons_append, List.max?_cons', List.max?_cons', List.foldl_append]
    rfl

theorem tally_of_ne (h : o.customerId ≠ some c) : tally (orders ++ [o]) c = tally orders c := by
  simp [tally, lastOf, frequencyOf, spentOf, ordersOf_concat, h]

theorem tally_first (h : o.customerId = some c) (hnone : ordersOf orders c = []) :
    tally (orders ++ [o]) c = countOrder o ⟨c, o.createdAt, 0, 0⟩ := by
  simp [tally, lastOf, frequencyOf, spentOf, ordersOf_concat, h, hnone, countOrder]

theorem tally_next (h : o.customerId = some c) (hsome : ordersOf orders c ≠ []) :
    tally (orders ++ [o]) c = countOrder o (tally orders c) := by
  have hmax : ∃ u, ((ordersOf orders c).map RfmOrder.createdAt).max? = some u := by
    cases hl : ordersOf orders c with
    | nil => exact absurd hl hsome
    | cons a l => exact ⟨_, List.max?_cons'⟩
  obtain ⟨u, hu⟩ := hmax
  have hlast : lastOf (orders ++ [o]) c = max u o.createdAt := by
    rw [lastOf, ordersOf_concat, if_pos h, List.map_append, List.map_cons, List.map_nil, max?_concat,
      hu, Option.getD_some]
  have hprevious : lastOf orders c = u := by rw [lastOf, hu, Option.getD_some]
  simp only [tally, countOrder, hprevious, hlast, CustomerOrders.mk.injEq, true_and]
  refine ⟨?_, ?_, ?_⟩
  · rw [max_def]
    split <;> split <;> omega
  · simp [frequencyOf, ordersOf_concat, h]
  · simp [spentOf, ordersOf_concat, h]

theorem mem_customers_concat : c ∈ customers (orders ++ [o]) ↔
    c ∈ customers orders ∨ truthy o.customerId = some c := by
  simp [customers, List.filterMap_append, List.filterMap_cons]
  cases truthy o.customerId <;> simp [eq_comm]

/-- The loop gives each customer one entry, with the values of the customer's orders. -/
structure Tallied (orders : List RfmOrder) (entries : List CustomerOrders) : Prop where
  nodup : (entries.map CustomerOrders.customerId).Nodup
  keys : ∀ c, c ∈ entries.map CustomerOrders.customerId ↔ c ∈ customers orders
  values : ∀ v ∈ entries, v = tally orders v.customerId

theorem Tallied.addOrder {entries : List CustomerOrders} (h : Tallied orders entries)
    (o : RfmOrder) : Tallied (orders ++ [o]) (addOrder entries o) := by
  have hkept : ∀ v ∈ entries, truthy o.customerId ≠ some v.customerId →
      v = tally (orders ++ [o]) v.customerId := by
    intro v hv hne
    have hcustomer := mem_customers.mp ((h.keys _).mp (List.mem_map_of_mem hv))
    rw [tally_of_ne fun ho => hne (truthy_eq_some.mpr ⟨ho, hcustomer.1⟩)]
    exact h.values v hv
  unfold Analytics.addOrder
  cases ho : truthy o.customerId with
  | none =>
    refine ⟨h.nodup, fun c => ?_, fun v hv => hkept v hv (by simp [ho])⟩
    rw [h.keys, mem_customers_concat, ho]
    simp
  | some c =>
    obtain ⟨hoc, hne⟩ := truthy_eq_some.mp ho
    have hkeys : ∀ c', c' ∈ customers (orders ++ [o]) ↔ c' ∈ customers orders ∨ c' = c := by
      intro c'
      rw [mem_customers_concat, ho, Option.some.injEq, eq_comm (a := c)]
    dsimp only
    by_cases hany : entries.any (fun v => v.customerId == c) = true
    · rw [if_pos hany]
      have hmap : (entries.map fun v => if v.customerId == c then countOrder o v else v).map
          CustomerOrders.customerId = entries.map CustomerOrders.customerId := by
        rw [List.map_map]
        refine List.map_congr_left fun v _ => ?_
        simp only [Function.comp_apply]
        split <;> rfl
      have hold : c ∈ customers orders := by
        obtain ⟨v, hv, hvc⟩ := List.any_eq_true.mp hany
        exact (h.keys c).mp (beq_iff_eq.mp hvc ▸ List.mem_map_of_mem hv)
      refine ⟨hmap ▸ h.nodup, fun c' => ?_, fun v hv => ?_⟩
      · rw [hmap, h.keys, hkeys]
        exact ⟨.inl, fun hc => hc.elim id fun he => he ▸ hold⟩
      · obtain ⟨u, hu, rfl⟩ := List.mem_map.mp hv
        by_cases huc : u.customerId = c
        · simp only [huc, beq_self_eq_true, if_true]
          rw [show (countOrder o u).customerId = c from huc, tally_next hoc (mem_customers.mp hold).2,
            ← huc, ← h.values u hu]
        · rw [if_neg (by simpa using huc)]
          exact hkept u hu fun he => huc (Option.some.inj (ho.symm.trans he)).symm
    · rw [if_neg hany]
      have hnew : c ∉ customers orders := by
        intro hc
        obtain ⟨v, hv, hvc⟩ := List.mem_map.mp ((h.keys c).mpr hc)
        exact hany (List.any_eq_true.mpr ⟨v, hv, beq_iff_eq.mpr hvc⟩)
      have hnone : ordersOf orders c = [] := by
        by_contra hsome
        exact hnew (mem_customers.mpr ⟨hne, hsome⟩)
      refine ⟨?_, fun c' => ?_, fun v hv => ?_⟩
      · rw [List.map_append, List.nodup_append]
        refine ⟨h.nodup, by simp, ?_⟩
        intro c' hc' d hd
        obtain rfl : d = c := List.mem_singleton.mp hd
        rintro rfl
        exact hnew ((h.keys _).mp hc')
      · rw [List.map_append, List.mem_append, h.keys, hkeys]
        simp [countOrder]
      · rcases List.mem_append.mp hv with hv | hv
        · refine hkept v hv fun he => hnew ?_
          rw [Option.some.inj (ho.symm.trans he)]
          exact (h.keys _).mp (List.mem_map_of_mem hv)
        · obtain rfl := List.mem_singleton.mp hv
          exact (tally_first hoc hnone).symm

theorem byCustomer_tallied (orders : List RfmOrder) : Tallied orders (byCustomer orders) := by
  induction orders using List.reverseRecOn with
  | nil => exact ⟨List.nodup_nil, fun c => by simp [byCustomer, customers], fun v hv => nomatch hv⟩
  | append_singleton orders o ih =>
    rw [byCustomer, List.foldl_append]
    exact ih.addOrder o

/-! ### The scores -/

def entryOrder (orders : List RfmOrder) : List String :=
  (byCustomer orders).map CustomerOrders.customerId

theorem perm_entryOrder (orders : List RfmOrder) : (entryOrder orders).Perm (customers orders) :=
  have h := byCustomer_tallied orders
  (List.perm_ext_iff_of_nodup h.nodup (List.nodup_dedup _)).mpr h.keys

def scoreOf {κ : Type} [LinearOrder κ] (measure : String → κ) (orders : List RfmOrder) (c : String) :
    ℕ :=
  quintile (entryOrder orders).length (place measure (entryOrder orders) c)

def segmentOf (now : ℤ) (orders : List RfmOrder) (c : String) : RfmSegment :=
  let r := 6 - scoreOf (recencyOf now orders) orders c
  let f := scoreOf (frequencyOf orders) orders c
  let m := scoreOf (spentOf orders) orders c
  { customerId := c, recencyDays := recencyOf now orders c, frequency := frequencyOf orders c,
    monetary := spentOf orders c, r, f, m, segment := rfmLabel r f m }

theorem scoreQuintile_map {κ : Type} [LinearOrder κ] (measure : String → κ)
    {field : RfmSegment → κ} {scoreField : ℕ → RfmSegment → RfmSegment} {invert : Bool}
    {f : String → RfmSegment} {cs : List String} (hid : ∀ c, (f c).customerId = c)
    (hfield : ∀ c, field (f c) = measure c) :
    scoreQuintile field scoreField invert (cs.map f) = cs.map fun c =>
      let q := quintile cs.length (place measure cs c)
      scoreField (if invert then 6 - q else q) (f c) := by
  have hmeasure : field ∘ f = measure := funext hfield
  have hsorted : (ranking field (cs.map f)).map RfmSegment.customerId = ranking measure cs := by
    rw [ranking_map, hmeasure, List.map_map]
    simp [Function.comp_def, hid]
  have hlength : (ranking field (cs.map f)).length = cs.length := by
    rw [length_ranking, List.length_map]
  simp only [scoreQuintile, List.map_map, hsorted, hlength]
  refine List.map_congr_left fun c hc => ?_
  have hn : cs.length ≠ 0 := fun h0 => List.not_mem_nil (List.eq_nil_of_length_eq_zero h0 ▸ hc)
  simp only [Function.comp_apply, if_neg hn, hid, place]

theorem scored_eq (now : ℤ) (orders : List RfmOrder) :
    scored now orders = (entryOrder orders).map (segmentOf now orders) := by
  have hrows : (byCustomer orders).map (unscored now) =
      (entryOrder orders).map fun c => unscored now (tally orders c) := by
    rw [entryOrder, List.map_map]
    exact List.map_congr_left fun v hv =>
      congrArg (unscored now) ((byCustomer_tallied orders).values v hv)
  simp only [scored, hrows]
  rw [scoreQuintile_map (recencyOf now orders) (fun _ => rfl) fun _ => rfl,
    scoreQuintile_map (frequencyOf orders) (fun _ => rfl) fun _ => rfl,
    scoreQuintile_map (spentOf orders) (fun _ => rfl) fun _ => rfl, List.map_map]
  rfl

theorem quintile_mono (n : ℕ) : Monotone (quintile n) := by
  intro i j hij
  have hdiv : i * 5 / n ≤ j * 5 / n := Nat.div_le_div_right (Nat.mul_le_mul_right 5 hij)
  simp only [quintile]
  omega

theorem quintile_range (n i : ℕ) : 1 ≤ quintile n i ∧ quintile n i ≤ 5 := by
  unfold quintile
  generalize i * 5 / n = k
  omega

variable {since now : ℤ} {table table' : List RfmOrder} {limit : ℕ} {x : RfmSegment}

theorem mem_rfm (h : x ∈ rfm limit since now table) :
    ∃ c ∈ customers (findOrders since table), x = segmentOf now (findOrders since table) c := by
  have hx := (List.mem_insertionSort _).mp (List.mem_of_mem_take h)
  rw [scored_eq] at hx
  obtain ⟨c, hc, rfl⟩ := List.mem_map.mp hx
  exact ⟨c, (perm_entryOrder _).mem_iff.mp hc, rfl⟩

theorem segment_mem_rfm (hc : c ∈ customers (findOrders since table))
    (hlimit : (customers (findOrders since table)).length ≤ limit) :
    segmentOf now (findOrders since table) c ∈ rfm limit since now table := by
  have hperm := perm_entryOrder (findOrders since table)
  rw [rfm, List.take_of_length_le, List.mem_insertionSort, scored_eq]
  · exact List.mem_map_of_mem (hperm.mem_iff.mpr hc)
  · rw [List.length_insertionSort, scored_eq, List.length_map, hperm.length_eq]
    exact hlimit

/-- What is expected of the scores that `rfm` gives to the customers of the delivered orders. -/
structure FairScores (since now : ℤ) (table : List RfmOrder) : Prop where
  complete : ∀ limit, (customers (findOrders since table)).length ≤ limit →
    ∀ c ∈ customers (findOrders since table), ∃ x ∈ rfm limit since now table, x.customerId = c
  values : ∀ limit, ∀ x ∈ rfm limit since now table,
    x.recencyDays = recencyOf now (findOrders since table) x.customerId ∧
      x.frequency = frequencyOf (findOrders since table) x.customerId ∧
      x.monetary = spentOf (findOrders since table) x.customerId
  range : ∀ limit, ∀ x ∈ rfm limit since now table,
    (1 ≤ x.r ∧ x.r ≤ 5) ∧ (1 ≤ x.f ∧ x.f ≤ 5) ∧ (1 ≤ x.m ∧ x.m ≤ 5)
  /-- Whatever orders give the same values, in whatever order they come. -/
  ofValues : ∀ limit limit' table', RanksAlike (findOrders since table') →
    (profiles now (findOrders since table')).Perm (profiles now (findOrders since table)) →
      ∀ x ∈ rfm limit since now table, ∀ y ∈ rfm limit' since now table',
        (x.recencyDays = y.recencyDays → x.r = y.r) ∧ (x.frequency = y.frequency → x.f = y.f) ∧
          (monetaryOf (findOrders since table) x.customerId =
            monetaryOf (findOrders since table') y.customerId → x.m = y.m)
  monotone : ∀ limit, ∀ x ∈ rfm limit since now table, ∀ y ∈ rfm limit since now table,
    (lastOf (findOrders since table) y.customerId < lastOf (findOrders since table) x.customerId →
      y.r ≤ x.r) ∧ (y.frequency < x.frequency → y.f ≤ x.f) ∧
      (monetaryOf (findOrders since table) y.customerId <
        monetaryOf (findOrders since table) x.customerId → y.m ≤ x.m)

/-- Customers with one value of the measure lie in one fifth of the customers. -/
def InOneFifth {κ : Type} [LinearOrder κ] (measure : String → κ) (cs : List String) : Prop :=
  Unsplit measure (quintile cs.length) cs

instance {κ : Type} [LinearOrder κ] (measure : String → κ) (cs : List String) :
    Decidable (InOneFifth measure cs) :=
  inferInstanceAs (Decidable (∀ c ∈ cs, _ = _))

theorem inOneFifth_entryOrder {κ : Type} [LinearOrder κ] {measure : String → κ} :
    InOneFifth measure (customers orders) ↔
      Unsplit measure (quintile (entryOrder orders).length) (entryOrder orders) := by
  have hperm := perm_entryOrder orders
  rw [InOneFifth, hperm.length_eq, unsplit_perm hperm]

theorem inOneFifth_iff {κ : Type} [LinearOrder κ] {measure : String → κ} :
    InOneFifth measure (customers orders) ↔ ∀ c ∈ customers orders, ∀ d ∈ customers orders,
      measure c = measure d → scoreOf measure orders c = scoreOf measure orders d := by
  have hperm := perm_entryOrder orders
  have hnd : (entryOrder orders).Nodup := (byCustomer_tallied orders).nodup
  rw [inOneFifth_entryOrder, unsplit_iff (quintile_mono _) hnd]
  simp only [← hperm.mem_iff, scoreOf]

theorem score_of_values {κ : Type} [LinearOrder κ] {measure measure' : String → κ} {c d : String}
    (h : InOneFifth measure (customers orders))
    (hperm : ((customers orders').map measure').Perm ((customers orders).map measure))
    (hc : c ∈ customers orders) (hd : d ∈ customers orders') (hcd : measure c = measure' d) :
    scoreOf measure orders c = scoreOf measure' orders' d := by
  have he := perm_entryOrder orders
  have he' := perm_entryOrder orders'
  have hlength : (entryOrder orders').length = (entryOrder orders).length := by
    simpa [he.length_eq, he'.length_eq] using hperm.length_eq
  have hkeys := ((he'.map measure').trans hperm).trans (he.map measure).symm
  rw [scoreOf, scoreOf, hlength]
  exact score_of_keys (quintile_mono _) (inOneFifth_entryOrder.mp h) hkeys (he.mem_iff.mpr hc)
    (he'.mem_iff.mpr hd) hcd

theorem score_le {κ : Type} [LinearOrder κ] {measure : String → κ} {c d : String}
    (hc : c ∈ customers orders) (hd : d ∈ customers orders) (h : measure c < measure d) :
    scoreOf measure orders c ≤ scoreOf measure orders d := by
  have he := perm_entryOrder orders
  exact score_place_le (quintile_mono _) (he.mem_iff.mpr hc) (he.mem_iff.mpr hd) h

theorem recencyOf_le {c d : String} (h : lastOf orders d < lastOf orders c) :
    recencyOf now orders c ≤ recencyOf now orders d :=
  Int.ediv_le_ediv (by decide) (by omega)

theorem RanksAlike.score_eq (h : RanksAlike orders) (c : String) :
    scoreOf (spentOf orders) orders c = scoreOf (monetaryOf orders) orders c := by
  have hmem : ∀ {a}, a ∈ entryOrder orders → a ∈ customers orders :=
    (perm_entryOrder orders).mem_iff.mp
  rw [scoreOf, scoreOf, place, place, ranking_congr fun a ha b hb => h a (hmem ha) b (hmem hb)]

/-- Every amount of the customer is a double, and so is what they add up to after each order. -/
def AddsUp (orders : List RfmOrder) (c : String) : Prop :=
  (∀ o ∈ ordersOf orders c, IsDouble o.grandTotal) ∧
    ∀ l, l <+: ordersOf orders c → IsDouble (l.map RfmOrder.grandTotal).sum

theorem AddsUp.spentOf_eq (h : AddsUp orders c) : spentOf orders c = monetaryOf orders c := by
  obtain ⟨hamounts, hsums⟩ := h
  unfold spentOf monetaryOf
  generalize ordersOf orders c = l at hamounts hsums
  induction l using List.reverseRecOn with
  | nil => rfl
  | append_singleton l o ih =>
    have hsum : IsDouble ((l.map RfmOrder.grandTotal).sum + o.grandTotal) := by
      simpa using hsums _ (List.prefix_refl _)
    rw [List.foldl_append, ih (fun o ho => hamounts o (List.mem_append_left _ ho))
      fun k hk => hsums k (hk.trans (List.prefix_append _ _))]
    simp [(hamounts o (by simp)).nearest_eq, hsum.nearest_eq]

/-- Amounts that add up exactly rank alike. -/
theorem ranksAlike_of_addsUp (h : ∀ c ∈ customers orders, AddsUp orders c) : RanksAlike orders := by
  intro c hc d hd
  rw [(h c hc).spentOf_eq, (h d hd).spentOf_eq]

theorem scoreOf_range {κ : Type} [LinearOrder κ] (measure : String → κ) (orders : List RfmOrder)
    (c : String) : 1 ≤ scoreOf measure orders c ∧ scoreOf measure orders c ≤ 5 :=
  quintile_range _ _

/-- Scores of customers who share their values, in tables with the same values. -/
theorem segmentOf_of_values {c d : String} (halike : RanksAlike orders) (halike' : RanksAlike orders')
    (hrecency : InOneFifth (recencyOf now orders) (customers orders))
    (hfrequency : InOneFifth (frequencyOf orders) (customers orders))
    (hmonetary : InOneFifth (monetaryOf orders) (customers orders))
    (hperm : (profiles now orders').Perm (profiles now orders))
    (hc : c ∈ customers orders) (hd : d ∈ customers orders') :
    (recencyOf now orders c = recencyOf now orders' d →
      (segmentOf now orders c).r = (segmentOf now orders' d).r) ∧
    (frequencyOf orders c = frequencyOf orders' d →
      (segmentOf now orders c).f = (segmentOf now orders' d).f) ∧
    (monetaryOf orders c = monetaryOf orders' d →
      (segmentOf now orders c).m = (segmentOf now orders' d).m) := by
  refine ⟨fun hcd => ?_, fun hcd => ?_, fun hcd => ?_⟩
  · have hkeys := hperm.map fun p => p.1
    simp only [profiles, List.map_map] at hkeys
    exact congrArg (6 - ·) (score_of_values hrecency hkeys hc hd hcd)
  · have hkeys := hperm.map fun p => p.2.1
    simp only [profiles, List.map_map] at hkeys
    exact score_of_values hfrequency hkeys hc hd hcd
  · have hkeys := hperm.map fun p => p.2.2
    simp only [profiles, List.map_map] at hkeys
    exact (halike.score_eq c).trans
      ((score_of_values hmonetary hkeys hc hd hcd).trans (halike'.score_eq d).symm)

theorem segmentOf_monotone {c d : String} (halike : RanksAlike orders)
    (hrecency : InOneFifth (recencyOf now orders) (customers orders))
    (hc : c ∈ customers orders) (hd : d ∈ customers orders) :
    (lastOf orders d < lastOf orders c → (segmentOf now orders d).r ≤ (segmentOf now orders c).r) ∧
    (frequencyOf orders d < frequencyOf orders c →
      (segmentOf now orders d).f ≤ (segmentOf now orders c).f) ∧
    (monetaryOf orders d < monetaryOf orders c →
      (segmentOf now orders d).m ≤ (segmentOf now orders c).m) := by
  refine ⟨fun hlast => ?_, fun hless => score_le hd hc hless, fun hless => ?_⟩
  · have hdays : recencyOf now orders c ≤ recencyOf now orders d := recencyOf_le hlast
    rcases hdays.lt_or_eq with hlt | heq
    · have hscore := score_le hc hd hlt
      simp only [segmentOf]
      omega
    · have hscore := inOneFifth_iff.mp hrecency c hc d hd heq
      simp only [segmentOf, hscore, le_refl]
  · have hscore := score_le hd hc hless
    rw [← halike.score_eq, ← halike.score_eq] at hscore
    exact hscore

/-- The scores are fair exactly when, for each of the three measures, the customers who share a value
lie in one fifth of the ranking, as far as doubles rank the spending. -/
theorem rfm_fair_iff (since now : ℤ) (table : List RfmOrder)
    (halike : RanksAlike (findOrders since table)) :
    FairScores since now table ↔
      InOneFifth (recencyOf now (findOrders since table)) (customers (findOrders since table)) ∧
        InOneFifth (frequencyOf (findOrders since table)) (customers (findOrders since table)) ∧
          InOneFifth (monetaryOf (findOrders since table)) (customers (findOrders since table)) := by
  constructor
  · intro h
    have hequal : ∀ c ∈ customers (findOrders since table), ∀ d ∈ customers (findOrders since table), _ :=
      fun c hc d hd => h.ofValues _ _ table halike (List.Perm.refl _) _ (segment_mem_rfm hc le_rfl) _
        (segment_mem_rfm hd le_rfl)
    refine ⟨inOneFifth_iff.mpr fun c hc d hd hcd => ?_, inOneFifth_iff.mpr fun c hc d hd hcd => ?_,
      inOneFifth_iff.mpr fun c hc d hd hcd => ?_⟩
    · have hr := (hequal c hc d hd).1 hcd
      have hc5 := scoreOf_range (recencyOf now (findOrders since table)) (findOrders since table) c
      have hd5 := scoreOf_range (recencyOf now (findOrders since table)) (findOrders since table) d
      simp only [segmentOf] at hr
      omega
    · exact (hequal c hc d hd).2.1 hcd
    · rw [← halike.score_eq c, ← halike.score_eq d]
      exact (hequal c hc d hd).2.2 hcd
  · rintro ⟨hrecency, hfrequency, hmonetary⟩
    refine ⟨?_, ?_, ?_, ?_, ?_⟩
    · intro limit hlimit c hc
      exact ⟨_, segment_mem_rfm hc hlimit, rfl⟩
    · intro limit x hx
      obtain ⟨c, -, rfl⟩ := mem_rfm hx
      exact ⟨rfl, rfl, rfl⟩
    · intro limit x hx
      obtain ⟨c, -, rfl⟩ := mem_rfm hx
      have hr := scoreOf_range (recencyOf now (findOrders since table)) (findOrders since table) c
      refine ⟨?_, scoreOf_range _ _ c, scoreOf_range _ _ c⟩
      simp only [segmentOf]
      omega
    · intro limit limit' table' halike' hperm x hx y hy
      obtain ⟨c, hc, rfl⟩ := mem_rfm hx
      obtain ⟨d, hd, rfl⟩ := mem_rfm hy
      exact segmentOf_of_values halike halike' hrecency hfrequency hmonetary hperm hc hd
    · intro limit x hx y hy
      obtain ⟨c, hc, rfl⟩ := mem_rfm hx
      obtain ⟨d, hd, rfl⟩ := mem_rfm hy
      exact segmentOf_monotone halike hrecency hc hd

/-- `a` has two orders, the other customers have one each. -/
def twoOrders (first second single : ℚ) : List RfmOrder :=
  [{ customerId := some "a", createdAt := 0, grandTotal := first },
    { customerId := some "a", createdAt := 0, grandTotal := second },
    { customerId := some "b", createdAt := dayMs, grandTotal := single }]

/-- With other dates, numbers of orders and amounts, the scores are fair. -/
theorem rfm_fair_two : FairScores 0 dayMs (twoOrders (110 / 100) (220 / 100) 5) := by
  refine (rfm_fair_iff _ _ _ ?_).mpr ⟨?_, ?_, ?_⟩
  · decide +kernel
  · decide +kernel
  · decide +kernel
  · decide +kernel

/-- In doubles, 1.10 and 2.20 are more than 3.30. -/
example : ¬ RanksAlike (twoOrders (110 / 100) (220 / 100) (330 / 100)) := by decide +kernel

/-- Two customers who ordered for the same amount at the same time. -/
def twoAlike : List RfmOrder :=
  [{ customerId := some "a", createdAt := 0, grandTotal := 100 },
    { customerId := some "b", createdAt := 0, grandTotal := 100 }]

/-- Whoever comes first in the query is promising, and the other loyal. -/
theorem alike_scored_apart : ¬ ∀ (since now : ℤ) (table : List RfmOrder), FairScores since now table := by
  intro h
  have hfirst : (⟨"a", 0, 1, 100, 5, 1, 1, "promising"⟩ : RfmSegment) ∈ rfm 2 0 0 twoAlike := by
    decide +kernel
  have hsecond : (⟨"b", 0, 1, 100, 3, 3, 3, "loyal"⟩ : RfmSegment) ∈ rfm 2 0 0 twoAlike := by
    decide +kernel
  have halike : RanksAlike (findOrders 0 twoAlike) := by decide +kernel
  have hequal := (h 0 0 twoAlike).ofValues 2 2 twoAlike halike (List.Perm.refl _) _ hfirst _ hsecond
  exact absurd (hequal.2.1 rfl) (by decide)

end ElectronicsCart.Analytics
