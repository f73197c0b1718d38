import ElectronicsCart.Orders.ReturnRuns
import Mathlib.Tactic.Linarith

/-!
# Sequences of fulfillments

`createFulfillment` copies the whole quantity of the items it is asked for, and is admitted again
while the order is processed.  So an item is fulfilled once only as long as no other fulfillment
that is not cancelled has it, and a cancelled fulfillment comes back only where that is so.
-/

namespace ElectronicsCart.Orders

open Interleaving Relational

inductive FulfillmentCall where
  | create (token orderId : ℕ) (dto : CreateFulfillmentDto)
  | update (id : ℕ) (status : FulfillmentStatus)
deriving DecidableEq, Repr

def FulfillmentCall.prog : FulfillmentCall → ShopProg Unit
  | .create token orderId dto => do
    let _ ← createFulfillment token orderId dto
    pure ()
  | .update id status => updateFulfillmentStatus id status

def live (s : Shop) (id : ℕ) : Bool := (s.fulfillments.find? id).any fun f => f.status != .cancelled

def fulfills (s : Shop) (itemId : ℕ) (r : FulfillmentItem) : Bool :=
  r.orderItemId == itemId && live s r.fulfillmentOrderId

/-- The quantity of an order item in the fulfillments that are not cancelled. -/
def fulfilled (itemId : ℕ) (s : Shop) : ℤ :=
  s.fulfillmentItems.total (fulfills s itemId) FulfillmentItem.quantity

def times (itemId : ℕ) (s : Shop) : ℕ := s.fulfillmentItems.rows.countP (fulfills s itemId)

def FulfillmentsBounded (s : Shop) : Prop := ∀ i ∈ s.orderItems.rows, fulfilled i.id s ≤ i.quantity

instance (s : Shop) : Decidable (FulfillmentsBounded s) :=
  inferInstanceAs (Decidable (∀ i ∈ s.orderItems.rows, _))

/-- What a fulfillment is made from is not in another one. -/
def unfulfilled (l : ShopCall) (s : Shop) : Bool :=
  match l with
  | .order (.createFulfillment _ itemIds) => itemIds.all fun id => times id s == 0
  | .order (.updateFulfillment id status) =>
    status == .cancelled || live s id ||
      s.fulfillmentItems.rows.all fun r => r.fulfillmentOrderId != id || times r.orderItemId s == 0
  | _ => true

def Unfulfilled (l : ShopCall) (_ : ShopInput) (s : Shop) : Prop := unfulfilled l s = true

instance (l : ShopCall) (i : ShopInput) (s : Shop) : Decidable (Unfulfilled l i s) :=
  inferInstanceAs (Decidable (_ = _))

/-- The lines are copies of order items, and no fulfillment has one twice. -/
structure Copied (s : Shop) : Prop where
  known : ∀ r ∈ s.fulfillmentItems.rows, (s.fulfillments.find? r.fulfillmentOrderId).isSome
  copy : ∀ r ∈ s.fulfillmentItems.rows, ∃ i ∈ s.orderItems.rows,
    i.id = r.orderItemId ∧ i.quantity = r.quantity
  positive : ∀ i ∈ s.orderItems.rows, 0 < i.quantity
  once : ∀ id itemId, s.fulfillmentItems.rows.countP
    (fun r => r.orderItemId == itemId && r.fulfillmentOrderId == id) ≤ 1

/-! ### Counting -/

theorem sum_of_countP {α : Type} (rows : List α) (p : α → Bool) (q : α → ℤ) (c : ℤ)
    (h : ∀ r ∈ rows, p r = true → q r = c) :
    (rows.map fun r => if p r = true then q r else 0).sum = rows.countP p * c := by
  induction rows with
  | nil => simp
  | cons r rows ih =>
    rw [List.forall_mem_cons] at h
    rw [List.map_cons, List.sum_cons, ih h.2, List.countP_cons]
    split
    next hp =>
      rw [h.1 hp, Nat.cast_succ, add_mul, one_mul, add_comm]
    next => simp

section Counting

variable {s : Shop}

theorem fulfilled_eq (hs : Copied s) {i : OrderItem} (hi : i ∈ s.orderItems.rows) :
    fulfilled i.id s = times i.id s * i.quantity := by
  refine sum_of_countP _ _ _ _ fun r hr hp => ?_
  obtain ⟨j, hj, hid, hquantity⟩ := hs.copy r hr
  have hitem : r.orderItemId = i.id := by
    simp only [fulfills, Bool.and_eq_true, beq_iff_eq] at hp
    exact hp.1
  rw [← hquantity, Table.eq_of_key_eq hj hi (hid.trans hitem)]

theorem bounded_iff (hs : Copied s) :
    FulfillmentsBounded s ↔ ∀ i ∈ s.orderItems.rows, times i.id s ≤ 1 := by
  refine forall₂_congr fun i hi => ?_
  have hpos := hs.positive i hi
  rw [fulfilled_eq hs hi]
  constructor
  · intro h
    by_contra hmore
    have htwo : (2 : ℤ) ≤ times i.id s := by exact_mod_cast not_le.mp hmore
    nlinarith
  · intro h
    have hone : (times i.id s : ℤ) ≤ 1 := by exact_mod_cast h
    nlinarith

end Counting

/-! ### What a call writes -/

structure SameFulfillments (s t : Shop) : Prop where
  orderItems : t.orderItems = s.orderItems
  fulfillments : t.fulfillments = s.fulfillments
  fulfillmentItems : t.fulfillmentItems = s.fulfillmentItems

/-- A new fulfillment with one line for each of some items. -/
structure Filled (items : List OrderItem) (s t : Shop) : Prop where
  orderItems : t.orderItems = s.orderItems
  live : ∀ id, live t id = (live s id || id == s.fulfillments.next)
  found : ∀ id, (s.fulfillments.find? id).isSome → (t.fulfillments.find? id).isSome
  new : (t.fulfillments.find? s.fulfillments.next).isSome
  lines : ∃ lines : List FulfillmentItem,
    t.fulfillmentItems.rows = s.fulfillmentItems.rows ++ lines ∧
      lines.map (fun r => (r.fulfillmentOrderId, r.orderItemId, r.quantity)) =
        items.map fun i => (s.fulfillments.next, i.id, i.quantity)

section Writes

variable {s t : Shop}

theorem SameFulfillments.times (h : SameFulfillments s t) (itemId : ℕ) :
    times itemId t = times itemId s := by
  have hsame : fulfills t itemId = fulfills s itemId := by
    funext r
    simp only [fulfills, Orders.live, h.fulfillments]
  rw [Orders.times, hsame, h.fulfillmentItems]
  rfl

theorem Copied.of_same (hs : Copied s) (horder : t.orderItems = s.orderItems)
    (hitems : t.fulfillmentItems = s.fulfillmentItems)
    (hfound : ∀ id, (t.fulfillments.find? id).isSome = (s.fulfillments.find? id).isSome) :
    Copied t := by
  refine ⟨?_, ?_, ?_, ?_⟩
  · simp only [hitems, hfound]
    exact hs.known
  · rw [horder, hitems]
    exact hs.copy
  · rw [horder]
    exact hs.positive
  · rw [hitems]
    exact hs.once

theorem SameFulfillments.copied (h : SameFulfillments s t) (hs : Copied s) : Copied t :=
  hs.of_same h.orderItems h.fulfillmentItems fun id => by rw [h.fulfillments]

theorem insertFulfillmentItems_lines {id : ℕ} {items : List OrderItem}
    (h : insertFulfillmentItems id items s = .ok t) :
    t.orderItems = s.orderItems ∧ t.fulfillments = s.fulfillments ∧
      ∃ lines : List FulfillmentItem, t.fulfillmentItems.rows = s.fulfillmentItems.rows ++ lines ∧
        lines.map (fun r => (r.fulfillmentOrderId, r.orderItemId, r.quantity)) =
          items.map fun i => (id, i.id, i.quantity) := by
  induction items generalizing s with
  | nil =>
    cases h
    exact ⟨rfl, rfl, [], (List.append_nil _).symm, rfl⟩
  | cons i items ih =>
    simp only [insertFulfillmentItems, bind_eq_ok, check_eq_ok] at h
    obtain ⟨-, -, h⟩ := h
    obtain ⟨hitems, hful, lines, hrows, hlines⟩ := ih h
    refine ⟨hitems, hful, ⟨s.fulfillmentItems.next, id, i.id, i.quantity⟩ :: lines, ?_, ?_⟩
    · rw [hrows, Table.insert, List.append_assoc]
      rfl
    · rw [List.map_cons, hlines, List.map_cons]

theorem insertFulfillment_filled {orderId warehouseId now : ℕ} {items : List OrderItem}
    {fo : FulfillmentOrder} (h : insertFulfillment orderId warehouseId items now s = .ok (fo, t)) :
    Filled items s t := by
  simp only [insertFulfillment, bind_eq_ok, check_eq_ok, pure_eq_ok, Prod.mk.injEq] at h
  obtain ⟨-, -, -, -, -, -, -, -, u, hu, -, rfl⟩ := h
  obtain ⟨hitems, hful, hlines⟩ := insertFulfillmentItems_lines hu
  refine ⟨hitems, fun id => ?_, fun id hid => ?_, ?_, hlines⟩
  · simp only [Orders.live, hful, Table.find?_insert]
    split
    next hid => simp [hid]
    next hid => simp [hid]
  · simp only [hful, Table.find?_insert]
    split
    · rfl
    · exact hid
  · simp only [hful, Table.find?_insert_next, Option.isSome_some]

theorem Filled.countP {items : List OrderItem} (h : Filled items s t) (itemId : ℕ)
    {p : FulfillmentItem → Bool} {q : ℕ → Bool}
    (hp : ∀ r, p r = (r.orderItemId == itemId && q r.fulfillmentOrderId)) :
    t.fulfillmentItems.rows.countP p = s.fulfillmentItems.rows.countP p +
      if q s.fulfillments.next then items.countP fun i => i.id == itemId else 0 := by
  obtain ⟨lines, hrows, hlines⟩ := h.lines
  rw [hrows, List.countP_append]
  congr 1
  have hcount : lines.countP p = (lines.map fun r =>
      (r.fulfillmentOrderId, r.orderItemId, r.quantity)).countP fun a => a.2.1 == itemId && q a.1 := by
    rw [List.countP_map]
    exact List.countP_congr fun r _ => by rw [hp]; rfl
  rw [hcount, hlines, List.countP_map]
  split
  next hq => exact List.countP_congr fun i _ => by simp [hq]
  next hq => simp [hq]

theorem Copied.ne_next (hs : Copied s) {r : FulfillmentItem} (hr : r ∈ s.fulfillmentItems.rows) :
    r.fulfillmentOrderId ≠ s.fulfillments.next := by
  obtain ⟨f, hf⟩ := Option.isSome_iff_exists.mp (hs.known r hr)
  obtain ⟨hmem, hkey⟩ := Table.find?_mem hf
  have hlt := s.fulfillments.fresh f hmem
  omega

theorem Filled.times {items : List OrderItem} (h : Filled items s t) (hs : Copied s) (itemId : ℕ) :
    times itemId t = times itemId s + items.countP fun i => i.id == itemId := by
  have hcount := h.countP itemId (p := fulfills t itemId) (q := Orders.live t) fun _ => rfl
  have hnew : Orders.live t s.fulfillments.next = true := by simp [h.live]
  have hold : s.fulfillmentItems.rows.countP (fulfills t itemId) =
      s.fulfillmentItems.rows.countP (fulfills s itemId) := by
    refine List.countP_congr fun r hr => ?_
    simp [fulfills, h.live, hs.ne_next hr]
  rw [Orders.times, hcount, hnew, if_pos rfl, hold]
  rfl

theorem Filled.copied {items : List OrderItem} (h : Filled items s t) (hs : Copied s)
    (hitems : ∀ i ∈ items, i ∈ s.orderItems.rows) (hnodup : (items.map OrderItem.id).Nodup) :
    Copied t := by
  obtain ⟨lines, hrows, hlines⟩ := h.lines
  have hline : ∀ r ∈ lines, ∃ i ∈ items,
      (s.fulfillments.next, i.id, i.quantity) = (r.fulfillmentOrderId, r.orderItemId, r.quantity) := by
    intro r hr
    have hmem := List.mem_map_of_mem (f := fun r : FulfillmentItem =>
      (r.fulfillmentOrderId, r.orderItemId, r.quantity)) hr
    rw [hlines] at hmem
    exact List.mem_map.mp hmem
  constructor
  · intro r hr
    rw [hrows, List.mem_append] at hr
    rcases hr with hr | hr
    · exact h.found _ (hs.known r hr)
    · obtain ⟨i, -, heq⟩ := hline r hr
      rw [← (Prod.mk.inj heq).1]
      exact h.new
  · intro r hr
    rw [h.orderItems]
    rw [hrows, List.mem_append] at hr
    rcases hr with hr | hr
    · exact hs.copy r hr
    · obtain ⟨i, hi, heq⟩ := hline r hr
      simp only [Prod.mk.injEq] at heq
      exact ⟨i, hitems i hi, heq.2.1, heq.2.2⟩
  · rw [h.orderItems]
    exact hs.positive
  · intro id itemId
    have hcount := h.countP itemId (p := fun r => r.orderItemId == itemId && r.fulfillmentOrderId == id)
      (q := fun f => f == id) fun _ => rfl
    rw [hcount]
    split
    next hid =>
      obtain rfl := beq_iff_eq.mp hid
      have hnone : s.fulfillmentItems.rows.countP (fun r => r.orderItemId == itemId &&
          r.fulfillmentOrderId == s.fulfillments.next) = 0 := by
        refine List.countP_eq_zero.mpr fun r hr => ?_
        simp [hs.ne_next hr]
      have hone : items.countP (fun i => i.id == itemId) = (items.map OrderItem.id).count itemId := by
        rw [List.count, List.countP_map]
        rfl
      rw [hnone, Nat.zero_add, hone]
      exact List.nodup_iff_count_le_one.mp hnodup itemId
    next => exact hs.once id itemId

theorem Filled.bounded_iff {items : List OrderItem} (h : Filled items s t) (hs : Copied s)
    (hb : FulfillmentsBounded s) (hitems : ∀ i ∈ items, i ∈ s.orderItems.rows)
    (hnodup : (items.map OrderItem.id).Nodup) :
    FulfillmentsBounded t ↔ ∀ i ∈ items, Orders.times i.id s = 0 := by
  rw [Orders.bounded_iff (h.copied hs hitems hnodup), h.orderItems]
  rw [Orders.bounded_iff hs] at hb
  constructor
  · intro ht i hi
    have hle := ht i (hitems i hi)
    have hpos : 0 < items.countP fun j => j.id == i.id :=
      List.countP_pos_iff.mpr ⟨i, hi, beq_self_eq_true _⟩
    rw [h.times hs] at hle
    omega
  · intro hnone i hi
    rw [h.times hs]
    by_cases hsel : ∃ j ∈ items, j.id = i.id
    · obtain ⟨j, hj, hid⟩ := hsel
      have hzero := hnone j hj
      have hcount : items.countP (fun j => j.id == i.id) = (items.map OrderItem.id).count i.id := by
        rw [List.count, List.countP_map]
        rfl
      have hone := List.nodup_iff_count_le_one.mp hnodup i.id
      rw [hid] at hzero
      omega
    · have hzero : items.countP (fun j => j.id == i.id) = 0 := by
        refine List.countP_eq_zero.mpr fun j hj => ?_
        simpa using fun hid => hsel ⟨j, hj, hid⟩
      have hle := hb i hi
      omega

/-! ### Status changes -/

structure Relabelled (id : ℕ) (status : FulfillmentStatus) (s t : Shop) : Prop where
  orderItems : t.orderItems = s.orderItems
  fulfillmentItems : t.fulfillmentItems = s.fulfillmentItems
  found : ∀ f, (t.fulfillments.find? f).isSome = (s.fulfillments.find? f).isSome
  live : ∀ f, Orders.live t f = if f = id then status != .cancelled else Orders.live s f

theorem updateFulfillment_relabelled {id now : ℕ} {status : FulfillmentStatus} {u : Unit}
    (h : updateFulfillment id status now s = .ok (u, t)) : Relabelled id status s t := by
  simp only [updateFulfillment, bind_eq_ok, existing_eq_ok, pure_eq_ok, Prod.mk.injEq] at h
  obtain ⟨f, hf, -, rfl⟩ := h
  refine ⟨rfl, rfl, fun g => ?_, fun g => ?_⟩
  · simp only [Table.find?_update (key_setFulfillmentStatus status now), Option.isSome_map]
  · simp only [Orders.live]
    split
    next hg =>
      rw [hg, Table.find?_update_self _ hf]
      rfl
    next hg => rw [Table.find?_update_ne _ hg]

theorem Relabelled.copied {id : ℕ} {status : FulfillmentStatus} (h : Relabelled id status s t)
    (hs : Copied s) : Copied t :=
  hs.of_same h.orderItems h.fulfillmentItems h.found

theorem Relabelled.bounded {id : ℕ} {status : FulfillmentStatus} (h : Relabelled id status s t)
    (hs : Copied s) (hb : FulfillmentsBounded s) {i : ShopInput}
    (hok : Unfulfilled (.order (.updateFulfillment id status)) i s) : FulfillmentsBounded t := by
  rw [bounded_iff (h.copied hs), h.orderItems]
  rw [bounded_iff hs] at hb
  have hmono : ∀ itemId, (∀ r ∈ s.fulfillmentItems.rows, fulfills t itemId r = true →
      fulfills s itemId r = true) → times itemId t ≤ times itemId s := by
    intro itemId hall
    rw [times, h.fulfillmentItems]
    exact List.countP_mono_left hall
  simp only [Unfulfilled, unfulfilled, Bool.or_eq_true, beq_iff_eq, List.all_eq_true, bne_iff_ne]
    at hok
  intro j hj
  rcases hok with (rfl | hlive) | hnone
  · refine (hmono j.id fun r _ hr => ?_).trans (hb j hj)
    simp only [fulfills, h.live, Bool.and_eq_true] at hr ⊢
    split at hr
    · simp at hr
    · exact hr
  · refine (hmono j.id fun r _ hr => ?_).trans (hb j hj)
    simp only [fulfills, h.live, Bool.and_eq_true] at hr ⊢
    split at hr
    next hid => exact ⟨hr.1, hid ▸ hlive⟩
    next => exact hr
  · by_cases hhas : ∃ r ∈ s.fulfillmentItems.rows, r.orderItemId = j.id ∧ r.fulfillmentOrderId = id
    · obtain ⟨r, hr, hitem, hid⟩ := hhas
      have hzero : times j.id s = 0 := hitem ▸ (hnone r hr).resolve_left fun hne => hne hid
      -- only the lines of this fulfillment are left
      have honly : times j.id t ≤ s.fulfillmentItems.rows.countP
          fun r => r.orderItemId == j.id && r.fulfillmentOrderId == id := by
        rw [times, h.fulfillmentItems]
        refine List.countP_mono_left fun r' hr' hf => ?_
        have hno := List.countP_eq_zero.mp hzero r' hr'
        simp only [fulfills, h.live, Bool.and_eq_true, beq_iff_eq] at hf hno ⊢
        refine ⟨hf.1, ?_⟩
        by_contra hne
        rw [if_neg hne] at hf
        exact hno hf
      exact honly.trans (hs.once id j.id)
    · refine (hmono j.id fun r hr hf => ?_).trans (hb j hj)
      simp only [fulfills, h.live, Bool.and_eq_true, beq_iff_eq] at hf ⊢
      split at hf
      next hid => exact (hhas ⟨r, hr, hf.1, hid⟩).elim
      next => exact hf

end Writes

/-! ### Sequences -/

/-- What `createFulfillment` leaves: no fulfillment, or one. -/
def CreateOutcome (ok : ShopCall → ShopInput → Shop → Prop) (s t : Shop) : Prop :=
  SameFulfillments s t ∨ ∃ i u v orderId items, SameFulfillments s u ∧
    ok (.order (.createFulfillment orderId (items.map OrderItem.id))) i u ∧
    (∀ j ∈ items, j ∈ u.orderItems.rows) ∧ (items.map OrderItem.id).Nodup ∧ Filled items u v ∧
    SameFulfillments v t

section Calls

variable {ok : ShopCall → ShopInput → Shop → Prop} {s : Shop}

theorem SameFulfillments.trans {a b c : Shop} (h : SameFulfillments a b) (h' : SameFulfillments b c) :
    SameFulfillments a c :=
  ⟨h'.orderItems.trans h.orderItems, h'.fulfillments.trans h.fulfillments,
    h'.fulfillmentItems.trans h.fulfillmentItems⟩

theorem CreateOutcome.after {t u : Shop} (h : CreateOutcome ok s t) (htu : SameFulfillments t u) :
    CreateOutcome ok s u := by
  rcases h with h | ⟨i, v, w, orderId, items, hsv, hok, hitems, hnodup, hfilled, hwt⟩
  · exact .inl (h.trans htu)
  · exact .inr ⟨i, v, w, orderId, items, hsv, hok, hitems, hnodup, hfilled, hwt.trans htu⟩

theorem selectItems_sublist (dto : CreateFulfillmentDto) (items : List OrderItem) :
    (selectItems dto items).Sublist items := by
  unfold selectItems
  split
  · exact List.filter_sublist
  · exact .refl _

theorem transitionOrder_same {orderId now : ℕ} {before after : OrderStatus} {note : String}
    {u : Unit} {s t : Shop} (h : transitionOrder orderId before after note now s = .ok (u, t)) :
    SameFulfillments s t := by
  simp only [transitionOrder, bind_eq_ok, existing_eq_ok, pure_eq_ok, Prod.mk.injEq] at h
  obtain ⟨o, -, -, rfl⟩ := h
  exact ⟨rfl, rfl, rfl⟩

theorem createFulfillment_alone (token orderId : ℕ) (dto : CreateFulfillmentDto) :
    Alone ok (fun _ t => CreateOutcome ok s t) (createFulfillment token orderId dto) s := by
  refine Alone.withLock_blind (fun _ => .inl ⟨rfl, rfl, rfl⟩)
    (fun _ t m ht => ht.after ⟨rfl, rfl, rfl⟩) (fun _ _ ht => ht) fun m => ?_
  let u : Shop := { s with locks := m }
  have hsu : SameFulfillments s u := ⟨rfl, rfl, rfl⟩
  simp only [Prog.bind_eq]
  refine requireOrder_alone (s := u) (fun o ho _ => ?_) fun _ => .inl hsu
  refine Alone.ensureBind (fun _ => ?_) fun _ => .inl hsu
  have hsub : (selectItems dto (u.orderItems.rows.filter fun i => i.orderId == orderId)).Sublist
      u.orderItems.rows := (selectItems_sublist _ _).trans List.filter_sublist
  refine Alone.atomicBind (fun i fo v hok _ hv => ?_) fun _ _ _ _ => .inl hsu
  have hcreated : CreateOutcome ok s v :=
    .inr ⟨i, u, v, orderId, _, hsu, hok, fun j hj => hsub.subset hj,
      (hsub.map OrderItem.id).nodup u.orderItems.nodup, insertFulfillment_filled hv, ⟨rfl, rfl, rfl⟩⟩
  split
  · refine Alone.atomicBind (fun i _ w _ _ hw => ?_) fun _ _ _ _ => hcreated
    exact Alone.done (hcreated.after (transitionOrder_same hw))
  · exact Alone.done hcreated

theorem updateFulfillmentStatus_alone (id : ℕ) (status : FulfillmentStatus) :
    Alone ok (fun _ t => t = s ∨ ∃ i, ok (.order (.updateFulfillment id status)) i s ∧
      Relabelled id status s t) (updateFulfillmentStatus id status) s := by
  simp only [updateFulfillmentStatus, Prog.bind_eq]
  refine Alone.queryBind (fun _ _ _ => ?_) fun _ _ _ => .inl rfl
  refine Alone.orThrowBind (fun _ _ => ?_) fun _ => .inl rfl
  exact Alone.atomic (fun i _ t hok _ ht => .inr ⟨i, hok, updateFulfillment_relabelled ht⟩)
    fun _ _ _ _ => .inl rfl

end Calls

theorem SameFulfillments.bounded {s t : Shop} (h : SameFulfillments s t)
    (hb : FulfillmentsBounded s) : FulfillmentsBounded t := by
  have hsame : ∀ itemId, fulfilled itemId t = fulfilled itemId s := by
    intro itemId
    have hlines : fulfills t itemId = fulfills s itemId := by
      funext r
      simp only [fulfills, live, h.fulfillments]
    rw [fulfilled, hlines, h.fulfillmentItems]
    rfl
  intro i hi
  rw [hsame]
  exact hb i (h.orderItems ▸ hi)

theorem bounded_call {s t : Shop} {q : FulfillmentCall} {r : Except Failure Unit}
    (hs : Copied s ∧ FulfillmentsBounded s) (h : Pool.Ran Unfulfilled q.prog s r t) :
    Copied t ∧ FulfillmentsBounded t := by
  cases q with
  | create token orderId dto =>
    have hout : CreateOutcome Unfulfilled s t := by
      refine ran_alone (Q := fun _ t => CreateOutcome Unfulfilled s t) ?_ h
      exact Alone.bind (createFulfillment_alone token orderId dto) (fun _ _ ht => Alone.done ht)
        fun _ _ ht => ht
    rcases hout with hsame | ⟨i, u, v, orderId, items, hsu, hok, hitems, hnodup, hfilled, hvt⟩
    · exact ⟨hsame.copied hs.1, hsame.bounded hs.2⟩
    · have hcu := hsu.copied hs.1
      have hnone : ∀ j ∈ items, times j.id u = 0 := by
        simpa [Unfulfilled, unfulfilled] using hok
      have hbv := (hfilled.bounded_iff hcu (hsu.bounded hs.2) hitems hnodup).mpr hnone
      exact ⟨hvt.copied (hfilled.copied hcu hitems hnodup), hvt.bounded hbv⟩
  | update id status =>
    have hout := ran_alone (updateFulfillmentStatus_alone id status) h
    rcases hout with rfl | ⟨i, hok, hset⟩
    · exact hs
    · exact ⟨hset.copied hs.1, hset.bounded hs.1 hs.2 hok⟩

/-- In every sequence of calls each of which puts an item into a fulfillment only while no other
has it, no more of an item is fulfilled than was ordered. -/
theorem fulfilled_le_ordered (s t : Shop) (calls : List (FulfillmentCall × Except Failure Unit))
    (hs : Copied s) (hb : FulfillmentsBounded s)
    (h : Pool.History Unfulfilled FulfillmentCall.prog s calls t) : FulfillmentsBounded t := by
  have hboth : Copied t ∧ FulfillmentsBounded t :=
    h.invariant (P := fun _ t => Copied t ∧ FulfillmentsBounded t) ⟨hs, hb⟩
      fun _ _ _ _ _ ht hr => bounded_call ht hr
  exact hboth.2

def confirmedOrder : Shop where
  users := [1]
  warehouses := oneWarehouse
  orders := Table.empty.insert fun n =>
    { id := n, orderNumber := ⟨0, 0⟩, customerId := some 1, cartId := none,
      fulfillmentWarehouseId := none, subtotal := 100, grandTotal := 100, status := .confirmed }
  orderItems := deliveredOrder.orderItems

def fulfillAll : FulfillmentCall := .create 0 0 { warehouseId := 0 }

/-- A call by itself that is made at `now`. -/
def afterCall (q : FulfillmentCall) (now : ℕ) (s : Shop) : Shop :=
  (Pool.solo q.prog s (List.replicate 5 { now, reply := {} })).state

/-- The first fulfillment is cancelled before the second. -/
theorem fulfilled_le_ordered_two :
    fulfilled 0 (afterCall fulfillAll 2 (afterCall (.update 0 .cancelled) 1
      (afterCall fulfillAll 0 confirmedOrder))) ≤ 2 := by
  have hcopied : Copied confirmedOrder :=
    ⟨fun r hr => (nomatch hr), fun r hr => (nomatch hr), by decide +kernel, fun _ _ => Nat.zero_le _⟩
  have hbounded : FulfillmentsBounded confirmedOrder := by decide +kernel
  have hfirst : Pool.Ran Unfulfilled fulfillAll.prog confirmedOrder (.ok ())
      (afterCall fulfillAll 0 confirmedOrder) :=
    ⟨List.replicate 5 { now := 0, reply := {} }, by decide +kernel, by decide +kernel, rfl⟩
  have hcancel : Pool.Ran Unfulfilled (FulfillmentCall.update 0 .cancelled).prog
      (afterCall fulfillAll 0 confirmedOrder) (.ok ())
      (afterCall (.update 0 .cancelled) 1 (afterCall fulfillAll 0 confirmedOrder)) :=
    ⟨List.replicate 5 { now := 1, reply := {} }, by decide +kernel, by decide +kernel, rfl⟩
  have hsecond : Pool.Ran Unfulfilled fulfillAll.prog
      (afterCall (.update 0 .cancelled) 1 (afterCall fulfillAll 0 confirmedOrder)) (.ok ())
      (afterCall fulfillAll 2 (afterCall (.update 0 .cancelled) 1
        (afterCall fulfillAll 0 confirmedOrder))) :=
    ⟨List.replicate 5 { now := 2, reply := {} }, by decide +kernel, by decide +kernel, rfl⟩
  have h := fulfilled_le_ordered confirmedOrder _ _ hcopied hbounded
    (.snoc (.snoc (.snoc .nil hfirst) hcancel) hsecond)
  have hitem : ∃ i ∈ (afterCall fulfillAll 2 (afterCall (.update 0 .cancelled) 1
      (afterCall fulfillAll 0 confirmedOrder))).orderItems.rows, i.id = 0 ∧ i.quantity = 2 := by
    decide +kernel
  obtain ⟨i, hi, hid, hquantity⟩ := hitem
  have hle := h i hi
  rw [hid, hquantity] at hle
  exact hle

/-- Both units are fulfilled twice: the order is processed after the first call. -/
theorem fulfilled_twice : ¬ ∀ calls t,
    Pool.History (fun _ _ _ => True) FulfillmentCall.prog confirmedOrder calls t →
    FulfillmentsBounded t := by
  intro h
  have hfirst : Pool.Ran (fun _ _ _ => True) fulfillAll.prog confirmedOrder (.ok ())
      (afterCall fulfillAll 0 confirmedOrder) :=
    ⟨List.replicate 5 { now := 0, reply := {} }, by decide +kernel, by decide +kernel, rfl⟩
  have hsecond : Pool.Ran (fun _ _ _ => True) fulfillAll.prog
      (afterCall fulfillAll 0 confirmedOrder) (.ok ())
      (afterCall fulfillAll 1 (afterCall fulfillAll 0 confirmedOrder)) :=
    ⟨List.replicate 5 { now := 1, reply := {} }, by decide +kernel, by decide +kernel, rfl⟩
  have hbounded := h _ _ (.snoc (.snoc .nil hfirst) hsecond)
  revert hbounded
  decide +kernel

end ElectronicsCart.Orders
