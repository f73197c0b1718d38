import ElectronicsCart.Orders.Service
import ElectronicsCart.Core.Alone

/-!
# Sequences of return requests

`requestReturn` compares the quantity of its own request with the ordered one.  What earlier
requests have returned of the item is not looked at, so the ordered quantity bounds the sum only
where a request is the first of its item or fits what is left.
-/

namespace ElectronicsCart.Orders

open Interleaving Relational

structure ReturnCall where
  userId : ℕ
  orderId : ℕ
  dto : ReturnRequestDto
deriving DecidableEq, Repr

def ReturnCall.prog (q : ReturnCall) : ShopProg Return := requestReturn q.userId q.orderId q.dto

/-- The quantity of an order item that all return requests together return. -/
def returned (itemId : ℕ) (s : Shop) : ℤ :=
  s.returnItems.total (fun r => r.orderItemId == itemId) ReturnItem.quantity

def ReturnsBounded (s : Shop) : Prop := ∀ i ∈ s.orderItems.rows, returned i.id s ≤ i.quantity

instance (s : Shop) : Decidable (ReturnsBounded s) :=
  inferInstanceAs (Decidable (∀ i ∈ s.orderItems.rows, _))

/-- A return that is stored is the first one of its item, or fits what the returns before it have
left of the item. -/
def firstOrFits (l : ShopCall) (s : Shop) : Bool :=
  match l with
  | .order (.createReturn itemId quantity) =>
    s.returnItems.rows.all (fun r => r.orderItemId != itemId) ||
    s.orderItems.rows.all fun i => i.id != itemId || decide (returned itemId s + quantity ≤ i.quantity)
  | _ => true

def FirstOrFits (l : ShopCall) (_ : ShopInput) (s : Shop) : Prop := firstOrFits l s = true

instance (l : ShopCall) (i : ShopInput) (s : Shop) : Decidable (FirstOrFits l i s) :=
  inferInstanceAs (Decidable (_ = _))

theorem firstOrFits_createReturn {itemId : ℕ} {quantity : ℚ} {i : ShopInput} {s : Shop} :
    FirstOrFits (.order (.createReturn itemId quantity)) i s ↔
      (∀ r ∈ s.returnItems.rows, r.orderItemId ≠ itemId) ∨
      ∀ i ∈ s.orderItems.rows, i.id = itemId → returned itemId s + quantity ≤ i.quantity := by
  simp [FirstOrFits, firstOrFits, ← imp_iff_not_or]

theorem returned_first {itemId : ℕ} {s : Shop}
    (h : ∀ r ∈ s.returnItems.rows, r.orderItemId ≠ itemId) : returned itemId s = 0 := by
  have hnone : s.returnItems.rows.map (fun r => if r.orderItemId = itemId then r.quantity else 0) =
      s.returnItems.rows.map fun _ => 0 :=
    List.map_congr_left fun r hr => if_neg (h r hr)
  simp [returned, Table.total, hnone]

/-- What a request leaves: nothing, or one return of an item of the order, of which it asks for no
more than was ordered. -/
def ReturnOutcome (ok : ShopCall → ShopInput → Shop → Prop) (q : ReturnCall) (s : Shop)
    (r : Except Failure Return) (t : Shop) : Prop :=
  (∃ e, r = .error e) ∧ t = s ∨
    ∃ i ret, r = .ok ret ∧
      (∃ item ∈ s.orderItems.rows, item.id = q.dto.orderItemId ∧ q.dto.quantity ≤ item.quantity) ∧
      ok (.order (.createReturn q.dto.orderItemId q.dto.quantity)) i s ∧
      insertReturn q.orderId q.dto i.now s = .ok (ret, t)

section Calls

variable {ok : ShopCall → ShopInput → Shop → Prop} {s t : Shop}

theorem requireOrder_alone {α : Type} {Q : Except Failure α → Shop → Prop} {id : ℕ}
    {k : Order × List OrderItem → ShopProg α}
    (h : ∀ o, s.orders.find? id = some o → o.deleted = false →
      Alone ok Q (k (o, s.orderItems.rows.filter fun i => i.orderId == id)) s)
    (herr : ∀ e, Q (.error e) s) : Alone ok Q ((requireOrder id).bind k) s := by
  simp only [requireOrder, findOrderWithItems, Prog.bind_eq, Prog.bind_assoc]
  refine Alone.queryBind (fun i _ _ => ?_) fun _ _ _ => herr _
  refine Alone.orThrowBind (fun found hfound => ?_) fun _ => herr _
  obtain ⟨o, ho, rfl⟩ := Option.map_eq_some_iff.mp hfound
  obtain ⟨hfind, hlive⟩ := Option.filter_eq_some_iff.mp ho
  have hid : o.id = id := (Table.find?_mem hfind).2
  rw [hid]
  exact h o hfind (by simpa using hlive)

theorem requestReturn_alone (q : ReturnCall) : Alone ok (ReturnOutcome ok q s) q.prog s := by
  have herr : ∀ e, ReturnOutcome ok q s (.error e) s := fun e => .inl ⟨⟨e, rfl⟩, rfl⟩
  simp only [ReturnCall.prog, requestReturn, requireOwnedOrder, Prog.bind_eq, Prog.bind_assoc]
  refine requireOrder_alone (fun o ho _ => ?_) herr
  refine Alone.ensureBind (fun _ => ?_) fun _ => herr _
  refine Alone.ensureBind (fun _ => ?_) fun _ => herr _
  refine Alone.orThrowBind (fun item hitem => ?_) fun _ => herr _
  refine Alone.ensureBind (fun hquantity => ?_) fun _ => herr _
  have hmem := List.mem_of_find?_eq_some hitem
  have hkey : item.id = q.dto.orderItemId := by simpa using List.find?_some hitem
  refine Alone.atomic (fun i ret u hok _ hu => ?_) fun i e _ _ => herr e
  exact .inr ⟨i, ret, rfl, ⟨item, List.mem_of_mem_filter hmem, hkey, hquantity⟩, hok, hu⟩

end Calls

theorem insertReturn_returned {orderId now : ℕ} {dto : ReturnRequestDto} {ret : Return} {s t : Shop}
    (h : insertReturn orderId dto now s = .ok (ret, t)) :
    t.orderItems = s.orderItems ∧ (dto.quantity.num : ℚ) = dto.quantity ∧
      ∀ itemId, returned itemId t =
        returned itemId s + if itemId = dto.orderItemId then dto.quantity.num else 0 := by
  simp only [insertReturn, bind_eq_ok, check_eq_ok, pure_eq_ok, Prod.mk.injEq] at h
  obtain ⟨-, hden, -, -, -, -, -, -, -, -, -, rfl⟩ := h
  refine ⟨rfl, ?_, fun itemId => ?_⟩
  · exact (Rat.den_eq_one_iff _).mp (of_decide_eq_true hden)
  · simp only [returned, Table.total_insert, beq_iff_eq]
    simp only [eq_comm]

theorem bounded_insert_iff {orderId now : ℕ} {dto : ReturnRequestDto} {ret : Return} {s t : Shop}
    (hs : ReturnsBounded s) (h : insertReturn orderId dto now s = .ok (ret, t)) :
    ReturnsBounded t ↔ ∀ i ∈ s.orderItems.rows, i.id = dto.orderItemId →
      returned dto.orderItemId s + dto.quantity ≤ i.quantity := by
  obtain ⟨hitems, hnum, hreturned⟩ := insertReturn_returned h
  constructor
  · intro ht item hitem hid
    have hle := ht item (hitems ▸ hitem)
    rw [hreturned, if_pos hid] at hle
    rw [← hid, ← hnum]
    exact_mod_cast hle
  · intro hfits item hitem
    rw [hitems] at hitem
    rw [hreturned]
    split
    next hid =>
      have hle := hfits item hitem hid
      rw [← hnum] at hle
      rw [hid]
      exact_mod_cast hle
    next hne => simpa using hs item hitem

/-- A first return is within the bound by the check of `requestReturn`; what a later one may ask
for nobody checks. -/
theorem bounded_request_iff {ok : ShopCall → ShopInput → Shop → Prop} {q : ReturnCall} {ret : Return}
    {i : ShopInput} {s t : Shop} (hs : ReturnsBounded s)
    (h : Pool.Ran ok q.prog s (.ok ret) t) :
    ReturnsBounded t ↔ FirstOrFits (.order (.createReturn q.dto.orderItemId q.dto.quantity)) i s := by
  rcases ran_alone (requestReturn_alone q) h with ⟨⟨e, he⟩, -⟩ | ⟨_, _, -, hitem, -, hins⟩
  · cases he
  rw [bounded_insert_iff hs hins, firstOrFits_createReturn]
  refine ⟨.inr, fun hfits => hfits.elim (fun hfirst i hi hid => ?_) id⟩
  obtain ⟨item, hmem, hkey, hquantity⟩ := hitem
  have hsame : i = item := s.orderItems.eq_of_key_eq hi hmem (hid.trans hkey.symm)
  rw [returned_first hfirst, hsame]
  simpa using hquantity

/-- In every sequence of requests whose stored returns are the first of their item or fit what is
left, no more of an item is returned than was ordered; and a further request that stores a return
keeps this exactly if it is the first of its item or fits. -/
theorem returned_le_ordered (s t : Shop) (calls : List (ReturnCall × Except Failure Return))
    (hs : ReturnsBounded s) (h : Pool.History FirstOrFits ReturnCall.prog s calls t) :
    ReturnsBounded t ∧ ∀ q ret i u, Pool.Ran (fun _ _ _ => True) (ReturnCall.prog q) t (.ok ret) u →
      (ReturnsBounded u ↔
        FirstOrFits (.order (.createReturn q.dto.orderItemId q.dto.quantity)) i t) := by
  have ht : ReturnsBounded t := by
    refine h.invariant (P := fun _ t => ReturnsBounded t) hs fun _ t q r u ht hr => ?_
    rcases ran_alone (requestReturn_alone q) hr with ⟨-, rfl⟩ | ⟨i, ret, rfl, -, hfits, -⟩
    · exact ht
    · exact (bounded_request_iff ht hr).mpr hfits
  exact ⟨ht, fun q ret i u hr => bounded_request_iff ht hr⟩

def deliveredOrder : Shop where
  users := [1]
  orders := Table.empty.insert fun n =>
    { id := n, orderNumber := ⟨0, 0⟩, customerId := some 1, cartId := none,
      fulfillmentWarehouseId := none, subtotal := 100, grandTotal := 100, status := .delivered }
  orderItems := Table.empty.insert fun n => ⟨n, 0, 1, "SKU-1", 2, 50, 100⟩

def returnOf (quantity : ℚ) : ReturnCall := ⟨1, 0, { orderItemId := 0, quantity }⟩

/-- A request by itself that is made at `now`. -/
def afterReturn (quantity : ℚ) (now : ℕ) (s : Shop) : Shop :=
  (Pool.solo (returnOf quantity).prog s (List.replicate 2 { now, reply := {} })).state

theorem returned_le_ordered_one : returned 0 (afterReturn 1 0 deliveredOrder) ≤ 2 := by
  have hbounded : ReturnsBounded deliveredOrder := by decide +kernel
  have hran : Pool.Ran FirstOrFits (returnOf 1).prog deliveredOrder
      (.ok ⟨0, 0, 0, none, false⟩) (afterReturn 1 0 deliveredOrder) :=
    ⟨List.replicate 2 { now := 0, reply := {} }, by decide +kernel, by decide +kernel, rfl⟩
  have h := (returned_le_ordered deliveredOrder _ _ hbounded (.snoc .nil hran)).1
  have hitem : ∃ i ∈ (afterReturn 1 0 deliveredOrder).orderItems.rows, i.id = 0 ∧ i.quantity = 2 := by
    decide +kernel
  obtain ⟨i, hi, hid, hquantity⟩ := hitem
  have hle := h i hi
  rw [hid, hquantity] at hle
  exact hle

/-- Both units are returned twice. -/
theorem returned_twice : ¬ ∀ calls t,
    Pool.History (fun _ _ _ => True) ReturnCall.prog deliveredOrder calls t → ReturnsBounded t := by
  intro h
  have hfirst : Pool.Ran (fun _ _ _ => True) (returnOf 2).prog deliveredOrder
      (.ok ⟨0, 0, 0, none, false⟩) (afterReturn 2 0 deliveredOrder) :=
    ⟨List.replicate 2 { now := 0, reply := {} }, by decide +kernel, by decide +kernel, rfl⟩
  have hsecond : Pool.Ran (fun _ _ _ => True) (returnOf 2).prog (afterReturn 2 0 deliveredOrder)
      (.ok ⟨1, 1, 0, none, false⟩) (afterReturn 2 1 (afterReturn 2 0 deliveredOrder)) :=
    ⟨List.replicate 2 { now := 1, reply := {} }, by decide +kernel, by decide +kernel, rfl⟩
  have hbounded := h _ _ (.snoc (.snoc .nil hfirst) hsecond)
  revert hbounded
  decide +kernel

end ElectronicsCart.Orders
