import ElectronicsCart.Orders.CheckoutEffects
import ElectronicsCart.Orders.Service

/-!
# What the calls do to the status of an order

`moveOf` is the order whose status a label writes, with the status the history says it comes from.
`OrderStep` says what a call may have done to the orders and their history: nothing, a draft
order, or one move.
-/

namespace ElectronicsCart.Orders

open Interleaving Relational Inventory

structure StatusMove where
  orderId : ℕ
  before : OrderStatus
  after : OrderStatus
deriving DecidableEq, Repr

def moveOf : ShopCall → Option StatusMove
  | .order (.transitionStatus orderId before after) => some ⟨orderId, before, after⟩
  | .payment (.confirmOrder orderId) => some ⟨orderId, .pending, .confirmed⟩
  | _ => none

theorem key_draftOrder (cart : Cart) (ctx : CheckoutContext) (number : DocumentNumber) (n : ℕ) :
    key (draftOrder cart ctx number n) = n := rfl

inductive OrderStep (l : ShopCall) (now : ℕ) (s s' : Shop) : Prop
  | same (horders : s'.orders = s.orders) (hhistory : s'.orderHistory = s.orderHistory)
  | create (cart : Cart) (ctx : CheckoutContext) (number : DocumentNumber) (userId : ℕ)
      (hl : l = .order (.createOrder userId ctx.cartId))
      (horders : s'.orders =
        s.orders.insert (draftOrder cart ctx number) (key_draftOrder cart ctx number))
      (hhistory : s'.orderHistory = s.orderHistory.insert fun n =>
        ⟨n, s.orders.next, none, .pending, some "Draft order created"⟩)
  | move (m : StatusMove) (note : String) (hl : moveOf l = some m)
      (hfound : (s.orders.find? m.orderId).isSome)
      (horders : s'.orders =
        s.orders.update m.orderId (setStatus m.after now) (key_setStatus m.after now))
      (hhistory : s'.orderHistory = s.orderHistory.insert fun n =>
        ⟨n, m.orderId, some m.before, m.after, some note⟩)

/-! ### Cancelled orders -/

def Cancelled (orderId : ℕ) (s : Shop) : Prop :=
  (s.orders.find? orderId).any (fun o => o.status == .cancelled) = true

instance (orderId : ℕ) (s : Shop) : Decidable (Cancelled orderId s) :=
  inferInstanceAs (Decidable (_ = _))

theorem cancelled_iff {id : ℕ} {s : Shop} :
    Cancelled id s ↔ ∃ o, s.orders.find? id = some o ∧ o.status = .cancelled := by
  cases h : s.orders.find? id <;> simp [Cancelled, h]

/-! ### The transactions -/

section Transactions

variable {s s' : Shop} {now : ℕ}

theorem transitionOrder_step {orderId : ℕ} {before after : OrderStatus} {note : String} {u : Unit}
    (h : transitionOrder orderId before after note now s = .ok (u, s')) :
    OrderStep (.order (.transitionStatus orderId before after)) now s s' := by
  simp only [transitionOrder, bind_eq_ok, existing_eq_ok, pure_eq_ok, Prod.mk.injEq] at h
  obtain ⟨o, ho, -, rfl⟩ := h
  exact .move ⟨orderId, before, after⟩ note rfl (Option.isSome_of_eq_some ho) rfl rfl

theorem confirmOrder_step {order : Order} {u : Unit}
    (h : Payments.confirmOrder order now s = .ok (u, s')) :
    OrderStep (.payment (.confirmOrder order.id)) now s s' := by
  simp only [Payments.confirmOrder, bind_eq_ok, existing_eq_ok] at h
  obtain ⟨o, ho, h⟩ := h
  have hfound : (s.orders.find? order.id).isSome := Option.isSome_of_eq_some ho
  refine .move ⟨order.id, .pending, .confirmed⟩ "Payment captured" rfl hfound ?_ ?_ <;>
  · cases hc : order.cartId with
    | none =>
      simp only [hc, pure_eq_ok, Prod.mk.injEq] at h
      obtain ⟨-, rfl⟩ := h
      rfl
    | some cartId =>
      simp only [hc, bind_eq_ok, existing_eq_ok, pure_eq_ok, Prod.mk.injEq] at h
      obtain ⟨-, -, -, rfl⟩ := h
      rfl

theorem insertOrder_step {cart : Cart} {items : List CartItem} {ctx : CheckoutContext} {random : ℕ}
    {order : Order} (userId : ℕ)
    (h : insertOrder cart items ctx now random s = .ok (order, s')) :
    OrderStep (.order (.createOrder userId ctx.cartId)) now s s' := by
  simp only [insertOrder, bind_eq_ok, check_eq_ok, pure_eq_ok, Prod.mk.injEq] at h
  obtain ⟨-, -, -, -, -, -, t, ht, rfl, rfl⟩ := h
  obtain ⟨T, rfl⟩ := insertOrderItems_cases ht
  exact .create cart ctx ⟨now, random⟩ userId rfl rfl rfl

theorem convertCart_step {cartId : ℕ} {u : Unit} {l : ShopCall}
    (h : convertCart cartId s = .ok (u, s')) : OrderStep l now s s' := by
  simp only [convertCart, bind_eq_ok, existing_eq_ok, pure_eq_ok, Prod.mk.injEq] at h
  obtain ⟨-, -, -, rfl⟩ := h
  exact .same rfl rfl

end Transactions

theorem orderStep_of_effect {l : ShopCall} {now : ℕ} {s s' : Shop} (h : Effect l now s s') :
    OrderStep l now s s' := by
  rcases h with h | h
  · exact .same h.orders h.history
  unfold Writes at h
  split at h
  · obtain ⟨p, h⟩ := h
    obtain ⟨q, -, -, rfl⟩ := writePayment_cases h
    exact .same rfl rfl
  · obtain ⟨order, actorId, gatewayId, gatewayOrderId, dto, p, -, -, h⟩ := h
    obtain ⟨mk, hmk, -, -, -, -, rfl⟩ := insertPayment_cases h
    exact .same rfl rfl
  · obtain ⟨order, rfl, h⟩ := h
    exact confirmOrder_step h
  · obtain ⟨cart, items, ctx, random, order, rfl, h⟩ := h
    exact insertOrder_step _ h
  · obtain ⟨note, h⟩ := h
    exact transitionOrder_step h
  · exact convertCart_step h
  · exact h.elim

/-! ### Cancellation and fulfillment -/

section Calls

variable {S : ShopCall → Bool}

theorem calls_requireOrder (id : ℕ) : Calls quiet (requireOrder id) :=
  Calls.bind (.query rfl) fun _ => .orThrow _ _

theorem calls_setCancellationReason (orderId : ℕ) (reason : Option ℕ) :
    Calls quiet (setCancellationReason orderId reason) := by
  refine .atomic rfl fun i s b s' h => .inl ?_
  simp only [bind_eq_ok, existing_eq_ok, check_eq_ok, pure_eq_ok, Prod.mk.injEq] at h
  obtain ⟨-, -, -, -, -, rfl⟩ := h
  exact .refl s

theorem calls_releaseEach (token : ℕ) (reservations : List StockReservation) :
    Calls quiet (releaseEach token reservations) := by
  induction reservations with
  | nil => exact .pure _
  | cons r rs ih => exact (calls_releaseReservation token r.id).bind fun _ => ih

theorem calls_cancelOrder (hS : ∀ l, quiet l = true → S l = true)
    (hl : ∀ id before, S (.order (.transitionStatus id before .cancelled)) = true)
    (token : ℕ) (order : Order) (dto : CancelOrderDto) : Calls S (cancelOrder token order dto) := by
  refine ((calls_setCancellationReason _ _).mono hS).bind fun _ => ?_
  refine (calls_transitionStatus (hl _ _)).bind fun _ => Calls.bind (.query (hS _ rfl)) fun _ => ?_
  exact (calls_releaseEach _ _).mono hS

theorem calls_cancelRequest (hS : ∀ l, quiet l = true → S l = true)
    (hl : ∀ id before, S (.order (.transitionStatus id before .cancelled)) = true)
    (token orderId userId : ℕ) (dto : CancelOrderDto) (isAdmin : Bool) :
    Calls S (cancel token orderId userId dto isAdmin) := by
  refine .withLock (hS _ rfl) (hS _ rfl) (((calls_requireOrder _).mono hS).bind fun _ => ?_)
  exact (Calls.ensure _ _).bind fun _ => (Calls.ensure _ _).bind fun _ => calls_cancelOrder hS hl _ _ _

theorem insertFulfillmentItems_same {fulfillmentId : ℕ} {items : List OrderItem} {s s' : Shop}
    (h : insertFulfillmentItems fulfillmentId items s = .ok s') : SameLedger s s' := by
  induction items generalizing s with
  | nil =>
    cases h
    exact .refl _
  | cons i items ih =>
    simp only [insertFulfillmentItems, bind_eq_ok, check_eq_ok] at h
    obtain ⟨-, -, h⟩ := h
    have hrest := ih h
    exact ⟨hrest.payments, hrest.orders, hrest.carts, hrest.history, hrest.cartItems⟩

theorem insertFulfillment_same {orderId warehouseId now : ℕ} {items : List OrderItem}
    {fo : FulfillmentOrder} {s s' : Shop}
    (h : insertFulfillment orderId warehouseId items now s = .ok (fo, s')) : SameLedger s s' := by
  simp only [insertFulfillment, bind_eq_ok, check_eq_ok, pure_eq_ok, Prod.mk.injEq] at h
  obtain ⟨-, -, -, -, -, -, -, -, t, ht, -, rfl⟩ := h
  have hitems := insertFulfillmentItems_same ht
  exact ⟨hitems.payments, hitems.orders, hitems.carts, hitems.history, hitems.cartItems⟩

theorem calls_createFulfillment (hS : ∀ l, quiet l = true → S l = true)
    (hl : ∀ id, S (.order (.transitionStatus id .confirmed .processing)) = true)
    (token orderId : ℕ) (dto : CreateFulfillmentDto) :
    Calls S (createFulfillment token orderId dto) := by
  refine .withLock (hS _ rfl) (hS _ rfl) (((calls_requireOrder _).mono hS).bind fun order => ?_)
  refine (Calls.ensure _ _).bind fun _ => Calls.bind ?_ fun fo => ?_
  · exact .atomic (hS _ rfl) fun i s b s' h => .inl (insertFulfillment_same h)
  · split
    · exact (calls_transitionStatus (hl _)).bind fun _ => .pure _
    · exact .pure _

end Calls

end ElectronicsCart.Orders
