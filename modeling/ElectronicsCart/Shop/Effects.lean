import ElectronicsCart.Orders.Checkout
import ElectronicsCart.Payments.Flows

/-!
# What the calls do to payments, orders and carts

`Effect` says for every label what its call may have done to the tables of payments, orders,
their history and carts.  `Calls S p` holds when every call of `p` has a label in `S` and only
that effect; `quiet` labels leave the tables alone, `routine` ones neither capture a payment nor
set the status of an order.
-/

namespace ElectronicsCart

open Interleaving Relational Inventory Payments Orders

/-- Payments, orders with their history and carts with their items are as they were. -/
structure SameLedger (s s' : Shop) : Prop where
  payments : s'.payments = s.payments
  orders : s'.orders = s.orders
  carts : s'.carts = s.carts
  history : s'.orderHistory = s.orderHistory
  cartItems : s'.cartItems = s.cartItems

theorem SameLedger.refl (s : Shop) : SameLedger s s := ⟨rfl, rfl, rfl, rfl, rfl⟩

theorem SameLedger.trans {a b c : Shop} (h : SameLedger a b) (h' : SameLedger b c) :
    SameLedger a c :=
  ⟨h'.payments.trans h.payments, h'.orders.trans h.orders, h'.carts.trans h.carts,
    h'.history.trans h.history, h'.cartItems.trans h.cartItems⟩

/-- The transaction behind a label that writes one of the tables. -/
def Writes : ShopCall → ℕ → Shop → Shop → Prop
  | .payment (.update id _ write), now, s, s' => ∃ p, writePayment id write now s = .ok (p, s')
  | .payment (.createPayment orderId amount), _, s, s' =>
    ∃ order actorId gatewayId gatewayOrderId dto p, order.id = orderId ∧ dto.amount = amount ∧
      insertPayment order actorId gatewayId gatewayOrderId dto s = .ok (p, s')
  | .payment (.confirmOrder orderId), now, s, s' =>
    ∃ order, order.id = orderId ∧ Payments.confirmOrder order now s = .ok ((), s')
  | .order (.createOrder _ cartId), now, s, s' =>
    ∃ cart items ctx random order, ctx.cartId = cartId ∧
      insertOrder cart items ctx now random s = .ok (order, s')
  | .order (.transitionStatus orderId before after), now, s, s' =>
    ∃ note, transitionOrder orderId before after note now s = .ok ((), s')
  | .order (.markConverted cartId), _, s, s' => convertCart cartId s = .ok ((), s')
  | _, _, _, _ => False

def Effect (l : ShopCall) (now : ℕ) (s s' : Shop) : Prop := SameLedger s s' ∨ Writes l now s s'

/-- The labels that write none of the tables. -/
def quiet : ShopCall → Bool
  | .payment (.update _ _ _) => false
  | .payment (.createPayment _ _) => false
  | .payment (.confirmOrder _) => false
  | .order (.createOrder _ _) => false
  | .order (.transitionStatus _ _ _) => false
  | .order (.markConverted _) => false
  | _ => true

/-- The labels that neither capture or refund a payment nor set the status of an order. -/
def routine : ShopCall → Bool
  | .payment (.update _ _ (.authorize _ _)) => true
  | .payment (.update _ _ .cancel) => true
  | .payment (.update _ _ .fail) => true
  | .payment (.update _ _ .reopen) => true
  | .payment (.update _ _ _) => false
  | .payment (.confirmOrder _) => false
  | .order (.transitionStatus _ _ _) => false
  | _ => true

/-- The routine labels that create no payment. -/
def amending : ShopCall → Bool
  | .payment (.createPayment _ _) => false
  | l => routine l

/-- The labels that neither capture through the gateway nor refund a payment, and set the status
of no order. -/
def passive : ShopCall → Bool
  | .payment (.update _ _ .capture) => false
  | .payment (.update _ _ (.refund _ _)) => false
  | .payment (.confirmOrder _) => false
  | .order (.transitionStatus _ _ _) => false
  | _ => true

/-- The routine labels, a capture and the confirmation after it. -/
def capturing : ShopCall → Bool
  | .payment (.update _ _ .capture) => true
  | .payment (.update _ _ .captureZero) => true
  | .payment (.confirmOrder _) => true
  | l => routine l

def charging : ShopCall → Bool
  | .payment (.update _ _ .capture) => true
  | .payment (.update _ _ .captureZero) => true
  | l => routine l

/-- What `capture` does to a payment that exists and to its order. -/
def settling : ShopCall → Bool
  | .payment (.update _ _ .capture) => true
  | .payment (.update _ _ .captureZero) => true
  | .payment (.confirmOrder _) => true
  | l => amending l

def keepsPayments : ShopCall → Bool
  | .payment (.update _ _ _) => false
  | .payment (.createPayment _ _) => false
  | _ => true

theorem keepsPayments_of_quiet {l : ShopCall} (h : quiet l = true) : keepsPayments l = true := by
  unfold quiet at h
  split at h <;> try cases h
  unfold keepsPayments
  split <;> simp_all

theorem routine_of_quiet {l : ShopCall} (h : quiet l = true) : routine l = true := by
  unfold quiet at h
  split at h <;> try cases h
  unfold routine
  split <;> simp_all

theorem routine_of_amending {l : ShopCall} (h : amending l = true) : routine l = true := by
  unfold amending at h
  split at h
  · cases h
  · exact h

theorem amending_of_quiet {l : ShopCall} (h : quiet l = true) : amending l = true := by
  have hroutine := routine_of_quiet h
  unfold amending
  split
  · cases h
  · exact hroutine

theorem passive_of_routine {l : ShopCall} (h : routine l = true) : passive l = true := by
  unfold passive
  split <;> first | exact h | rfl

theorem capturing_of_routine {l : ShopCall} (h : routine l = true) : capturing l = true := by
  unfold capturing
  split <;> first | exact h | rfl

theorem charging_of_routine {l : ShopCall} (h : routine l = true) : charging l = true := by
  unfold charging
  split <;> first | exact h | rfl

theorem capturing_of_charging {l : ShopCall} (h : charging l = true) : capturing l = true := by
  unfold charging at h
  split at h <;> first | rfl | exact capturing_of_routine h

theorem capturing_of_settling {l : ShopCall} (h : settling l = true) : capturing l = true := by
  unfold settling at h
  unfold capturing
  split at h <;> first | rfl | exact routine_of_amending h

theorem settling_of_amending {l : ShopCall} (h : amending l = true) : settling l = true := by
  unfold settling
  split <;> first | exact h | rfl

theorem Effect.same {l : ShopCall} {now : ℕ} {s s' : Shop} (hl : quiet l = true)
    (h : Effect l now s s') : SameLedger s s' := by
  refine h.resolve_right fun hw => ?_
  unfold Writes at hw
  split at hw <;> first | cases hl | exact hw

/-! ### The transactions -/

section Transactions

variable {s s' : Shop} {now : ℕ}

@[simp] theorem status_applyWrite (p : Payment) (write : PaymentWrite) :
    (applyWrite now p write).status = write.target := by
  cases write <;> rfl

@[simp] theorem orderId_applyWrite (p : Payment) (write : PaymentWrite) :
    (applyWrite now p write).orderId = p.orderId := by
  cases write <;> rfl

@[simp] theorem amount_applyWrite (p : Payment) (write : PaymentWrite) :
    (applyWrite now p write).amount = p.amount := by
  cases write <;> rfl

theorem writePayment_cases {id : ℕ} {write : PaymentWrite} {p : Payment}
    (h : writePayment id write now s = .ok (p, s')) :
    ∃ q, s.payments.find? id = some q ∧ p = applyWrite now q write ∧ s' = { s with
      payments := s.payments.update id (applyWrite now · write) (key_applyWrite now write) } := by
  simp only [writePayment, bind_eq_ok, existing_eq_ok, check_eq_ok, pure_eq_ok, Prod.mk.injEq] at h
  obtain ⟨q, hq, -, -, rfl, rfl⟩ := h
  exact ⟨q, hq, rfl, rfl⟩

theorem insertPayment_cases {order : Order} {actorId gatewayId : ℕ} {gatewayOrderId : String}
    {dto : CreatePaymentDto} {p : Payment}
    (h : insertPayment order actorId gatewayId gatewayOrderId dto s = .ok (p, s')) :
    ∃ mk : ℕ → Payment, ∃ hmk : ∀ n, key (mk n) = n,
      (∀ n, (mk n).orderId = order.id ∧ (mk n).amount = dto.amount ∧ (mk n).status = .pending) ∧
      (s.orders.find? order.id).isSome ∧ 0 ≤ dto.amount ∧ p = mk s.payments.next ∧
      s' = { s with payments := s.payments.insert mk hmk } := by
  simp only [insertPayment, bind_eq_ok, check_eq_ok, pure_eq_ok, Prod.mk.injEq, Bool.and_eq_true,
    decide_eq_true_eq] at h
  obtain ⟨-, horder, -, ⟨-, hamount⟩, rfl, rfl⟩ := h
  exact ⟨_, fun _ => rfl, fun _ => ⟨rfl, rfl, rfl⟩, horder, hamount, rfl, rfl⟩

theorem confirmOrder_cases {order : Order} {u : Unit}
    (h : Payments.confirmOrder order now s = .ok (u, s')) :
    (∃ o, s.orders.find? order.id = some o) ∧ s'.payments = s.payments ∧
      s'.orders = s.orders.update order.id (setStatus .confirmed now) (key_setStatus .confirmed now) ∧
      (order.cartId = none ∧ s'.carts = s.carts ∨
        ∃ cartId c, order.cartId = some cartId ∧ s.carts.find? cartId = some c ∧
          s'.carts = s.carts.update cartId Cart.convert key_convert) := by
  simp only [Payments.confirmOrder, bind_eq_ok, existing_eq_ok] at h
  obtain ⟨o, ho, h⟩ := h
  refine ⟨⟨o, ho⟩, ?_⟩
  cases hc : order.cartId with
  | none =>
    simp only [hc, pure_eq_ok, Prod.mk.injEq] at h
    obtain ⟨-, rfl⟩ := h
    exact ⟨rfl, rfl, .inl ⟨rfl, rfl⟩⟩
  | some cartId =>
    simp only [hc, bind_eq_ok, existing_eq_ok, pure_eq_ok, Prod.mk.injEq] at h
    obtain ⟨c, hf, -, rfl⟩ := h
    exact ⟨rfl, rfl, .inr ⟨cartId, c, rfl, hf, rfl⟩⟩

theorem transitionOrder_cases {orderId : ℕ} {before after : OrderStatus} {note : String} {u : Unit}
    (h : transitionOrder orderId before after note now s = .ok (u, s')) :
    (∃ o, s.orders.find? orderId = some o) ∧ s'.payments = s.payments ∧ s'.carts = s.carts ∧
      s'.orders = s.orders.update orderId (setStatus after now) (key_setStatus after now) := by
  simp only [transitionOrder, bind_eq_ok, existing_eq_ok, pure_eq_ok, Prod.mk.injEq] at h
  obtain ⟨o, ho, -, rfl⟩ := h
  exact ⟨⟨o, ho⟩, rfl, rfl, rfl⟩

theorem convertCart_cases {cartId : ℕ} {u : Unit} (h : convertCart cartId s = .ok (u, s')) :
    s'.payments = s.payments ∧ s'.orders = s.orders ∧
      s'.carts = s.carts.update cartId Cart.convert key_convert := by
  simp only [convertCart, bind_eq_ok, existing_eq_ok, pure_eq_ok, Prod.mk.injEq] at h
  obtain ⟨c, -, -, rfl⟩ := h
  exact ⟨rfl, rfl, rfl⟩

theorem insertOrderItems_cases {orderId : ℕ} {items : List CartItem}
    (h : insertOrderItems orderId items s = .ok s') :
    ∃ T, s' = { s with orderItems := T } := by
  induction items generalizing s with
  | nil =>
    cases h
    exact ⟨_, rfl⟩
  | cons i items ih =>
    simp only [insertOrderItems, bind_eq_ok, check_eq_ok] at h
    obtain ⟨-, -, h⟩ := h
    obtain ⟨T, rfl⟩ := ih h
    exact ⟨T, rfl⟩

theorem insertOrder_cases {cart : Cart} {items : List CartItem} {ctx : CheckoutContext}
    {random : ℕ} {order : Order} (h : insertOrder cart items ctx now random s = .ok (order, s')) :
    order = draftOrder cart ctx ⟨now, random⟩ s.orders.next ∧
      s'.orders = s.orders.insert (draftOrder cart ctx ⟨now, random⟩) (fun _ => rfl) ∧
      s'.payments = s.payments ∧ s'.carts = s.carts := by
  simp only [insertOrder, bind_eq_ok, check_eq_ok, pure_eq_ok, Prod.mk.injEq] at h
  obtain ⟨-, -, -, -, -, -, t, ht, rfl, rfl⟩ := h
  obtain ⟨T, rfl⟩ := insertOrderItems_cases ht
  exact ⟨rfl, rfl, rfl, rfl⟩

end Transactions

theorem Effect.payments {l : ShopCall} {now : ℕ} {s s' : Shop} (hl : keepsPayments l = true)
    (h : Effect l now s s') : s'.payments = s.payments := by
  rcases h with h | h
  · exact h.payments
  unfold Writes at h
  split at h <;> try cases hl
  · obtain ⟨order, -, h⟩ := h
    exact (confirmOrder_cases h).2.1
  · obtain ⟨cart, items, ctx, random, order, -, h⟩ := h
    exact (insertOrder_cases h).2.2.1
  · obtain ⟨note, h⟩ := h
    exact (transitionOrder_cases h).2.1
  · exact (convertCart_cases h).1
  · exact h.elim

inductive PaymentStep (l : ShopCall) (now : ℕ) (s s' : Shop) : Prop
  | same (hpayments : s'.payments = s.payments)
  | write (id : ℕ) (read : PaymentStatus) (write : PaymentWrite) (q : Payment)
      (hlabel : l = .payment (.update id read write)) (hq : s.payments.find? id = some q)
      (hpayments : s'.payments =
        s.payments.update id (applyWrite now · write) (key_applyWrite now write))
  | create (orderId : ℕ) (amount : ℚ) (mk : ℕ → Payment) (hmk : ∀ n, key (mk n) = n)
      (hlabel : l = .payment (.createPayment orderId amount))
      (hnew : ∀ n, (mk n).orderId = orderId ∧ (mk n).amount = amount ∧ (mk n).status = .pending)
      (horder : (s.orders.find? orderId).isSome) (hamount : 0 ≤ amount)
      (hpayments : s'.payments = s.payments.insert mk hmk)

theorem Effect.paymentStep {l : ShopCall} {now : ℕ} {s s' : Shop} (h : Effect l now s s') :
    PaymentStep l now s s' := by
  by_cases hk : keepsPayments l = true
  · exact .same (h.payments hk)
  rcases h with h | h
  · exact .same h.payments
  unfold Writes at h
  split at h <;> try exact (hk rfl).elim
  next id read write =>
    obtain ⟨p, h⟩ := h
    obtain ⟨q, hq, -, rfl⟩ := writePayment_cases h
    exact .write id read write q rfl hq rfl
  next =>
    obtain ⟨order, actorId, gatewayId, gatewayOrderId, dto, p, rfl, rfl, h⟩ := h
    obtain ⟨mk, hmk, hnew, horder, hamount, -, rfl⟩ := insertPayment_cases h
    exact .create order.id dto.amount mk hmk rfl hnew horder hamount rfl
  next => exact h.elim

theorem Effect.cartItems {l : ShopCall} {now : ℕ} {s s' : Shop} (h : Effect l now s s') :
    s'.cartItems = s.cartItems := by
  rcases h with h | h
  · exact h.cartItems
  unfold Writes at h
  split at h
  · obtain ⟨p, h⟩ := h
    obtain ⟨q, -, -, rfl⟩ := writePayment_cases h
    rfl
  · obtain ⟨order, actorId, gatewayId, gatewayOrderId, dto, p, -, -, h⟩ := h
    obtain ⟨mk, hmk, -, -, -, -, rfl⟩ := insertPayment_cases h
    rfl
  · obtain ⟨order, -, h⟩ := h
    simp only [Payments.confirmOrder, bind_eq_ok] at h
    obtain ⟨-, -, h⟩ := h
    cases hc : order.cartId with
    | none =>
      simp only [hc, pure_eq_ok, Prod.mk.injEq] at h
      obtain ⟨-, rfl⟩ := h
      rfl
    | some cartId =>
      simp only [hc, bind_eq_ok, pure_eq_ok, Prod.mk.injEq] at h
      obtain ⟨-, -, -, rfl⟩ := h
      rfl
  · obtain ⟨cart, items, ctx, random, order, -, h⟩ := h
    simp only [insertOrder, bind_eq_ok, check_eq_ok, pure_eq_ok, Prod.mk.injEq] at h
    obtain ⟨-, -, -, -, -, -, t, ht, -, rfl⟩ := h
    obtain ⟨T, rfl⟩ := insertOrderItems_cases ht
    rfl
  · obtain ⟨note, h⟩ := h
    simp only [transitionOrder, bind_eq_ok, pure_eq_ok, Prod.mk.injEq] at h
    obtain ⟨-, -, -, rfl⟩ := h
    rfl
  · simp only [convertCart, bind_eq_ok, pure_eq_ok, Prod.mk.injEq] at h
    obtain ⟨-, -, -, rfl⟩ := h
    rfl
  · exact h.elim

/-- The labels but the confirmation after a capture. -/
def unconfirming : ShopCall → Bool
  | .payment (.confirmOrder _) => false
  | _ => true

theorem Effect.carts {l : ShopCall} {now : ℕ} {s s' : Shop} (hl : unconfirming l = true)
    (h : Effect l now s s') : s'.carts = s.carts ∨ ∃ cartId, l = .order (.markConverted cartId) ∧
      s'.carts = s.carts.update cartId Cart.convert key_convert := by
  rcases h with h | h
  · exact .inl h.carts
  unfold Writes at h
  split at h
  · obtain ⟨p, h⟩ := h
    obtain ⟨q, -, -, rfl⟩ := writePayment_cases h
    exact .inl rfl
  · obtain ⟨order, actorId, gatewayId, gatewayOrderId, dto, p, -, -, h⟩ := h
    obtain ⟨mk, hmk, -, -, -, -, rfl⟩ := insertPayment_cases h
    exact .inl rfl
  · cases hl
  · obtain ⟨cart, items, ctx, random, order, -, h⟩ := h
    exact .inl (insertOrder_cases h).2.2.2
  · obtain ⟨note, h⟩ := h
    exact .inl (transitionOrder_cases h).2.2.1
  · exact .inr ⟨_, rfl, (convertCart_cases h).2.2⟩
  · exact h.elim

/-- Every call has a label in `S` and the effect of its label. -/
def Calls {α : Type} (S : ShopCall → Bool) (p : ShopProg α) : Prop :=
  p.Every (fun _ _ _ => True) fun l i s s' => S l = true ∧ Effect l i.now s s'

variable {α β : Type} {S S' : ShopCall → Bool}

namespace Calls

theorem mono {p : ShopProg α} (hS : ∀ l, S l = true → S' l = true) (h : Calls S p) : Calls S' p :=
  Prog.Every.mono (fun _ _ _ _ _ h => ⟨hS _ h.1, h.2⟩) h

theorem routine {p : ShopProg α} (h : Calls quiet p) : Calls routine p :=
  h.mono fun _ => routine_of_quiet

theorem amending {p : ShopProg α} (h : Calls quiet p) : Calls amending p :=
  h.mono fun _ => amending_of_quiet

theorem ofAmending {p : ShopProg α} (h : Calls ElectronicsCart.amending p) :
    Calls ElectronicsCart.routine p :=
  h.mono fun _ => routine_of_amending

theorem settling {p : ShopProg α} (h : Calls ElectronicsCart.amending p) :
    Calls ElectronicsCart.settling p :=
  h.mono fun _ => settling_of_amending

theorem keeping {p : ShopProg α} (h : Calls quiet p) : Calls keepsPayments p :=
  h.mono fun _ => keepsPayments_of_quiet

theorem passive {p : ShopProg α} (h : Calls ElectronicsCart.routine p) : Calls ElectronicsCart.passive p :=
  h.mono fun _ => passive_of_routine

theorem capturing {p : ShopProg α} (h : Calls ElectronicsCart.routine p) :
    Calls ElectronicsCart.capturing p :=
  h.mono fun _ => capturing_of_routine

theorem query {l : ShopCall} {f : ShopInput → Shop → β} (hl : S l = true) :
    Calls S (query l f) :=
  every_query fun _ s _ => ⟨hl, .inl (.refl s)⟩

theorem atomic {l : ShopCall} {f : ShopInput → Shop → Except Failure (β × Shop)}
    (hl : S l = true) (h : ∀ i s b s', f i s = .ok (b, s') → Effect l i.now s s') :
    Calls S (atomic l f) :=
  every_atomic (fun _ s _ => ⟨hl, .inl (.refl s)⟩) fun i s b s' _ _ hf => ⟨hl, h i s b s' hf⟩

theorem bind {p : ShopProg α} {f : α → ShopProg β} (hp : Calls S p) (hf : ∀ a, Calls S (f a)) :
    Calls S (p.bind f) :=
  Prog.Every.bind hp hf

theorem queryBind {l : ShopCall} {f : ShopInput → Shop → β} {k : β → ShopProg α} (hl : S l = true)
    (hk : ∀ i s, Calls S (k (f i s))) : Calls S ((ElectronicsCart.query l f).bind k) :=
  every_queryBind fun i s _ => ⟨⟨hl, .inl (.refl s)⟩, hk i s⟩

theorem attempt {p : ShopProg α} (hp : Calls S p) : Calls S p.attempt := Prog.Every.attempt hp

theorem withLock {key : ShopLock} {token : ℕ} {p : ShopProg α}
    (hacq : S (.acquire key token) = true) (hrel : S (.release key token) = true)
    (hp : Calls S p) : Calls S (LockService.withLock key token p) := by
  refine LockService.every_withLock ?_ hp
  rintro l i m s (rfl | rfl) -
  · exact ⟨⟨hacq, .inl (.refl s)⟩, hacq, .inl ⟨rfl, rfl, rfl, rfl, rfl⟩⟩
  · exact ⟨⟨hrel, .inl (.refl s)⟩, hrel, .inl ⟨rfl, rfl, rfl, rfl, rfl⟩⟩

theorem tryCatch {p : ShopProg α} {h : Failure → ShopProg α} (hp : Calls S p)
    (hh : ∀ e, Calls S (h e)) : Calls S (p.attempt.bind (Prog.orElse h)) :=
  Prog.Every.tryCatch hp hh

theorem ensure (c : Prop) [Decidable c] (e : Failure) : Calls S (Prog.ensure c e) := trivial

theorem orThrow (e : Failure) (o : Option α) : Calls S (Prog.orThrow e o) :=
  Prog.every_orThrow e o

theorem pure (a : α) : Calls S (pure a) := trivial

theorem throw (e : Failure) : Calls S (throw e : ShopProg α) := trivial

end Calls

/-! ### Programs that leave the tables alone -/

theorem calls_gatewayCall (request : GatewayRequest) : Calls quiet (gatewayCall request) := by
  refine Prog.every_call fun i s _ => ⟨rfl, .inl ?_⟩
  split <;> exact ⟨rfl, rfl, rfl, rfl, rfl⟩

theorem calls_withRetry {p : ShopProg α} (hp : Calls S p) : ∀ n, Calls S (withRetry p n)
  | 0 => hp
  | n + 1 => by
    refine Calls.tryCatch hp fun err => ?_
    split
    · exact calls_withRetry hp n
    · exact .throw err

theorem calls_findPayment (id : ℕ) : Calls quiet (findPayment id) := .query rfl

theorem calls_requirePayment (action : Option PaymentAction) (id : ℕ) :
    Calls quiet (requirePayment action id) :=
  Calls.bind (.query rfl) fun found => .orThrow _ found

theorem calls_createAttempt (id n : ℕ) (status : PaymentStatus) (message : Option String) :
    Calls quiet (createAttempt id n status message) := by
  refine .atomic rfl fun i s b s' h => .inl ?_
  simp only [insertAttempt, bind_eq_ok, check_eq_ok, pure_eq_ok, Prod.mk.injEq] at h
  obtain ⟨-, -, -, rfl⟩ := h
  exact ⟨rfl, rfl, rfl, rfl, rfl⟩

theorem calls_createTransaction (id : ℕ) (type : PaymentTxType) (amount : ℚ)
    (reference : Option String) : Calls quiet (createTransaction id type amount reference) := by
  refine .atomic rfl fun i s b s' h => .inl ?_
  cases h
  exact ⟨rfl, rfl, rfl, rfl, rfl⟩

theorem calls_audit (id : ℕ) (action : String) (actorId : Option ℕ) (a b : Option PaymentStatus) :
    Calls quiet (audit id action actorId a b) := by
  refine .atomic rfl fun i s b s' h => .inl ?_
  cases h
  exact ⟨rfl, rfl, rfl, rfl, rfl⟩

theorem calls_createEvent (id : ℕ) (event : String) : Calls quiet (createEvent id event) := by
  refine .atomic rfl fun i s b s' h => .inl ?_
  cases h
  exact ⟨rfl, rfl, rfl, rfl, rfl⟩

theorem calls_enqueue : Calls quiet enqueue := by
  refine .atomic rfl fun i s b s' h => .inl ?_
  cases h
  exact .refl s

theorem calls_findOrder (id : ℕ) : Calls quiet (findOrder id) := .query rfl

theorem calls_findGateway : Calls quiet findGateway := by
  refine Calls.bind (.query rfl) fun primary => ?_
  cases primary with
  | some g => exact .pure _
  | none => exact .query rfl

theorem calls_nextAttemptNumber (id : ℕ) : Calls quiet (nextAttemptNumber id) := .query rfl

/-! ### Payments -/

theorem calls_updatePayment {id : ℕ} {read : PaymentStatus} {write : PaymentWrite}
    (hl : S (.payment (.update id read write)) = true) : Calls S (updatePayment id read write) :=
  .atomic hl fun _ _ p _ h => .inr ⟨p, h⟩

theorem calls_create (actorId : ℕ) (dto : CreatePaymentDto) : Calls routine (create actorId dto) := by
  refine (calls_findOrder _).routine.bind fun found => (Calls.orThrow _ _).bind fun order => ?_
  refine (Calls.ensure _ _).bind fun _ => (Calls.ensure _ _).bind fun _ => ?_
  refine calls_findGateway.routine.bind fun found => (Calls.orThrow _ _).bind fun gateway => ?_
  refine (calls_withRetry (calls_gatewayCall _) _).routine.bind fun gwOrder => ?_
  refine Calls.bind (.atomic rfl fun i s p s' h => .inr ?_) fun payment => ?_
  · exact ⟨order, actorId, gateway.id, gwOrder.gatewayOrderId, dto, p, rfl, rfl, h⟩
  · refine (calls_createAttempt _ _ _ _).routine.bind fun _ => ?_
    exact (calls_audit _ _ _ _ _).routine.bind fun _ =>
      (calls_createEvent _ _).routine.bind fun _ => .pure _

theorem calls_markFailed (payment : Payment) (actorId : ℕ) (reason : String) :
    Calls amending (markFailed payment actorId reason) :=
  (calls_updatePayment rfl).bind fun _ => (calls_audit _ _ _ _ _).amending.bind fun _ => .throw _

theorem calls_authorizeWithGateway (payment : Payment) (actorId attemptNo : ℕ) :
    Calls amending (authorizeWithGateway payment actorId attemptNo) := by
  refine (Calls.orThrow _ _).bind fun gatewayOrderId => ?_
  refine (calls_withRetry (calls_gatewayCall _) _).amending.bind fun result => ?_
  split
  · exact (calls_createAttempt _ _ _ _).amending.bind fun _ => .pure _
  split
  · exact .pure _
  · refine (calls_updatePayment rfl).bind fun _ => ?_
    refine (calls_createTransaction _ _ _ _).amending.bind fun _ => ?_
    refine (calls_createAttempt _ _ _ _).amending.bind fun _ => ?_
    exact (calls_audit _ _ _ _ _).amending.bind fun _ =>
      (calls_createEvent _ _).amending.bind fun _ => .pure _

theorem calls_authorizePayment (payment : Payment) (actorId : ℕ) :
    Calls amending (authorizePayment payment actorId) := by
  refine (calls_nextAttemptNumber _).amending.bind fun attemptNo => ?_
  refine Calls.bind (Calls.tryCatch (calls_authorizeWithGateway _ _ _) fun err => ?_) fun outcome => ?_
  · exact (calls_createAttempt _ _ _ _).amending.bind fun _ => .throw err
  · cases outcome with
    | some updated => exact .pure _
    | none => exact calls_markFailed _ _ _

theorem calls_authorize (token id actorId : ℕ) (asAdmin : Bool) :
    Calls amending (authorize token id actorId asAdmin) := by
  refine .withLock rfl rfl ((calls_requirePayment _ _).amending.bind fun payment => ?_)
  refine (Calls.ensure _ _).bind fun _ => (Calls.ensure _ _).bind fun _ => ?_
  exact calls_authorizePayment payment actorId

theorem calls_cancelPayment (payment : Payment) (actorId : ℕ) :
    Calls amending (cancelPayment payment actorId) := by
  refine (calls_gatewayCall _).amending.bind fun _ => (calls_updatePayment rfl).bind fun _ => ?_
  refine (calls_createTransaction _ _ _ _).amending.bind fun _ => ?_
  exact (calls_audit _ _ _ _ _).amending.bind fun _ =>
    (calls_createEvent _ _).amending.bind fun _ => .pure _

theorem calls_cancel (token id actorId : ℕ) (asAdmin : Bool) :
    Calls amending (cancel token id actorId asAdmin) := by
  refine .withLock rfl rfl ((calls_requirePayment _ _).amending.bind fun payment => ?_)
  refine (Calls.ensure _ _).bind fun _ => ?_
  split
  · exact .pure _
  · exact (Calls.ensure _ _).bind fun _ => calls_cancelPayment payment actorId

theorem calls_voidOrCancel (token id actorId : ℕ) :
    Calls amending (voidOrCancel token id actorId) := by
  refine (calls_findPayment id).amending.bind fun found => ?_
  cases found with
  | none => exact .pure _
  | some payment =>
    dsimp only
    split
    · exact .pure _
    · exact (calls_cancel _ _ _ _).attempt.bind fun _ => .pure _

theorem calls_reopen (payment : Payment) : Calls routine (reopen payment) := by
  unfold reopen
  split
  · exact (calls_updatePayment rfl).bind fun _ => .pure _
  · exact .pure _

theorem calls_confirmPendingOrder {S : ShopCall → Bool} (orderId : ℕ)
    (hread : S (.payment (.findOrder orderId)) = true)
    (hwrite : S (.payment (.confirmOrder orderId)) = true) :
    Calls S (confirmPendingOrderAfterCapture orderId) := by
  refine Calls.queryBind hread fun i s => ?_
  cases hf : (s.orders.find? orderId).filter fun o => !o.deleted with
  | none => exact .pure _
  | some order =>
    have hid : order.id = orderId := (Table.find?_mem (Option.filter_eq_some_iff.mp hf).1).2
    dsimp only
    split
    · exact .pure _
    · refine Calls.bind (Calls.attempt (.atomic hwrite fun i s b s' h => .inr ?_)) fun _ => .pure _
      exact ⟨order, hid, h⟩

theorem calls_confirmAfterCapture {S : ShopCall → Bool} {cfg : PaymentConfig} {orderId : ℕ}
    (hread : S (.payment (.findOrder orderId)) = true)
    (hwrite : cfg.needsPostCaptureOrderConfirm = true → S (.payment (.confirmOrder orderId)) = true) :
    Calls S (confirmAfterCapture cfg orderId) := by
  unfold confirmAfterCapture
  split
  next hcfg => exact calls_confirmPendingOrder orderId hread (hwrite hcfg)
  next => exact .pure _

theorem calls_captureZero {S : ShopCall → Bool} (payment : Payment) (actorId : ℕ)
    (hS : ∀ l, quiet l = true → S l = true)
    (hl : S (.payment (.update payment.id payment.status .captureZero)) = true) :
    Calls S (captureZero payment actorId) :=
  (calls_updatePayment hl).bind fun _ => ((calls_audit _ _ _ _ _).mono hS).bind fun _ => .pure _

/-- The labels of `capture`, which confirms the order only where the client captures. -/
structure Captures (cfg : PaymentConfig) (S : ShopCall → Bool) : Prop where
  amending : ∀ l, amending l = true → S l = true
  capture : ∀ id read, S (.payment (.update id read .capture)) = true
  captureZero : ∀ id read, S (.payment (.update id read .captureZero)) = true
  confirm : cfg.needsPostCaptureOrderConfirm = true → ∀ id, S (.payment (.confirmOrder id)) = true

theorem captures_settling (cfg : PaymentConfig) : Captures cfg settling :=
  ⟨fun _ => settling_of_amending, fun _ _ => rfl, fun _ _ => rfl, fun _ _ => rfl⟩

section Capture

variable {cfg : PaymentConfig} (hS : Captures cfg S)
include hS

theorem calls_recordCapture (payment : Payment) (actorId : ℕ) (reference : String) :
    Calls S (recordCapture cfg payment actorId reference) := by
  refine (calls_updatePayment (hS.capture _ _)).bind fun _ => ?_
  refine ((calls_createTransaction _ _ _ _).amending.mono hS.amending).bind fun _ => ?_
  refine ((calls_audit _ _ _ _ _).amending.mono hS.amending).bind fun _ => ?_
  refine ((calls_createEvent _ _).amending.mono hS.amending).bind fun _ => ?_
  refine (calls_confirmAfterCapture (hS.amending _ rfl) fun h => hS.confirm h _).bind fun _ => ?_
  exact (calls_enqueue.amending.mono hS.amending).bind fun _ => .pure _

theorem calls_capturePayment (payment : Payment) (actorId : ℕ) :
    Calls S (capturePayment cfg payment actorId) := by
  unfold capturePayment
  split
  · split
    · exact calls_captureZero _ _ (fun _ h => hS.amending _ (amending_of_quiet h))
        (hS.captureZero _ _)
    · exact .throw _
  · refine ((calls_withRetry (calls_gatewayCall _) _).amending.mono hS.amending).bind fun result => ?_
    split
    · exact (calls_markFailed _ _ _).mono hS.amending
    · exact calls_recordCapture hS _ _ _

theorem calls_captureOf (token id actorId : ℕ) (asAdmin : Bool) :
    Calls S (capture cfg token id actorId asAdmin) := by
  refine .withLock (hS.amending _ rfl) (hS.amending _ rfl) ?_
  refine ((calls_requirePayment _ _).amending.mono hS.amending).bind fun payment => ?_
  refine (Calls.ensure _ _).bind fun _ => ?_
  split
  · exact .pure _
  · exact (Calls.ensure _ _).bind fun _ => calls_capturePayment hS _ _

end Capture

theorem calls_capture (cfg : PaymentConfig) (token id actorId : ℕ) (asAdmin : Bool) :
    Calls settling (capture cfg token id actorId asAdmin) :=
  calls_captureOf (captures_settling cfg) token id actorId asAdmin

/-! ### Webhooks -/

theorem calls_findWebhookPayment (entity : Option WebhookEntity) :
    Calls quiet (findWebhookPayment entity) := by
  refine Calls.bind ?_ fun found => ?_
  · unfold findNamedPayment
    split
    · exact .pure _
    · exact .query rfl
  · split
    · exact .pure _
    · exact .query rfl
    · exact .pure _

theorem calls_markWebhook (id : ℕ) (status : WebhookProcessingStatus) (err : Option Failure) :
    Calls quiet (markWebhook id status err) := by
  refine .atomic rfl fun i s b s' h => .inl ?_
  simp only [bind_eq_ok, existing_eq_ok, pure_eq_ok, Prod.mk.injEq] at h
  obtain ⟨-, -, -, rfl⟩ := h
  exact ⟨rfl, rfl, rfl, rfl, rfl⟩

theorem calls_applyWebhook (row : PaymentWebhook) (payment : Payment) :
    Calls passive (applyWebhook row payment) := by
  unfold applyWebhook
  split
  · exact .pure _
  · refine Calls.bind ?_ fun _ => .pure _
    refine (calls_requirePayment _ _).routine.passive.bind fun _ => (calls_updatePayment rfl).bind fun _ => ?_
    exact (calls_audit _ _ _ _ _).routine.passive.bind fun _ =>
      (calls_createEvent _ _).routine.passive.bind fun _ => .pure _

theorem calls_handleWebhook (row : PaymentWebhook) : Calls passive (handleWebhook row) := by
  refine (calls_findWebhookPayment _).routine.passive.bind fun payment => Calls.bind ?_ fun _ =>
    (calls_markWebhook _ _ _).routine.passive
  cases payment with
  | none => exact .pure _
  | some payment => exact (calls_applyWebhook _ _).bind fun _ => (calls_audit _ _ _ _ _).routine.passive

theorem calls_processWebhook (id : ℕ) : Calls passive (processWebhook id) := by
  refine Calls.bind (.query rfl) fun found => ?_
  split
  · exact .pure _
  · split
    · exact .pure _
    · refine Calls.tryCatch (calls_handleWebhook _) fun err => ?_
      exact (calls_markWebhook _ _ _).routine.passive.bind fun _ => .throw err

/-! ### Refunds -/

theorem calls_createRefund (payment : Payment) (actorId : ℕ) (dto : RefundPaymentDto) :
    Calls quiet (atomic (.payment (.createRefund payment.id dto.amount)) fun i s =>
      insertRefund payment actorId dto i.now i.reply.random s) := by
  refine .atomic rfl fun i s b s' h => .inl ?_
  simp only [insertRefund, bind_eq_ok, check_eq_ok, pure_eq_ok, Prod.mk.injEq] at h
  obtain ⟨-, -, -, -, -, rfl⟩ := h
  exact ⟨rfl, rfl, rfl, rfl, rfl⟩

theorem insertRefundItems_same {refundId : ℕ} {items : List RefundItemDto} {s s' : Shop}
    (h : insertRefundItems refundId items s = .ok s') : SameLedger s s' := by
  induction items generalizing s with
  | nil =>
    cases h
    exact .refl _
  | cons item items ih =>
    simp only [insertRefundItems, bind_eq_ok, check_eq_ok] at h
    obtain ⟨-, -, h⟩ := h
    have hrest := ih h
    exact ⟨hrest.payments, hrest.orders, hrest.carts, hrest.history, hrest.cartItems⟩

theorem calls_createRefundItems (id : ℕ) (items : List RefundItemDto) :
    Calls quiet (createRefundItems id items) := by
  unfold createRefundItems
  split
  · exact .pure _
  · refine .atomic rfl fun i s b s' h => .inl ?_
    simp only [bind_eq_ok, pure_eq_ok, Prod.mk.injEq] at h
    obtain ⟨u, hu, -, rfl⟩ := h
    exact insertRefundItems_same hu

theorem calls_updateRefund (id : ℕ) (status : RefundStatus) (gatewayRefundId reason : Option String) :
    Calls quiet (updateRefund id status gatewayRefundId reason) := by
  refine .atomic rfl fun i s b s' h => .inl ?_
  simp only [writeRefund, bind_eq_ok, existing_eq_ok, pure_eq_ok, Prod.mk.injEq] at h
  obtain ⟨-, -, -, rfl⟩ := h
  exact ⟨rfl, rfl, rfl, rfl, rfl⟩

end ElectronicsCart
