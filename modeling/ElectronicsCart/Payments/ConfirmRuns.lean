import ElectronicsCart.Lib.Debts
import ElectronicsCart.Shop.Effects

/-!
# Confirmation of the order after a capture

In client-capture mode a checkout leaves its order pending; step 7 of `PaymentFlow.md` confirms
it once the payment is captured.  `capture` does so after the gateway captured, in calls of its
own; the branch for an amount of zero and the webhooks only write the status, and a later
`capture` of a captured payment returns at once.

The runs are any interleavings of captures, retries and webhooks.  Between the write of the
status and the confirmation the order is owed its confirmation by the thread that wrote.
-/

namespace ElectronicsCart.Payments

open Interleaving Relational Orders

def Confirmed (orderId : ℕ) (s : Shop) : Prop :=
  ∃ o, s.orders.find? orderId = some o ∧ o.status = .confirmed ∧
    ∀ c, o.cartId = some c → ∃ cart, s.carts.find? c = some cart ∧ cart.status = .converted

/-- Payment `x` belongs to the order `oid` with the cart `cid`, which is there and is pending or
confirmed. -/
structure Placed (x oid : ℕ) (cid : Option ℕ) (s : Shop) : Prop where
  payment : ∃ p, s.payments.find? x = some p ∧ p.orderId = oid
  cart : ∀ c, cid = some c → ∃ cart, s.carts.find? c = some cart
  order : ∃ o, s.orders.find? oid = some o ∧ o.deleted = false ∧ o.cartId = cid ∧
    (o.status = .pending ∨ Confirmed oid s)

/-- The payment is captured and its order not confirmed. -/
def Due (x oid : ℕ) (s : Shop) : Prop :=
  (∃ p, s.payments.find? x = some p ∧ p.status = .captured) ∧ ¬ Confirmed oid s

/-! ### What the calls do -/

def keepsOrders : ShopCall → Bool
  | .payment (.confirmOrder _) => false
  | .order (.transitionStatus _ _ _) => false
  | _ => true

theorem keepsOrders_of_passive {l : ShopCall} (h : passive l = true) : keepsOrders l = true := by
  unfold keepsOrders
  split <;> first | exact h | rfl

/-- Orders and carts stay, and a cart can only become converted. -/
structure OrdersKept (s s' : Shop) : Prop where
  orders : ∀ id o, s.orders.find? id = some o → s'.orders.find? id = some o
  carts : ∀ id c, s.carts.find? id = some c → ∃ c', s'.carts.find? id = some c' ∧
    (c.status = .converted → c'.status = .converted)

theorem carts_update {s : Shop} {id : ℕ} {c : Cart} (cartId : ℕ) (h : s.carts.find? id = some c) :
    ∃ c', (s.carts.update cartId Cart.convert key_convert).find? id = some c' ∧
      (c.status = .converted → c'.status = .converted) ∧ (id = cartId → c'.status = .converted) := by
  by_cases hid : id = cartId
  · subst hid
    exact ⟨_, Table.find?_update_self key_convert h, fun _ => rfl, fun _ => rfl⟩
  · exact ⟨c, (Table.find?_update_ne key_convert hid).trans h, fun h => h, fun h => (hid h).elim⟩

theorem ordersKept_of_effect {l : ShopCall} {now : ℕ} {s s' : Shop} (hl : keepsOrders l = true)
    (he : Effect l now s s') : OrdersKept s s' := by
  have hsame : s'.orders = s.orders → s'.carts = s.carts → OrdersKept s s' := fun ho hc =>
    ⟨fun id o h => by rw [ho, h], fun id c h => ⟨c, by rw [hc, h], fun h => h⟩⟩
  rcases he with h | h
  · exact hsame h.orders h.carts
  unfold Writes at h
  split at h <;> try cases hl
  · obtain ⟨p, h⟩ := h
    obtain ⟨q, -, -, rfl⟩ := writePayment_cases h
    exact hsame rfl rfl
  · obtain ⟨order, actorId, gatewayId, gatewayOrderId, dto, p, -, -, h⟩ := h
    obtain ⟨mk, hmk, -, -, -, -, rfl⟩ := insertPayment_cases h
    exact hsame rfl rfl
  · obtain ⟨cart, items, ctx, random, order, -, h⟩ := h
    obtain ⟨-, ho, -, hc⟩ := insertOrder_cases h
    refine ⟨fun id o h => ?_, fun id c h => ⟨c, by rw [hc, h], fun h => h⟩⟩
    rw [ho]
    exact Table.find?_insert_of_some _ h
  · obtain ⟨-, ho, hc⟩ := convertCart_cases h
    refine ⟨fun id o h => by rw [ho, h], fun id c h => ?_⟩
    obtain ⟨c', hc', hconv, -⟩ := carts_update _ h
    exact ⟨c', by rw [hc, hc'], hconv⟩
  · exact h.elim

theorem OrdersKept.confirmed {oid : ℕ} {s s' : Shop} (h : OrdersKept s s') (hc : Confirmed oid s) :
    Confirmed oid s' := by
  obtain ⟨o, ho, hst, hcart⟩ := hc
  refine ⟨o, h.orders oid o ho, hst, fun c hoc => ?_⟩
  obtain ⟨cart, hf, hconv⟩ := hcart c hoc
  obtain ⟨cart', hf', hkeep⟩ := h.carts c cart hf
  exact ⟨cart', hf', hkeep hconv⟩

theorem payment_of_effect {l : ShopCall} {now x oid : ℕ} {s s' : Shop} (he : Effect l now s s')
    (h : ∃ p, s.payments.find? x = some p ∧ p.orderId = oid) :
    ∃ p, s'.payments.find? x = some p ∧ p.orderId = oid := by
  obtain ⟨p, hp, hoid⟩ := h
  cases he.paymentStep with
  | same hpayments => exact ⟨p, by rw [hpayments, hp], hoid⟩
  | write id read write q hlabel hq hpayments =>
    rw [hpayments]
    by_cases hid : x = id
    · subst hid
      exact ⟨_, Table.find?_update_self (key_applyWrite now write) hp, by simpa using hoid⟩
    · exact ⟨p, (Table.find?_update_ne (key_applyWrite now write) hid).trans hp, hoid⟩
  | create orderId amount mk hmk hlabel hnew horder hamount hpayments =>
    exact ⟨p, by rw [hpayments, Table.find?_insert_of_some hmk hp], hoid⟩

/-! ### Captures through the gateway -/

/-- The locks, the queue and the gateway are outside the database. -/
def inDatabase : ShopCall → Bool
  | .acquire _ _ => false
  | .release _ _ => false
  | .payment .enqueue => false
  | .payment (.gateway _) => false
  | _ => true

/-- No database call fails, and the payment becomes captured neither by the branch for an amount
of zero nor by a webhook. -/
def ThroughGateway (x : ℕ) (l : ShopCall) (i : ShopInput) (s : Shop) : Prop :=
  (inDatabase l = true → i.fails = false) ∧
    match l with
    | .payment (.update id _ .captureZero) => id ≠ x
    | .payment (.update id _ (.webhook .captured _)) =>
      id = x → (s.payments.find? x).all (fun p => p.status == .captured) = true
    | _ => True

def throughGateway (x : ℕ) (s : Shop) (id : ℕ) : PaymentWrite → Bool
  | .captureZero => id != x
  | .webhook .captured _ => id != x || (s.payments.find? x).all fun p => p.status == .captured
  | _ => true

theorem onWrites_throughGateway (x : ℕ) (l : ShopCall) (i : ShopInput) (s : Shop) :
    (inDatabase l = true → i.fails = false) ∧
      OnWrites (fun id _ write => throughGateway x s id write = true) l ↔ ThroughGateway x l i s := by
  refine and_congr_right' ?_
  unfold OnWrites
  split
  next id read write =>
    cases write with
    | webhook status gatewayPaymentId =>
      cases status <;> simp [throughGateway, imp_iff_not_or]
    | _ => simp [throughGateway]
  next hl => split <;> simp_all

instance (x : ℕ) (l : ShopCall) (i : ShopInput) (s : Shop) : Decidable (ThroughGateway x l i s) :=
  decidable_of_iff _ (onWrites_throughGateway x l i s)

section Confirming

variable {x oid : ℕ} {cid : Option ℕ} {s s' : Shop}

theorem Placed.effect {l : ShopCall} {now : ℕ} (hl : keepsOrders l = true)
    (he : Effect l now s s') (h : Placed x oid cid s) : Placed x oid cid s' := by
  have hkept := ordersKept_of_effect hl he
  obtain ⟨o, ho, hdel, hcart, hst⟩ := h.order
  refine ⟨payment_of_effect he h.payment, fun c hc => ?_, ?_⟩
  · obtain ⟨cart, hf⟩ := h.cart c hc
    obtain ⟨cart', hf', -⟩ := hkept.carts c cart hf
    exact ⟨cart', hf'⟩
  · exact ⟨o, hkept.orders oid o ho, hdel, hcart, hst.imp_right hkept.confirmed⟩

theorem due_of_effect {l : ShopCall} {i : ShopInput} {now : ℕ}
    (hl : passive l = true ∨ ∃ id read, id ≠ x ∧ l = .payment (.update id read .capture))
    (hok : ThroughGateway x l i s) (he : Effect l now s s') (hp : Placed x oid cid s)
    (hd : Due x oid s') : Due x oid s := by
  have hkeeps : keepsOrders l = true := by
    rcases hl with hl | ⟨id, read, -, rfl⟩
    · exact keepsOrders_of_passive hl
    · rfl
  obtain ⟨⟨p', hp', hst⟩, hnot⟩ := hd
  refine ⟨?_, fun hc => hnot ((ordersKept_of_effect hkeeps he).confirmed hc)⟩
  cases he.paymentStep with
  | same hpayments => exact ⟨p', by rw [← hpayments, hp'], hst⟩
  | write id read write q hlabel hq hpayments =>
    subst hlabel
    rw [hpayments] at hp'
    by_cases hid : x = id
    · subst hid
      rw [Table.find?_update_self (key_applyWrite now write) hq] at hp'
      obtain rfl := Option.some.inj hp'
      rw [status_applyWrite] at hst
      refine ⟨q, hq, ?_⟩
      cases write with
      | authorize gatewayPaymentId signature => cases hst
      | capture =>
        rcases hl with hl | ⟨id, read', hne, hl⟩
        · cases hl
        · cases hl
          exact (hne rfl).elim
      | captureZero => exact (hok.2 rfl).elim
      | cancel => cases hst
      | fail => cases hst
      | reopen => cases hst
      | webhook status gatewayPaymentId =>
        obtain rfl : status = .captured := hst
        have halready := hok.2 rfl
        rw [hq] at halready
        simpa using halready
      | refund amount status => rcases hl with hl | ⟨id, read', -, hl⟩ <;> cases hl
    · rw [Table.find?_update_ne (key_applyWrite now write) hid] at hp'
      exact ⟨p', hp', hst⟩
  | create orderId amount mk hmk hlabel hnew horder hamount hpayments =>
    rw [hpayments] at hp'
    obtain ⟨p, hp, -⟩ := hp.payment
    have heq : p' = p := Option.some.inj (hp'.symm.trans (Table.find?_insert_of_some hmk hp))
    exact ⟨p, hp, heq ▸ hst⟩

def Admitted (x oid : ℕ) (cid : Option ℕ) (l : ShopCall) (i : ShopInput) (s : Shop) : Prop :=
  ThroughGateway x l i s ∧ Placed x oid cid s

/-- The program keeps the payment placed and confirms what it captures. -/
structure Confirms {α : Type} (x oid : ℕ) (cid : Option ℕ) (p : ShopProg α) : Prop where
  placed : p.Every (Admitted x oid cid) fun _ _ _ t' => Placed x oid cid t'
  pays : p.Pays (Admitted x oid cid) (Due x oid)

variable {α β : Type}

theorem Confirms.of_calls {p : ShopProg α} (hp : Calls passive p) : Confirms x oid cid p := by
  refine ⟨Prog.Every.imp (fun _ _ _ _ => trivial) ?_ hp,
    Prog.Pays.of_every (Prog.Every.imp (fun _ _ _ _ => trivial) ?_ hp)⟩
  · rintro l i t t' ⟨-, hplaced⟩ ⟨hl, he⟩
    exact hplaced.effect (keepsOrders_of_passive hl) he
  · rintro l i t t' ⟨hok, hplaced⟩ ⟨hl, he⟩ hd
    exact due_of_effect (.inl hl) hok he hplaced hd

theorem Confirms.quiet {p : ShopProg α} (hp : Calls quiet p) : Confirms x oid cid p :=
  .of_calls hp.routine.passive

theorem Confirms.bind {p : ShopProg α} {f : α → ShopProg β} (hp : Confirms x oid cid p)
    (hf : ∀ a, Confirms x oid cid (f a)) : Confirms x oid cid (p.bind f) :=
  ⟨hp.placed.bind fun a => (hf a).placed, hp.pays.bind fun a => (hf a).pays⟩

theorem Confirms.done (r : Except Failure α) : Confirms x oid cid (.done r : ShopProg α) :=
  ⟨trivial, trivial⟩

theorem Confirms.withLock {key : ShopLock} {token : ℕ} {p : ShopProg α}
    (hp : Confirms x oid cid p) : Confirms x oid cid (LockService.withLock key token p) := by
  have hacq : Calls ElectronicsCart.quiet (LockService.acquire key token : ShopProg Bool) := by
    refine .atomic rfl fun i s b s' h => .inl ?_
    rcases LockService.take_cases (Except.ok.inj h) with ⟨-, -, rfl⟩ | ⟨-, rfl⟩
    · exact ⟨rfl, rfl, rfl, rfl, rfl⟩
    · exact .refl _
  have hrel : Calls ElectronicsCart.quiet (LockService.release key token : ShopProg Unit) := by
    refine .atomic rfl fun i s b s' h => .inl ?_
    obtain ⟨-, rfl⟩ := Prod.mk.inj (Except.ok.inj h)
    rcases LockService.drop_cases (L := ShopCall) key token s with ⟨-, hd⟩ | hd
    · rw [hd]
      exact ⟨rfl, rfl, rfl, rfl, rfl⟩
    · rw [hd]
      exact .refl _
  refine (Confirms.quiet hacq).bind fun got => Confirms.bind ⟨trivial, trivial⟩ fun _ => ?_
  have hrel' : Confirms x oid cid _ := Confirms.quiet hrel
  exact ⟨hp.placed.andFinally hrel'.placed, hp.pays.andFinally hrel'.pays⟩

theorem Confirms.queryBind {l : ShopCall} {f : ShopInput → Shop → β} {k : β → ShopProg α}
    (hk : ∀ i t, Placed x oid cid t → Confirms x oid cid (k (f i t))) :
    Confirms x oid cid ((query l f).bind k) :=
  ⟨every_queryBind fun i t ho => ⟨ho.2, (hk i t ho.2).placed⟩,
    pays_queryBind fun i t ho => (hk i t ho.2).pays⟩

theorem Confirms.requireBind {action : Option PaymentAction} {id : ℕ} {k : Payment → ShopProg α}
    (hk : ∀ payment : Payment, (payment.id = x → payment.orderId = oid) →
      Confirms x oid cid (k payment)) :
    Confirms x oid cid ((requirePayment action id).bind k) := by
  simp only [requirePayment, findById, Prog.bind_eq, Prog.bind_assoc]
  refine Confirms.queryBind fun i t ht => ?_
  cases hf : (t.payments.find? id).filter fun p => !p.deleted with
  | none => exact .done _
  | some payment =>
    refine hk payment fun hx => ?_
    have hfind := (Option.filter_eq_some_iff.mp hf).1
    have hid : payment.id = id := (Table.find?_mem hfind).2
    obtain ⟨p, hp, hoid⟩ := ht.payment
    obtain rfl : p = payment := Option.some.inj (hp.symm.trans (by rw [← hx, hid, hfind]))
    exact hoid

/-! ### The confirmation -/

theorem confirmed_of_confirmOrder {order : Order} {now : ℕ} {u : Unit}
    (h : confirmOrder order now s = .ok (u, s')) (hc : Confirmed oid s) : Confirmed oid s' := by
  obtain ⟨-, -, ho, hcarts⟩ := confirmOrder_cases h
  obtain ⟨o, hfind, hst, hcart⟩ := hc
  have horder : ∃ o', s'.orders.find? oid = some o' ∧ o'.status = .confirmed ∧ o'.cartId = o.cartId := by
    rw [ho]
    by_cases hid : oid = order.id
    · subst hid
      exact ⟨_, Table.find?_update_self (key_setStatus _ _) hfind, rfl, rfl⟩
    · exact ⟨o, (Table.find?_update_ne (key_setStatus _ _) hid).trans hfind, hst, rfl⟩
  obtain ⟨o', ho', hst', hcid⟩ := horder
  refine ⟨o', ho', hst', fun c hoc => ?_⟩
  obtain ⟨cart, hf, hconv⟩ := hcart c (hcid ▸ hoc)
  rcases hcarts with ⟨-, hcarts⟩ | ⟨cartId, -, -, -, hcarts⟩
  · exact ⟨cart, by rw [hcarts, hf], hconv⟩
  · obtain ⟨cart', hf', hkeep, -⟩ := carts_update cartId hf
    exact ⟨cart', by rw [hcarts, hf'], hkeep hconv⟩

theorem confirmed_by_confirmOrder {order : Order} {now : ℕ} {u : Unit} (hp : Placed x oid cid s)
    (hid : order.id = oid) (hcid : order.cartId = cid) (h : confirmOrder order now s = .ok (u, s')) :
    Confirmed oid s' := by
  obtain ⟨-, -, ho, hcarts⟩ := confirmOrder_cases h
  obtain ⟨o, hfind, -, hocid, -⟩ := hp.order
  subst hid
  refine ⟨setStatus .confirmed now o, ?_, rfl, fun c hoc => ?_⟩
  · rw [ho]
    exact Table.find?_update_self (key_setStatus _ _) hfind
  have hc : cid = some c := hocid.symm.trans hoc
  rcases hcarts with ⟨hnone, -⟩ | ⟨cartId, cart, hsome, hf, hcarts⟩
  · rw [hcid, hc] at hnone
    cases hnone
  · rw [hcid, hc] at hsome
    cases hsome
    rw [hcarts]
    exact ⟨_, Table.find?_update_self key_convert hf, rfl⟩

theorem Placed.confirmOrder {order : Order} {now : ℕ} {u : Unit} (hp : Placed x oid cid s)
    (hcid : order.id = oid → order.cartId = cid) (h : confirmOrder order now s = .ok (u, s')) :
    Placed x oid cid s' := by
  obtain ⟨-, hpay, ho, hcarts⟩ := confirmOrder_cases h
  refine ⟨by rw [hpay]; exact hp.payment, fun c hc => ?_, ?_⟩
  · obtain ⟨cart, hf⟩ := hp.cart c hc
    rcases hcarts with ⟨-, hcarts⟩ | ⟨cartId, -, -, -, hcarts⟩
    · exact ⟨cart, by rw [hcarts, hf]⟩
    · obtain ⟨cart', hf', -⟩ := carts_update cartId hf
      exact ⟨cart', by rw [hcarts, hf']⟩
  · obtain ⟨o, hfind, hdel, hocid, hst⟩ := hp.order
    by_cases hid : order.id = oid
    · refine ⟨setStatus .confirmed now o, ?_, hdel, hocid,
        .inr (confirmed_by_confirmOrder hp hid (hcid hid) h)⟩
      rw [ho, hid]
      exact Table.find?_update_self (key_setStatus _ _) hfind
    · refine ⟨o, ?_, hdel, hocid, hst.imp_right (confirmed_of_confirmOrder h)⟩
      rw [ho]
      exact (Table.find?_update_ne (key_setStatus _ _) (Ne.symm hid)).trans hfind

theorem confirms_transaction {order : Order} (orderId : ℕ)
    (hcid : order.id = oid → order.cartId = cid) :
    Confirms x oid cid
      (atomic (.payment (.confirmOrder orderId)) fun i s => confirmOrder order i.now s) := by
  have hkeep : (atomic (.payment (.confirmOrder orderId)) fun i s =>
      confirmOrder order i.now s : ShopProg Unit).Every (Admitted x oid cid) fun _ _ t t' =>
        Placed x oid cid t' ∧ (Due x oid t' → Due x oid t) := by
    refine every_atomic (fun i t ho => ⟨ho.2, fun hd => hd⟩) fun i t u t' ho _ h => ?_
    refine ⟨ho.2.confirmOrder hcid h, fun hd => ⟨?_, fun hc => hd.2 (confirmed_of_confirmOrder h hc)⟩⟩
    rw [← (confirmOrder_cases h).2.1]
    exact hd.1
  exact ⟨hkeep.mono fun _ _ _ _ _ h => h.1, .of_every (hkeep.mono fun _ _ _ _ _ h => h.2)⟩

theorem read_order {orderId : ℕ} {order : Order} (hp : Placed x oid cid s)
    (h : (s.orders.find? orderId).filter (fun o => !o.deleted) = some order) :
    order.id = orderId ∧ (order.id = oid → order.cartId = cid) := by
  have hfind := (Option.filter_eq_some_iff.mp h).1
  have hid : order.id = orderId := (Table.find?_mem hfind).2
  refine ⟨hid, fun hoid => ?_⟩
  obtain ⟨o, ho, -, hocid, -⟩ := hp.order
  rw [← hoid, hid, hfind] at ho
  cases ho
  exact hocid

theorem confirms_confirmPendingOrder (orderId : ℕ) :
    Confirms x oid cid (confirmPendingOrderAfterCapture orderId) := by
  refine Confirms.queryBind fun i t ht => ?_
  cases hf : (t.orders.find? orderId).filter fun o => !o.deleted with
  | none => exact .done _
  | some order =>
    dsimp only
    split
    · exact .done _
    · have htx := confirms_transaction (x := x) orderId (read_order ht hf).2
      exact Confirms.bind ⟨htx.placed.attempt, htx.pays.attempt⟩ fun _ => .done _

theorem confirmOrder_succeeds {order : Order} (now : ℕ) (hp : Placed x oid cid s)
    (hid : order.id = oid) (hcid : order.cartId = cid) :
    ∃ t, confirmOrder order now s = .ok ((), t) := by
  obtain ⟨o, ho, -⟩ := hp.order
  subst hid
  cases hc : order.cartId with
  | none => exact ⟨_, by simp [confirmOrder, existing, ho, hc, bind, Except.bind, pure, Except.pure]; rfl⟩
  | some cartId =>
    obtain ⟨cart, hf⟩ := hp.cart cartId (hcid.symm.trans hc)
    exact ⟨_, by simp [confirmOrder, existing, ho, hc, hf, bind, Except.bind, pure, Except.pure]; rfl⟩

theorem reaches_confirmPendingOrder :
    (confirmPendingOrderAfterCapture oid).Reaches (Admitted x oid cid) fun t => ¬ Due x oid t := by
  refine Prog.reaches_callBind fun i t ho => ?_
  obtain ⟨o, hfind, hdel, hocid, hst⟩ := ho.2.order
  have hread : (t.orders.find? oid).filter (fun o => !o.deleted) = some o := by
    simp [hfind, hdel]
  refine ⟨some o, by simp [ho.1.1 rfl, hread], ?_⟩
  rcases hst with hpending | hconf
  · right
    simp only [hpending, ne_eq, not_true_eq_false, if_false]
    refine Prog.Reaches.bind (Prog.Reaches.attempt fun i' t' ho' => .inl ?_)
    have hid : o.id = oid := (Table.find?_mem hfind).2
    obtain ⟨u, hu⟩ := confirmOrder_succeeds i'.now ho'.2 hid hocid
    simp only [ho'.1.1 rfl, Bool.false_eq_true, if_false, hu, settle]
    exact fun hd => hd.2 (confirmed_by_confirmOrder ho'.2 hid hocid hu)
  · exact .inl fun hd => hd.2 hconf

/-! ### The calls -/

theorem reaches_after {l : ShopCall} {f : ShopInput → Shop → Except Failure (β × Shop)}
    {k : β → ShopProg α} {goal : Shop → Prop} (hl : inDatabase l = true)
    (h : ∀ i t, ∃ b t', f i t = .ok (b, t') ∧ (k b).Reaches (Admitted x oid cid) goal) :
    ((atomic l f).bind k).Reaches (Admitted x oid cid) goal := by
  refine reaches_atomicBind fun i t ho => ⟨ho.1.1 hl, ?_⟩
  obtain ⟨b, t', hf, hk⟩ := h i t
  exact ⟨b, t', hf, .inr hk⟩

theorem confirms_confirmAfterCapture (cfg : PaymentConfig) (orderId : ℕ) :
    Confirms x oid cid (confirmAfterCapture cfg orderId) := by
  unfold confirmAfterCapture
  split
  · exact confirms_confirmPendingOrder orderId
  · exact .done _

variable {cfg : PaymentConfig}

theorem confirms_recordCapture (hcfg : cfg.needsPostCaptureOrderConfirm = true) {payment : Payment}
    (hpay : payment.id = x → payment.orderId = oid) (actorId : ℕ) (reference : String) :
    Confirms x oid cid (recordCapture cfg payment actorId reference) := by
  let rest := fun updated : Payment => (do
    createTransaction payment.id .capture payment.amount (some reference)
    audit payment.id "capture" (some actorId) (some payment.status) (some .captured)
    createEvent payment.id "payment.captured"
    confirmAfterCapture cfg payment.orderId
    enqueue
    pure updated : ShopProg Payment)
  have hrest : ∀ updated, Confirms x oid cid (rest updated) := by
    intro updated
    refine (Confirms.quiet (calls_createTransaction _ _ _ _)).bind fun _ => ?_
    refine (Confirms.quiet (calls_audit _ _ _ _ _)).bind fun _ => ?_
    refine (Confirms.quiet (calls_createEvent _ _)).bind fun _ => ?_
    refine (confirms_confirmAfterCapture _ _).bind fun _ => ?_
    exact (Confirms.quiet calls_enqueue).bind fun _ => .done _
  have hreach : payment.id = x → ∀ updated,
      (rest updated).Reaches (Admitted x oid cid) fun t => ¬ Due x oid t := by
    intro hx updated
    refine reaches_after rfl fun i t => ⟨_, _, rfl, ?_⟩
    refine reaches_after rfl fun i t => ⟨_, _, rfl, ?_⟩
    refine reaches_after rfl fun i t => ⟨_, _, rfl, Prog.Reaches.bind ?_⟩
    rw [confirmAfterCapture, if_pos hcfg, hpay hx]
    exact reaches_confirmPendingOrder
  refine ⟨?_, pays_atomicBind fun i t updated t' ho hw => ⟨fun hd => ?_, (hrest updated).pays⟩⟩
  · refine Prog.Every.bind ?_ fun updated => (hrest updated).placed
    refine Prog.Every.imp (fun _ _ _ _ => trivial) ?_ (calls_updatePayment (S := keepsOrders) rfl)
    rintro l i t t' ⟨-, hplaced⟩ ⟨hl, he⟩
    exact hplaced.effect hl he
  · by_cases hx : payment.id = x
    · exact .inr (hreach hx updated)
    · exact .inl (due_of_effect (.inr ⟨payment.id, payment.status, hx, rfl⟩) ho.1
        (.inr ⟨updated, hw⟩) ho.2 hd)

theorem confirms_capture (hcfg : cfg.needsPostCaptureOrderConfirm = true)
    (token id actorId : ℕ) (asAdmin : Bool) :
    Confirms x oid cid (capture cfg token id actorId asAdmin) := by
  refine .withLock (.requireBind fun payment hpay => ?_)
  refine Confirms.bind ⟨trivial, trivial⟩ fun _ => ?_
  split
  · exact .done _
  refine Confirms.bind ⟨trivial, trivial⟩ fun _ => ?_
  unfold capturePayment
  split
  · split
    · exact .of_calls (calls_captureZero _ _ (fun _ h => passive_of_routine (routine_of_quiet h)) rfl)
    · exact .done _
  · refine (Confirms.quiet (calls_withRetry (calls_gatewayCall _) _)).bind fun result => ?_
    split
    · exact .of_calls (calls_markFailed _ _ _).ofAmending.passive
    · exact confirms_recordCapture hcfg hpay _ _

theorem confirms_retry (hcfg : cfg.needsPostCaptureOrderConfirm = true) (token id actorId : ℕ) :
    Confirms x oid cid (retry cfg token id actorId) := by
  refine .requireBind fun payment _ => Confirms.bind ⟨trivial, trivial⟩ fun _ => ?_
  refine Confirms.bind ⟨trivial, trivial⟩ fun _ => (Confirms.quiet calls_enqueue).bind fun _ => ?_
  refine (Confirms.of_calls (calls_reopen _).passive).bind fun _ => ?_
  refine (Confirms.of_calls (calls_authorize _ _ _ _).ofAmending.passive).bind fun authorized => ?_
  split
  · exact confirms_capture hcfg _ _ _ _
  · exact .done _

end Confirming

/-! ### Whole runs -/

inductive CaptureRequest where
  | capture (paymentId actorId : ℕ) (asAdmin : Bool)
  | retry (paymentId actorId : ℕ)
  | webhook (id : ℕ)
deriving DecidableEq, Repr

def CaptureRequest.prog (cfg : PaymentConfig) (token : ℕ) : CaptureRequest → ShopProg Unit
  | .capture id actorId asAdmin => (Payments.capture cfg token id actorId asAdmin).bind fun _ => pure ()
  | .retry id actorId => (Payments.retry cfg token id actorId).bind fun _ => pure ()
  | .webhook id => processWebhook id

/-- All requests at once, each with a lock token of its own. -/
def together (cfg : PaymentConfig) (requests : List CaptureRequest) (s : Shop) : ShopPool Unit :=
  ⟨requests.mapIdx fun token r => r.prog cfg token, s⟩

theorem confirms_request {x oid token : ℕ} {cid : Option ℕ} {cfg : PaymentConfig}
    (hcfg : cfg.needsPostCaptureOrderConfirm = true) (r : CaptureRequest) :
    Confirms x oid cid (r.prog cfg token) := by
  cases r with
  | capture id actorId asAdmin => exact (confirms_capture hcfg _ _ _ _).bind fun _ => .done _
  | retry id actorId => exact (confirms_retry hcfg _ _ _).bind fun _ => .done _
  | webhook id => exact .of_calls (calls_processWebhook id)

/-- The payment waits for its capture, and its order, with the cart it came from, for the
confirmation. -/
def Awaiting (x : ℕ) (s : Shop) : Prop :=
  ∃ p o, s.payments.find? x = some p ∧ p.status ≠ .captured ∧ s.orders.find? p.orderId = some o ∧
    o.status = .pending ∧ o.deleted = false ∧ ∀ c, o.cartId = some c → ∃ cart, s.carts.find? c = some cart

/-- Whatever the interleaving of captures, retries and webhooks: when all have ended, the order
of a captured payment is confirmed and its cart converted. -/
theorem captured_orders_confirmed (cfg : PaymentConfig) (requests : List CaptureRequest) (s : Shop)
    (x : ℕ) (sched : List (ℕ × ShopInput)) (hcfg : cfg.needsPostCaptureOrderConfirm = true)
    (hx : Awaiting x s) (hok : (together cfg requests s).Admits (ThroughGateway x) sched)
    (hend : ((together cfg requests s).run sched).quiescent = true) :
    ∀ p, ((together cfg requests s).run sched).state.payments.find? x = some p →
      p.status = .captured → Confirmed p.orderId ((together cfg requests s).run sched).state := by
  obtain ⟨p₀, o, hp₀, hst, ho, hpending, hdel, hcart⟩ := hx
  have hthread : ∀ t ∈ (together cfg requests s).threads, Confirms x p₀.orderId o.cartId t := by
    intro t ht
    obtain ⟨token, hlt, rfl⟩ := List.mem_mapIdx.mp ht
    exact confirms_request hcfg _
  have hstart : (together cfg requests s).Solvent (ThroughGateway x) (Placed x p₀.orderId o.cartId)
      (Due x p₀.orderId) := by
    refine ⟨⟨⟨p₀, hp₀, rfl⟩, hcart, o, ho, hdel, rfl, .inl hpending⟩,
      fun t ht => (hthread t ht).placed, fun t ht => (hthread t ht).pays, ?_⟩
    rintro ⟨⟨p, hp, hcap⟩, -⟩
    obtain rfl := Option.some.inj (hp₀.symm.trans hp)
    exact (hst hcap).elim
  have hrun := Pool.debt_run hstart hok
  intro p hp hcap
  obtain ⟨p', hp', hoid⟩ := hrun.holds.payment
  obtain rfl := Option.some.inj (hp.symm.trans hp')
  rw [hoid]
  by_contra hnot
  exact hrun.settled hend ⟨⟨p, hp, hcap⟩, hnot⟩

/-- A pending order with its cart, an authorized payment of it, and a webhook that reports the
capture of the payment. -/
def unconfirmed : Shop where
  carts := oneCart
  orders := pendingOrder
  payments := Table.empty.insert fun n =>
    { id := n, orderId := 0, customerId := some 1, gatewayId := 0, gatewayPaymentId := some "pay_1",
      amount := 100, status := .authorized }
  webhooks := captureReport

def liveCheckout : PaymentConfig := ⟨some false, some false⟩

/-- `n` calls of thread `j`, with a gateway that captures. -/
def turn (j n : ℕ) : List (ℕ × ShopInput) :=
  List.replicate n (j, { reply := { status := .captured, gatewayPaymentId := "pay_1" } })

theorem unconfirmed_awaiting : Awaiting 0 unconfirmed := by
  refine ⟨_, _, rfl, by decide, rfl, rfl, rfl, fun c hc => ?_⟩
  cases hc
  exact ⟨_, rfl⟩

def twoCaptures : List CaptureRequest := [.capture 0 1 false, .capture 0 1 false]

/-- Two captures in turn: the second one finds the payment captured and returns. -/
theorem captured_orders_confirmed_twice :
    ∃ p, ((together liveCheckout twoCaptures unconfirmed).run
        (turn 0 11 ++ turn 1 3)).state.payments.find? 0 = some p ∧ p.status = .captured ∧
      Confirmed p.orderId
        ((together liveCheckout twoCaptures unconfirmed).run (turn 0 11 ++ turn 1 3)).state := by
  have hread : (((together liveCheckout twoCaptures unconfirmed).run
      (turn 0 11 ++ turn 1 3)).state.payments.find? 0).map Payment.status = some .captured := by
    decide +kernel
  obtain ⟨p, hp, hst⟩ := Option.map_eq_some_iff.mp hread
  exact ⟨p, hp, hst, captured_orders_confirmed liveCheckout twoCaptures unconfirmed 0
    (turn 0 11 ++ turn 1 3) rfl unconfirmed_awaiting (by decide +kernel) (by decide +kernel) p hp hst⟩

def webhookFirst : List CaptureRequest := [.webhook 0, .capture 0 1 false]

/-- The webhook writes the status, and the capture that follows returns at once: the payment is
captured and its order still pending. -/
theorem captured_order_left_pending :
    liveCheckout.needsPostCaptureOrderConfirm = true ∧ Awaiting 0 unconfirmed ∧
      (∀ a ∈ turn 0 8 ++ turn 1 3, a.2.fails = false) ∧
      ((together liveCheckout webhookFirst unconfirmed).run (turn 0 8 ++ turn 1 3)).quiescent = true ∧
      (((together liveCheckout webhookFirst unconfirmed).run
        (turn 0 8 ++ turn 1 3)).state.payments.find? 0).map Payment.status = some .captured ∧
      (((together liveCheckout webhookFirst unconfirmed).run
        (turn 0 8 ++ turn 1 3)).state.orders.find? 0).map Order.status = some .pending :=
  ⟨rfl, unconfirmed_awaiting, by decide +kernel, by decide +kernel, by decide +kernel,
    by decide +kernel⟩

end ElectronicsCart.Payments
