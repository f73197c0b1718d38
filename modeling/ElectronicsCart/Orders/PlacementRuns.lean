import ElectronicsCart.Orders.FailedCheckouts
import ElectronicsCart.Orders.SettlementRuns
import ElectronicsCart.Orders.StatusEffects
import ElectronicsCart.Shop.Goods

/-!
# Completed checkouts

What a checkout that returns has done, when the server captures, no step times out and nobody else
runs.  Each of the six steps establishes its part, and every later call keeps it: also the calls of
attempts that failed.
-/

namespace ElectronicsCart.Orders

open Interleaving Relational Inventory Payments

def Untimed (l : ShopCall) (i : ShopInput) (_ : Shop) : Prop :=
  match l with
  | .timer _ => i.timer = false
  | _ => True

def untimed (l : ShopCall) (i : ShopInput) : Bool :=
  match l with
  | .timer _ => !i.timer
  | _ => true

theorem untimed_iff {l : ShopCall} {i : ShopInput} {s : Shop} :
    untimed l i = true ↔ Untimed l i s := by
  unfold untimed Untimed
  split <;> simp

instance (l : ShopCall) (i : ShopInput) (s : Shop) : Decidable (Untimed l i s) :=
  decidable_of_iff _ untimed_iff

/-! ### What the steps establish -/

def lineTotals (orderId : ℕ) (s : Shop) : List ℚ :=
  (s.orderItems.rows.filter fun i => i.orderId == orderId).map OrderItem.lineTotal

def reservationsOf (orderId : ℕ) (s : Shop) : List StockReservation :=
  s.reservations.rows.filter fun r => r.orderId == some orderId && r.status == .active

/-- The order exists and costs what its cart costs. -/
def Priced (cartId : ℕ) (total : ℚ) (orderId : ℕ) (s : Shop) : Prop :=
  ∃ o, s.orders.find? orderId = some o ∧ o.cartId = some cartId ∧ o.subtotal = total ∧
    o.grandTotal = total ∧ o.deleted = false

structure Drafted (cartId : ℕ) (total : ℚ) (items : List CartItem) (orderId : ℕ) (s : Shop) :
    Prop where
  order : Priced cartId total orderId s
  lines : lineTotals orderId s = items.map lineTotal

structure Stocked (cartId : ℕ) (total : ℚ) (items : List CartItem) (orderId : ℕ) (s : Shop) : Prop
    extends Drafted cartId total items orderId s where
  reserved : (reservationsOf orderId s).map (fun r => (r.variantId, r.quantity)) =
    items.map fun i => (i.variantId, i.quantity)

section Kept

variable {cartId orderId id : ℕ} {total amount : ℚ} {items : List CartItem}
  {l : ShopCall} {now : ℕ} {s s' : Shop}

theorem Priced.step (h : OrderStep l now s s') (hs : Priced cartId total orderId s) :
    Priced cartId total orderId s' := by
  obtain ⟨o, ho, hfacts⟩ := hs
  cases h with
  | same horders hhistory => exact ⟨o, by rw [horders, ho], hfacts⟩
  | create cart ctx' number userId hl horders hhistory =>
    refine ⟨o, ?_, hfacts⟩
    rw [horders]
    exact Table.find?_insert_of_some _ ho
  | move m note hl hfound horders hhistory =>
    rw [Priced, horders]
    by_cases hid : orderId = m.orderId
    · subst hid
      exact ⟨_, Table.find?_update_self (key_setStatus _ _) ho, hfacts⟩
    · exact ⟨o, (Table.find?_update_ne (key_setStatus _ _) hid).trans ho, hfacts⟩

theorem PaymentOf.effect (h : Effect l now s s') (hs : PaymentOf id orderId amount s) :
    PaymentOf id orderId amount s' := by
  obtain ⟨p, hp, horder, hamount⟩ := hs
  cases h.paymentStep with
  | same hpayments => exact ⟨p, by rw [hpayments, hp], horder, hamount⟩
  | write j read write q hlabel hq hpayments =>
    rw [PaymentOf, hpayments]
    by_cases hid : id = j
    · subst hid
      exact ⟨_, Table.find?_update_self (key_applyWrite now write) hp, by simpa using horder,
        by simpa using hamount⟩
    · exact ⟨p, (Table.find?_update_ne (key_applyWrite now write) hid).trans hp, horder, hamount⟩
  | create j a mk hmk hlabel hnew hfound hpos hpayments =>
    exact ⟨p, by rw [hpayments, Table.find?_insert_of_some hmk hp], horder, hamount⟩

theorem Drafted.kept (hg : SameGoods s s') (he : Effect l now s s')
    (hs : Drafted cartId total items orderId s) : Drafted cartId total items orderId s' := by
  refine ⟨hs.order.step (orderStep_of_effect he), ?_⟩
  rw [lineTotals, hg.orderItems]
  exact hs.lines

theorem Stocked.kept (hg : SameGoods s s') (he : Effect l now s s')
    (hs : Stocked cartId total items orderId s) : Stocked cartId total items orderId s' := by
  refine ⟨hs.toDrafted.kept hg he, ?_⟩
  rw [reservationsOf, hg.reservations]
  exact hs.reserved

theorem every_stocked {α : Type} {S : ShopCall → Bool} {p : ShopProg α} (hc : Calls S p)
    (hg : Spares p) : p.Every (fun _ _ _ => True) fun _ _ u u' =>
      Stocked cartId total items orderId u → Stocked cartId total items orderId u' := by
  refine (Prog.Every.and hc hg).mono ?_
  rintro l i u u' - ⟨⟨-, he⟩, hgoods⟩ hu
  exact hu.kept hgoods he

theorem every_paymentOf {α : Type} {S : ShopCall → Bool} {p : ShopProg α} (hc : Calls S p) :
    p.Every (fun _ _ _ => True) fun _ _ u u' =>
      PaymentOf id orderId amount u → PaymentOf id orderId amount u' :=
  Prog.Every.mono (fun _ _ _ _ _ he hu => hu.effect he.2) hc

end Kept

/-! ### The draft order -/

theorem lineTotals_insertOrderItems {orderId : ℕ} {items : List CartItem} {s s' : Shop}
    (h : insertOrderItems orderId items s = .ok s') :
    lineTotals orderId s' = lineTotals orderId s ++ items.map lineTotal := by
  induction items generalizing s with
  | nil =>
    cases h
    simp
  | cons i items ih =>
    simp only [insertOrderItems, bind_eq_ok, check_eq_ok] at h
    obtain ⟨-, -, h⟩ := h
    rw [ih h]
    simp [lineTotals, Table.insert]

/-- Rows that refer to an order refer to one that exists, and a cart has a variant once. -/
structure References (s : Shop) : Prop where
  lines : ∀ i ∈ s.orderItems.rows, (s.orders.find? i.orderId).isSome
  reservations : ∀ r ∈ s.reservations.rows, ∀ id, r.orderId = some id → (s.orders.find? id).isSome
  variants : ∀ a ∈ s.cartItems.rows, ∀ b ∈ s.cartItems.rows, a.deleted = false → b.deleted = false →
    a.cartId = b.cartId → a.variantId = b.variantId → a = b

section Draft

variable {s : Shop}

theorem find?_next : s.orders.find? s.orders.next = none :=
  Table.find?_eq_none_iff.mpr fun o ho => (s.orders.fresh o ho).ne

theorem References.lineTotals_next (hs : References s) : lineTotals s.orders.next s = [] := by
  rw [lineTotals, List.map_eq_nil_iff, List.filter_eq_nil_iff]
  intro i hi heq
  have hsome := hs.lines i hi
  rw [beq_iff_eq.mp heq, find?_next] at hsome
  cases hsome

theorem References.reservationsOf_next (hs : References s) :
    reservationsOf s.orders.next s = [] := by
  rw [reservationsOf, List.filter_eq_nil_iff]
  intro r hr heq
  rw [Bool.and_eq_true, beq_iff_eq] at heq
  have hsome := hs.reservations r hr _ heq.1
  rw [find?_next] at hsome
  cases hsome

theorem alone_createDraftOrder (cart : Cart) (items : List CartItem) (ctx : CheckoutContext)
    (hs : References s) :
    Alone Untimed (Returns fun patch t => ∃ oid, patch = (fun c => { c with orderId := some oid }) ∧
      Drafted ctx.cartId ctx.amount items oid t ∧ reservationsOf oid t = [])
      (createDraftOrder cart items ctx) s := by
  refine Alone.atomicBind (fun i order u _ _ hu => Alone.done ?_) fun _ _ _ _ => trivial
  simp only [insertOrder, bind_eq_ok, check_eq_ok, pure_eq_ok, Prod.mk.injEq] at hu
  obtain ⟨-, -, -, -, -, -, t, ht, rfl, rfl⟩ := hu
  have hlines := (lineTotals_insertOrderItems ht).trans
    (congrArg (· ++ items.map lineTotal) hs.lineTotals_next)
  obtain ⟨T, rfl⟩ := insertOrderItems_cases ht
  refine ⟨s.orders.next, rfl, ⟨⟨draftOrder cart ctx ⟨i.now, i.reply.random⟩ s.orders.next, ?_, rfl,
    rfl, rfl, rfl⟩, hlines⟩, hs.reservationsOf_next⟩
  exact Table.find?_insert_next (key_draftOrder cart ctx ⟨i.now, i.reply.random⟩)

end Draft

/-! ### The reservations -/

/-- The reservation was added for the request, and orders are as they were. -/
structure Held (s : Shop) (dto : ReserveStockDto) (res : StockReservation) (t : Shop) : Prop where
  rows : t.reservations.rows = s.reservations.rows ++ [res]
  line : (res.variantId, res.quantity) = (dto.variantId, dto.quantity)
  order : res.orderId = dto.orderId
  status : res.status = .active
  orders : t.orders = s.orders
  orderItems : t.orderItems = s.orderItems

section Reserve

variable {s t t' : Shop} {dto : ReserveStockDto} {res : StockReservation}

theorem Held.kept (hg : SameGoods t t') (hl : SameLedger t t') (h : Held s dto res t) :
    Held s dto res t' :=
  ⟨by rw [hg.reservations, h.rows], h.line, h.order, h.status, hl.orders.trans h.orders,
    hg.orderItems.trans h.orderItems⟩

theorem every_held {α : Type} {p : ShopProg α} (hc : Calls quiet p) (hg : Spares p) :
    p.Every (fun _ _ _ => True) fun _ _ u u' => Held s dto res u → Held s dto res u' := by
  refine (Prog.Every.and hc hg).mono ?_
  rintro l i u u' - ⟨⟨hl, he⟩, hgoods⟩ hu
  exact hu.kept hgoods (he.same hl)

theorem held_createReservation {now : ℕ} (h : createReservation dto now t = .ok (res, t'))
    (hr : t.reservations = s.reservations) (horders : t.orders = s.orders)
    (hitems : t.orderItems = s.orderItems) : Held s dto res t' := by
  simp only [createReservation, bind_eq_ok, check_eq_ok, pure_eq_ok, Prod.mk.injEq] at h
  obtain ⟨-, -, -, -, -, -, -, -, -, -, rfl, rfl⟩ := h
  exact ⟨by rw [← hr]; rfl, rfl, rfl, rfl, horders, hitems⟩

theorem alone_reserve (token : ℕ) (dto : ReserveStockDto) :
    Alone Untimed (Returns (Held s dto)) (reserve token dto) s := by
  refine Alone.withLock_blind (fun _ => trivial) ?_ (fun _ _ _ => trivial) fun m => ?_
  · rintro (e | res) t m h
    · trivial
    · exact Held.kept (t := t) ⟨rfl, rfl, rfl, rfl, rfl⟩ ⟨rfl, rfl, rfl, rfl, rfl⟩ h
  have hread : (requireWarehouse dto.warehouseId).Every (fun _ _ _ => True) fun _ _ t t' => t' = t :=
    Prog.Every.bind (every_query fun _ _ _ => rfl) fun found => Prog.every_orThrow _ found
  refine Alone.bind (Alone.reading hread) ?_ fun _ _ _ => trivial
  rintro _ _ rfl
  refine Alone.queryBind (fun i _ _ => ?_) fun _ _ _ => trivial
  refine Alone.ensureBind (fun _ => ?_) fun _ => trivial
  refine Alone.atomicBind (fun j _ u _ _ hu => ?_) fun _ _ _ _ => trivial
  simp only [reserveRows, bind_eq_ok, pure_eq_ok, Prod.mk.injEq, Prod.exists] at hu
  obtain ⟨-, T, -, -, rfl⟩ := hu
  refine Alone.atomicBind (fun k res v _ _ hv => ?_) fun _ _ _ _ => trivial
  have hheld : Held s dto res v := held_createReservation hv rfl rfl rfl
  refine Alone.bind (Alone.of_every (every_held (calls_createMovement _ _ _ _ _ _ _)
    (spares_createMovement _ _ _ _ _ _ _)) hheld) (fun _ w hw => ?_) fun _ _ _ => trivial
  exact Alone.bind (Alone.of_every (every_held (calls_maybeLowStock _ _)
    (spares_maybeLowStock _ _)) hw) (fun _ x hx => Alone.done hx) fun _ _ _ => trivial

end Reserve

/-- The lines that have been reserved so far, and their reservations. -/
structure Reserved (cartId : ℕ) (total : ℚ) (items part : List CartItem) (orderId : ℕ)
    (ids : List ℕ) (s : Shop) : Prop extends Drafted cartId total items orderId s where
  reserved : (reservationsOf orderId s).map (fun r => (r.variantId, r.quantity)) =
    part.map fun i => (i.variantId, i.quantity)
  linked : ∀ id ∈ ids, ∃ r ∈ s.reservations.rows, r.id = id ∧ r.orderId = some orderId

section ReserveLines

variable {ctx : CheckoutContext} {cartId orderId : ℕ} {total : ℚ} {items part : List CartItem} {ids : List ℕ}
  {s t : Shop} {i : CartItem} {res : StockReservation}

theorem Reserved.held (horder : ctx.orderId = some orderId) (h : Held s (reserveDto ctx i) res t)
    (hs : Reserved cartId total items part orderId ids s) :
    Reserved cartId total items (part ++ [i]) orderId (ids ++ [res.id]) t := by
  obtain ⟨o, ho, hfacts⟩ := hs.order
  have hlink : res.orderId = some orderId := h.order.trans horder
  refine ⟨⟨⟨o, by rw [h.orders, ho], hfacts⟩, ?_⟩, ?_, fun id hid => ?_⟩
  · rw [lineTotals, h.orderItems]
    exact hs.lines
  · have hnew : reservationsOf orderId t = reservationsOf orderId s ++ [res] := by
      rw [reservationsOf, reservationsOf, h.rows, List.filter_append]
      simp [hlink, h.status]
    have hline : (res.variantId, res.quantity) = (i.variantId, i.quantity) := h.line
    rw [hnew, List.map_append, List.map_append, hs.reserved]
    exact congrArg (fun x => _ ++ [x]) hline
  · rw [h.rows]
    rcases List.mem_append.mp hid with hid | hid
    · obtain ⟨r, hr, hrid, hro⟩ := hs.linked id hid
      exact ⟨r, List.mem_append_left _ hr, hrid, hro⟩
    · exact ⟨res, List.mem_append_right _ (List.mem_singleton_self _),
        (List.mem_singleton.mp hid).symm, hlink⟩

theorem alone_reserveLines (token : ℕ) (horder : ctx.orderId = some orderId) (rest : List CartItem)
    (hs : Reserved cartId total items part orderId ids s) :
    Alone Untimed (Returns fun new t => Reserved cartId total items (part ++ rest) orderId (ids ++ new) t)
      (reserveLines token ctx rest) s := by
  induction rest generalizing part ids s with
  | nil =>
    refine Alone.done ?_
    simpa [Returns] using hs
  | cons i rest ih =>
    refine Alone.bind (alone_reserve token (reserveDto ctx i)) (fun res t ht => ?_) fun _ _ _ => trivial
    refine Alone.bind (ih (hs.held horder ht)) (fun new u hu => Alone.done ?_) fun _ _ _ => trivial
    simpa [Returns] using hu

theorem rows_linkReservations (h : ∀ id ∈ ids, ∃ r ∈ s.reservations.rows, r.id = id ∧
    r.orderId = some orderId) :
    (linkReservations ids (some orderId) s).reservations.rows = s.reservations.rows := by
  refine (List.map_congr_left fun r hr => ?_).trans (List.map_id _)
  split
  next hin =>
    obtain ⟨r', hr', hid, horder⟩ := h r.id (by simpa using hin)
    obtain rfl : r' = r := Table.eq_of_key_eq hr' hr hid
    rw [← horder]
    rfl
  next => rfl

theorem alone_reserveInventory (token : ℕ) (horder : ctx.orderId = some orderId)
    (hs : Drafted cartId total items orderId s) (hnone : reservationsOf orderId s = []) :
    Alone Untimed (Returns fun patch t =>
      (∃ ids, patch = fun c => { c with reservationIds := ids }) ∧ Stocked cartId total items orderId t)
      (reserveInventory token items ctx) s := by
  have hstart : Reserved cartId total items [] orderId [] s :=
    ⟨hs, by rw [hnone]; rfl, fun id hid => (List.not_mem_nil hid).elim⟩
  refine Alone.bind (alone_reserveLines token horder items hstart) (fun ids t ht => ?_)
    fun _ _ _ => trivial
  obtain ⟨hdraft, hreserved, hlinked⟩ := ht
  refine Alone.atomicBind (fun i _ u _ _ hu => Alone.done ?_) fun _ _ _ _ => trivial
  cases hu
  rw [horder]
  refine ⟨⟨ids, rfl⟩, ⟨hdraft.order, hdraft.lines⟩, ?_⟩
  rw [List.nil_append] at hlinked
  rw [reservationsOf, rows_linkReservations hlinked]
  exact hreserved

end ReserveLines

/-! ### The payment -/

structure Payable (cartId : ℕ) (total : ℚ) (items : List CartItem) (orderId paymentId : ℕ)
    (s : Shop) : Prop extends Stocked cartId total items orderId s where
  payment : PaymentOf paymentId orderId total s

section Payment

variable {ctx : CheckoutContext} {cartId orderId paymentId : ℕ} {total : ℚ} {items : List CartItem}
  {s : Shop}

theorem every_payable {α : Type} {S : ShopCall → Bool} {p : ShopProg α} (hc : Calls S p)
    (hg : Spares p) : p.Every (fun _ _ _ => True) fun _ _ u u' =>
      Payable cartId total items orderId paymentId u → Payable cartId total items orderId paymentId u' := by
  refine (Prog.Every.and hc hg).mono ?_
  rintro l i u u' - ⟨⟨-, he⟩, hgoods⟩ hu
  exact ⟨hu.toStocked.kept hgoods he, hu.payment.effect he⟩

theorem paymentOf_insertPayment {order : Order} {actorId gatewayId : ℕ} {gatewayOrderId : String}
    {dto : CreatePaymentDto} {payment : Payment} {s' : Shop} (hid : order.id = dto.orderId)
    (h : insertPayment order actorId gatewayId gatewayOrderId dto s = .ok (payment, s')) :
    PaymentOf payment.id dto.orderId dto.amount s' := by
  obtain ⟨mk, hmk, hrow, -, -, rfl, rfl⟩ := insertPayment_cases h
  have hkey : (mk s.payments.next).id = s.payments.next := hmk _
  refine ⟨mk s.payments.next, ?_, (hrow _).1.trans hid, (hrow _).2.1⟩
  rw [hkey]
  exact Table.find?_insert_next hmk

theorem alone_insertPayment {order : Order} {actorId gatewayId : ℕ} {gatewayOrderId : String}
    {dto : CreatePaymentDto} (hid : order.id = dto.orderId) :
    Alone Untimed (Returns fun payment t => PaymentOf payment.id dto.orderId dto.amount t)
      ((atomic (.payment (.createPayment order.id dto.amount)) fun _ s =>
          insertPayment order actorId gatewayId gatewayOrderId dto s).bind fun payment => do
        createAttempt payment.id 1 .pending none
        audit payment.id "create" (some actorId) none (some .pending)
        createEvent payment.id "payment.created"
        pure payment) s := by
  refine Alone.atomicBind (fun i payment u _ _ hu => ?_) fun _ _ _ _ => trivial
  refine Alone.bind (Alone.of_every (every_paymentOf (calls_createAttempt _ _ _ _))
    (paymentOf_insertPayment hid hu)) (fun _ t ht => ?_) fun _ _ _ => trivial
  refine Alone.bind (Alone.of_every (every_paymentOf (calls_audit _ _ _ _ _)) ht)
    (fun _ t ht => ?_) fun _ _ _ => trivial
  refine Alone.bind (Alone.of_every (every_paymentOf (calls_createEvent _ _)) ht)
    (fun _ t ht => Alone.done ht) fun _ _ _ => trivial

theorem alone_create (actorId : ℕ) (dto : CreatePaymentDto) :
    Alone Untimed (Returns fun payment t => PaymentOf payment.id dto.orderId dto.amount t)
      (create actorId dto) s := by
  refine Alone.queryBind (fun i _ _ => ?_) fun _ _ _ => trivial
  refine Alone.orThrowBind (fun order horder => ?_) fun _ => trivial
  have hid : order.id = dto.orderId :=
    (Table.find?_mem (Option.filter_eq_some_iff.mp horder).1).2
  refine Alone.ensureBind (fun _ => ?_) fun _ => trivial
  refine Alone.ensureBind (fun _ => ?_) fun _ => trivial
  refine Alone.bind (Alone.any _ _) (fun found t _ => ?_) fun _ _ _ => trivial
  refine Alone.orThrowBind (fun gateway _ => ?_) fun _ => trivial
  refine Alone.bind (Alone.any _ _) (fun gwOrder u _ => ?_) fun _ _ _ => trivial
  exact alone_insertPayment hid

theorem alone_createPayment (horder : ctx.orderId = some orderId)
    (htotal : ctx.amount = total) (hs : Stocked cartId total items orderId s) :
    Alone Untimed (SagaCoordinator.Outcome (Stocked cartId total items orderId) fun patch t =>
      ∃ pid, patch = (fun c => { c with paymentId := some pid }) ∧
        Payable cartId total items orderId pid t) (createPayment ctx) s := by
  have hkeep := @Alone.of_every _ _ _ _ _ Untimed _ _ _ (every_stocked (calls_createPayment ctx)
    (spares_createPayment ctx)) hs
  have hpay : Alone Untimed (Returns fun patch t => ∃ pid,
      patch = (fun c => { c with paymentId := some pid }) ∧ PaymentOf pid orderId total t)
      (createPayment ctx) s := by
    refine Alone.ensureBind (fun _ => ?_) fun _ => trivial
    refine Alone.orThrowBind (fun id hid => ?_) fun _ => trivial
    obtain rfl := Option.some.inj (horder.symm.trans hid)
    subst htotal
    exact Alone.bind (alone_create ctx.userId _)
      (fun payment t ht => Alone.done ⟨payment.id, rfl, ht⟩) fun _ _ _ => trivial
  refine Alone.mono ?_ (hkeep.and hpay)
  rintro r t ⟨hs, hr⟩
  refine ⟨?_, hs⟩
  rintro patch rfl
  obtain ⟨pid, hpatch, hpid⟩ := hr
  exact ⟨pid, hpatch, hs, hpid⟩

theorem alone_captured {id : ℕ} {p : ShopProg Payment} (hc : Calls keepsPayments p)
    (hs : IsCaptured id s) : Alone Untimed (Returns fun _ t => IsCaptured id t) p s := by
  have hkeep : p.Every (fun _ _ _ => True) fun _ _ t t' => IsCaptured id t → IsCaptured id t' := by
    refine Prog.Every.mono ?_ hc
    rintro l i t t' - ⟨hk, he⟩ ⟨q, hq, hst⟩
    exact ⟨q, by rw [he.payments hk, hq], hst⟩
  refine Alone.mono ?_ (Alone.of_every hkeep hs)
  rintro (e | q) t h
  · trivial
  · exact h

theorem isCaptured_write {id now : ℕ} {write : PaymentWrite} {p : Payment} {s' : Shop}
    (hw : write.target = .captured) (h : writePayment id write now s = .ok (p, s')) :
    IsCaptured id s' := by
  obtain ⟨q, hq, -, rfl⟩ := writePayment_cases h
  exact ⟨_, Table.find?_update_self (key_applyWrite now write) hq, (status_applyWrite q write).trans hw⟩

theorem alone_capturePayment (cfg : PaymentConfig) (payment : Payment) (actorId : ℕ) :
    Alone Untimed (Returns fun _ t => IsCaptured payment.id t) (capturePayment cfg payment actorId) s := by
  unfold capturePayment
  split
  · split
    · refine Alone.atomicBind (fun i _ u _ _ hu => ?_) fun _ _ _ _ => trivial
      exact alone_captured ((calls_audit _ _ _ _ _).keeping.bind fun _ => .pure _)
        (isCaptured_write rfl hu)
    · exact Alone.done trivial
  refine Alone.bind (Alone.any _ _) (fun result t _ => ?_) fun _ _ _ => trivial
  split
  · refine Alone.bind (Alone.any _ _) (fun _ u _ => ?_) fun _ _ _ => trivial
    refine Alone.bind (Alone.any _ _) (fun _ u _ => ?_) fun _ _ _ => trivial
    exact Alone.done trivial
  · refine Alone.atomicBind (fun i _ u _ _ hu => ?_) fun _ _ _ _ => trivial
    refine alone_captured ((calls_createTransaction _ _ _ _).keeping.bind fun _ => ?_)
      (isCaptured_write rfl hu)
    refine (calls_audit _ _ _ _ _).keeping.bind fun _ => (calls_createEvent _ _).keeping.bind fun _ => ?_
    exact (calls_confirmAfterCapture rfl fun _ => rfl).bind fun _ => calls_enqueue.keeping.bind fun _ => .pure _

theorem alone_requirePayment (action : Option PaymentAction) (id : ℕ) :
    Alone Untimed (Returns fun p t => t.payments.find? id = some p) (requirePayment action id) s := by
  refine Alone.queryBind (fun i _ _ => ?_) fun _ _ _ => trivial
  cases hf : (s.payments.find? id).filter fun p => !p.deleted with
  | none => exact Alone.done trivial
  | some q => exact Alone.done (Option.filter_eq_some_iff.mp hf).1

theorem alone_capture (cfg : PaymentConfig) (token id actorId : ℕ) :
    Alone Untimed (Returns fun _ t => IsCaptured id t) (capture cfg token id actorId false) s := by
  refine Alone.withLock_blind (fun _ => trivial) ?_ (fun _ _ _ => trivial) fun m => ?_
  · rintro (e | p) t m h
    · trivial
    · exact h
  refine Alone.bind (alone_requirePayment _ id) (fun payment t ht => ?_) fun _ _ _ => trivial
  obtain rfl : payment.id = id := (Table.find?_mem ht).2
  refine Alone.ensureBind (fun _ => ?_) fun _ => trivial
  split
  next hst => exact Alone.done ⟨payment, ht, hst⟩
  next =>
    refine Alone.ensureBind (fun _ => ?_) fun _ => trivial
    exact alone_capturePayment cfg payment actorId

end Payment

/-! ### The steps -/

structure Settled (cartId : ℕ) (total : ℚ) (items : List CartItem) (orderId paymentId : ℕ) (s : Shop) :
    Prop extends Payable cartId total items orderId paymentId s where
  captured : IsCaptured paymentId s
  confirmed : ∃ o, s.orders.find? orderId = some o ∧ o.status = .confirmed
  converted : ∃ c, s.carts.find? cartId = some c ∧ c.status = .converted

section Steps

variable {cfg : PaymentConfig} {ctx : CheckoutContext} {cartId orderId paymentId : ℕ} {total : ℚ}
  {items : List CartItem} {s : Shop}

theorem alone_authorizeStep (token : ℕ) (hs : Payable cartId total items orderId paymentId s) :
    Alone Untimed (SagaCoordinator.Outcome (Payable cartId total items orderId paymentId)
      fun patch t => patch = id ∧ Payable cartId total items orderId paymentId t)
      (noPatch (authorizeStep cfg token ctx)) s := by
  refine Alone.bind (Alone.of_every (every_payable (calls_authorizeStep cfg token ctx)
    (spares_authorizeStep cfg token ctx)) hs) (fun _ t ht => Alone.done ⟨?_, ht⟩)
    fun _ t ht => ⟨nofun, ht⟩
  rintro patch ⟨⟩
  exact ⟨rfl, ht⟩

theorem alone_captureStep (token : ℕ) (hcfg : cfg.autoSettle = true)
    (hpay : ctx.paymentId = some paymentId)
    (hs : Payable cartId total items orderId paymentId s) :
    Alone Untimed (SagaCoordinator.Outcome (Payable cartId total items orderId paymentId)
      fun patch t => patch = id ∧ Payable cartId total items orderId paymentId t ∧
        IsCaptured paymentId t) (noPatch (captureStep cfg token ctx)) s := by
  have hkeep := @Alone.of_every _ _ _ _ _ Untimed _ _ _ (every_payable (calls_captureStep cfg token ctx)
    (spares_captureStep cfg token ctx)) hs
  have hcap : Alone Untimed (Returns fun _ t => IsCaptured paymentId t) (captureStep cfg token ctx) s := by
    unfold captureStep whenSettling
    rw [if_pos hcfg]
    refine Alone.orThrowBind (fun id hid => ?_) fun _ => trivial
    obtain rfl := Option.some.inj (hpay.symm.trans hid)
    exact Alone.bind (alone_capture cfg token paymentId ctx.userId)
      (fun _ t ht => Alone.done ht) fun _ _ _ => trivial
  refine Alone.bind (hkeep.and hcap) (fun _ t ht => Alone.done ⟨?_, ht.1⟩) fun _ t ht => ⟨nofun, ht.1⟩
  rintro patch ⟨⟩
  exact ⟨rfl, ht⟩

theorem alone_confirmStep (hcfg : cfg.autoSettle = true) (horder : ctx.orderId = some orderId)
    (hcart : ctx.cartId = cartId) (hs : Payable cartId total items orderId paymentId s)
    (hc : IsCaptured paymentId s) :
    Alone Untimed (Returns fun patch t => patch = id ∧
      Settled cartId total items orderId paymentId t) (noPatch (confirmStep cfg ctx)) s := by
  subst hcart
  have hkeep := @Alone.of_every _ _ _ _ _ Untimed _ _ _ (every_payable
    (calls_confirmStep (S := fun _ => true) (fun _ _ => rfl) (fun _ => rfl) cfg ctx)
    (spares_confirmStep cfg ctx)) hs
  have hconf : Alone Untimed (Returns fun _ t => IsCaptured paymentId t ∧
      (∃ o, t.orders.find? orderId = some o ∧ o.status = .confirmed) ∧
      ∃ c, t.carts.find? ctx.cartId = some c ∧ c.status = .converted) (confirmStep cfg ctx) s := by
    unfold confirmStep whenSettling
    rw [if_pos hcfg]
    refine Alone.ensureBind (fun _ => ?_) fun _ => trivial
    refine Alone.orThrowBind (fun id hid => ?_) fun _ => trivial
    obtain rfl := Option.some.inj (horder.symm.trans hid)
    refine Alone.atomicBind (fun i _ u _ _ hu => ?_) fun _ _ _ _ => trivial
    obtain ⟨⟨o, ho⟩, hpay, -, horders⟩ := transitionOrder_cases hu
    refine Alone.atomicBind (fun j _ v _ _ hv => ?_) fun _ _ _ _ => trivial
    obtain ⟨hpay', horders', hcarts⟩ := convertCart_cases hv
    simp only [convertCart, bind_eq_ok, existing_eq_ok, pure_eq_ok, Prod.mk.injEq] at hv
    obtain ⟨c, hcart, -, -⟩ := hv
    refine Alone.atomic (fun k _ w _ _ hw => ?_) fun _ _ _ _ => trivial
    simp only [insertRiskScore, bind_eq_ok, check_eq_ok, pure_eq_ok, Prod.mk.injEq] at hw
    obtain ⟨-, -, -, -, -, rfl⟩ := hw
    obtain ⟨p, hp, hst⟩ := hc
    refine ⟨⟨p, ?_, hst⟩, ⟨setStatus .confirmed i.now o, ?_, rfl⟩, ⟨c.convert, ?_, rfl⟩⟩
    · change v.payments.find? paymentId = some p
      rw [hpay', hpay, hp]
    · change v.orders.find? orderId = _
      rw [horders', horders]
      exact Table.find?_update_self (key_setStatus _ _) ho
    · change v.carts.find? ctx.cartId = _
      rw [hcarts]
      exact Table.find?_update_self key_convert hcart
  refine Alone.bind (hkeep.and hconf) (fun _ t ht => Alone.done ⟨rfl, ?_⟩) fun _ _ _ => trivial
  exact ⟨ht.1, ht.2.1, ht.2.2.1, ht.2.2.2⟩

theorem alone_placement (token : ℕ) (cart : Cart) (hcfg : cfg.autoSettle = true)
    (hs : References s) :
    Alone Untimed (Returns fun inst t => inst.status = .completed →
      ∃ oid pid, inst.context.orderId = some oid ∧ inst.context.paymentId = some pid ∧
        Settled ctx.cartId ctx.amount items oid pid t)
      (SagaCoordinator.run (buildDefinition cfg token cart items) ctx) s := by
  have htimer : ∀ name i (t : Shop), Untimed (Timed.timer name) i t → i.timer = false :=
    fun _ _ _ h => h
  have hquit : ∀ (r : Except Failure (WorkflowInstance CheckoutContext)) (t : Shop),
      (∀ inst, r = .ok inst → inst.status ≠ .completed) →
      Returns (fun inst t => inst.status = .completed →
        ∃ oid pid, inst.context.orderId = some oid ∧ inst.context.paymentId = some pid ∧
          Settled ctx.cartId ctx.amount items oid pid t) r t := by
    rintro (e | inst) t h
    · trivial
    · exact fun hst => (h inst rfl hst).elim
  refine Alone.callBind fun i _ => ⟨fun start _ => ?_, fun _ _ => trivial⟩
  refine SagaCoordinator.alone_runSteps (Alone.race (htimer _)
    (alone_createDraftOrder cart items ctx hs)) ?_ hquit
  rintro _ t ⟨oid, rfl, hdraft, hnone⟩
  refine SagaCoordinator.alone_runSteps (Alone.race (htimer _)
    (alone_reserveInventory token rfl hdraft hnone)) ?_ hquit
  rintro _ t ⟨⟨ids, rfl⟩, hstock⟩
  refine SagaCoordinator.alone_runSteps (SagaCoordinator.alone_retried
    (P := Stocked ctx.cartId ctx.amount items oid) htimer
    (fun u hu => alone_createPayment (by rfl) (by rfl) hu) _ hstock) ?_ hquit
  rintro _ t ⟨pid, rfl, hpay⟩
  refine SagaCoordinator.alone_runSteps (SagaCoordinator.alone_retried
    (P := Payable ctx.cartId ctx.amount items oid pid) htimer
    (fun u hu => alone_authorizeStep token hu) _ hpay) ?_ hquit
  rintro _ t ⟨rfl, hpay⟩
  refine SagaCoordinator.alone_runSteps (SagaCoordinator.alone_retried
    (P := Payable ctx.cartId ctx.amount items oid pid) htimer
    (fun u hu => alone_captureStep token hcfg rfl hu) _ hpay) ?_ hquit
  rintro _ t ⟨rfl, hpay, hcap⟩
  refine SagaCoordinator.alone_runSteps (Alone.race (htimer _)
    (alone_confirmStep hcfg rfl rfl hpay hcap)) ?_ hquit
  rintro _ t ⟨rfl, hsettled⟩
  exact Alone.done fun _ => ⟨oid, pid, rfl, rfl, hsettled⟩

end Steps

/-! ### Checkout -/

structure Chosen (s : Shop) (userId : ℕ) (dto : CheckoutDto) (cart : Cart) (items : List CartItem) :
    Prop where
  row : cart ∈ s.carts.rows
  active : cart.status = .active
  lines : items = s.cartItems.rows.filter fun i => i.cartId == cart.id && !i.deleted
  named : ∀ id, dto.cartId = some id → cart.id = id
  own : dto.cartId = none → cart.userId = some userId

def priceOf (items : List CartItem) : ℚ := (items.map fun i => i.unitPrice * (i.quantity : ℚ)).sum

structure Completed (cartId : ℕ) (items : List CartItem) (result : CheckoutResult) (s : Shop)
    (order : Order) : Prop where
  stored : s.orders.find? order.id = some order
  returned : result.order = some order
  confirmed : order.status = .confirmed
  cart : order.cartId = some cartId
  grandTotal : order.grandTotal = priceOf items
  subtotal : order.subtotal = priceOf items
  lines : (lineTotals order.id s).sum = priceOf items
  payment : ∃ p, result.paymentId = some p.id ∧ s.payments.find? p.id = some p ∧
    p.orderId = order.id ∧ p.status = .captured ∧
    p.amount = priceOf items
  reserved : ∀ i ∈ items, ∃! r, r ∈ s.reservations.rows ∧ r.orderId = some order.id ∧
    r.status = .active ∧ r.variantId = i.variantId ∧ r.quantity = i.quantity
  converted : ∃ c, s.carts.find? cartId = some c ∧ c.status = .converted

section Checkout

variable {cfg : PaymentConfig} {ctx : CheckoutContext} {cartId orderId paymentId userId : ℕ}
  {total : ℚ} {items : List CartItem} {dto : CheckoutDto} {s t : Shop} {cart : Cart}

theorem Chosen.nodup (hs : References s) (h : Chosen s userId dto cart items) :
    (items.map CartItem.variantId).Nodup := by
  rw [h.lines]
  refine List.Nodup.map_on ?_ ((List.Nodup.of_map _ s.cartItems.nodup).filter _)
  intro a ha b hb hv
  obtain ⟨ha, hca⟩ := List.mem_filter.mp ha
  obtain ⟨hb, hcb⟩ := List.mem_filter.mp hb
  simp only [Bool.and_eq_true, beq_iff_eq, Bool.not_eq_true'] at hca hcb
  exact hs.variants a ha b hb hca.2 hcb.2 (hca.1.trans hcb.1.symm) hv

theorem Stocked.unique (hn : (items.map CartItem.variantId).Nodup)
    (h : Stocked cartId total items orderId s) {i : CartItem} (hi : i ∈ items) :
    ∃! r, r ∈ s.reservations.rows ∧ r.orderId = some orderId ∧ r.status = .active ∧
      r.variantId = i.variantId ∧ r.quantity = i.quantity := by
  have hmem : (i.variantId, i.quantity) ∈
      (reservationsOf orderId s).map fun r => (r.variantId, r.quantity) := by
    rw [h.reserved]
    exact List.mem_map.mpr ⟨i, hi, rfl⟩
  obtain ⟨r, hr, hline⟩ := List.mem_map.mp hmem
  obtain ⟨hrow, hlinked⟩ := List.mem_filter.mp hr
  simp only [Bool.and_eq_true, beq_iff_eq] at hlinked
  obtain ⟨hv, hq⟩ := Prod.mk.inj hline
  refine ⟨r, ⟨hrow, hlinked.1, hlinked.2, hv, hq⟩, ?_⟩
  rintro r' ⟨hrow', horder', hst', hv', -⟩
  have hr' : r' ∈ reservationsOf orderId s :=
    List.mem_filter.mpr ⟨hrow', by simp [horder', hst']⟩
  have hvariants : ((reservationsOf orderId s).map StockReservation.variantId).Nodup := by
    have hfst := congrArg (List.map Prod.fst) h.reserved
    simp only [List.map_map] at hfst
    exact hfst ▸ hn
  exact List.inj_on_of_nodup_map hvariants hr' hr (hv'.trans hv.symm)

theorem Settled.completed {order : Order} (hn : (items.map CartItem.variantId).Nodup)
    (h : Settled cartId (amountOf items) items orderId paymentId s)
    (horder : s.orders.find? orderId = some order) (ids : List ℕ) :
    Completed cartId items ⟨some order, some paymentId, ids⟩ s order := by
  obtain rfl : order.id = orderId := (Table.find?_mem horder).2
  obtain ⟨o, ho, hcart, hsub, hgrand, -⟩ := h.order
  obtain rfl := Option.some.inj (horder.symm.trans ho)
  obtain ⟨o, ho, hst⟩ := h.confirmed
  obtain rfl := Option.some.inj (horder.symm.trans ho)
  obtain ⟨p, hp, hpo, hamount⟩ := h.payment
  obtain ⟨q, hq, hcap⟩ := h.captured
  obtain rfl := Option.some.inj (hp.symm.trans hq)
  obtain rfl : p.id = paymentId := (Table.find?_mem hp).2
  exact ⟨horder, rfl, hst, hcart, hgrand, hsub, congrArg List.sum h.lines,
    ⟨p, rfl, hp, hpo, hcap, hamount⟩, fun i hi => h.unique hn hi, h.converted⟩

theorem alone_concludeCheckout {inst : WorkflowInstance CheckoutContext}
    (hn : (items.map CartItem.variantId).Nodup)
    (h : inst.status = .completed → ∃ oid pid, inst.context.orderId = some oid ∧
      inst.context.paymentId = some pid ∧ Settled cartId (amountOf items) items oid pid s) :
    Alone Untimed (Returns fun result t => ∃ order, Completed cartId items result t order)
      (concludeCheckout inst) s := by
  refine Alone.ensureBind (fun hst => ?_) fun _ => trivial
  obtain ⟨oid, pid, horder, hpay, hsettled⟩ := h hst
  refine Alone.orThrowBind (fun id hid => ?_) fun _ => trivial
  obtain rfl := Option.some.inj (horder.symm.trans hid)
  refine Alone.queryBind (fun i _ _ => Alone.done ?_) fun _ _ _ => trivial
  obtain ⟨o, ho, -, -, -, hdel⟩ := hsettled.order
  refine ⟨o, ?_⟩
  rw [ho, hpay]
  simp only [Option.filter, hdel]
  exact hsettled.completed hn ho _

theorem chosen_withItems (hc : cart ∈ s.carts.rows) (hst : cart.status = .active)
    (hnamed : ∀ id, dto.cartId = some id → cart.id = id)
    (hown : dto.cartId = none → cart.userId = some userId) :
    Chosen s userId dto (withItems s cart).1 (withItems s cart).2 :=
  ⟨hc, hst, rfl, hnamed, hown⟩

theorem alone_selectCart (userId : ℕ) (dto : CheckoutDto) :
    Alone Untimed (fun r t => t = s ∧ ∀ found, r = .ok (some found) →
      Chosen s userId dto found.1 found.2) (selectCart userId dto) s := by
  unfold selectCart
  split
  next id hid =>
    refine Alone.bind (R := fun r t => t = s ∧ ∀ found, r = .ok found →
      Chosen s userId dto found.1 found.2) ?_ ?_ fun _ t h => ⟨h.1, nofun⟩
    · refine Alone.queryBind (fun i _ _ => ?_) fun _ _ _ => ⟨rfl, nofun⟩
      refine Alone.orThrowBind (fun found hfound => ?_) fun _ => ⟨rfl, nofun⟩
      refine Alone.ensureBind (fun _ => Alone.done ⟨rfl, ?_⟩) fun _ => ⟨rfl, nofun⟩
      rintro _ ⟨⟩
      obtain ⟨hfound, hst⟩ := Option.filter_eq_some_iff.mp hfound
      obtain ⟨cart, hcart, rfl⟩ := Option.map_eq_some_iff.mp hfound
      obtain ⟨hmem, hkey⟩ := Table.find?_mem (Option.filter_eq_some_iff.mp hcart).1
      refine chosen_withItems hmem (beq_iff_eq.mp hst) (fun id' hid' => ?_) fun hnone => ?_
      · exact hkey.trans (Option.some.inj (hid.symm.trans hid'))
      · rw [hid] at hnone
        cases hnone
    · rintro found t ⟨rfl, h⟩
      refine Alone.done ⟨rfl, ?_⟩
      rintro _ ⟨⟩
      exact h found rfl
  next hid =>
    refine Alone.query (fun i _ _ => ⟨rfl, fun found hfound => ?_⟩) fun _ _ _ => ⟨rfl, nofun⟩
    obtain ⟨cart, hcart, rfl⟩ := Option.map_eq_some_iff.mp (Except.ok.inj hfound)
    have hmem := List.mem_of_mem_head? (Option.mem_def.mpr hcart)
    rw [List.mem_insertionSort, List.mem_filter] at hmem
    obtain ⟨hrow, hfits⟩ := hmem
    simp only [Bool.and_eq_true, beq_iff_eq] at hfits
    refine chosen_withItems hrow hfits.1.2 (fun id' hid' => ?_) fun _ => hfits.1.1
    rw [hid] at hid'
    cases hid'

theorem every_validateTenders (userId : ℕ) (dto : CheckoutDto) :
    (validateTenders userId dto).Every (fun _ _ _ => True) fun _ _ t t' => t' = t := by
  refine Prog.Every.bind ?_ fun _ => ?_
  · cases truthy dto.giftCardCode with
    | none => trivial
    | some code => exact Prog.Every.bind (every_query fun _ _ _ => rfl) fun _ => Prog.every_ensure _ _
  · cases dto.walletAmount.filter fun a => decide (0 < a) with
    | none => trivial
    | some amount => exact Prog.Every.bind (every_query fun _ _ _ => rfl) fun _ => Prog.every_ensure _ _

theorem alone_checkout (token : ℕ) (hcfg : cfg.autoSettle = true) (hs : References s) :
    Alone Untimed (Returns fun result t => ∃ cart items order, Chosen s userId dto cart items ∧
      Completed cart.id items result t order) (checkout cfg token userId dto) s := by
  refine Alone.withLock_blind (fun _ => trivial) ?_ (fun _ _ _ => trivial) fun m => ?_
  · rintro (e | result) t m h
    · trivial
    · obtain ⟨cart, items, order, hchosen, hdone⟩ := h
      exact ⟨cart, items, order, hchosen, ⟨hdone.stored, hdone.returned, hdone.confirmed, hdone.cart,
        hdone.grandTotal, hdone.subtotal, hdone.lines, hdone.payment, hdone.reserved,
        hdone.converted⟩⟩
  refine Alone.bind (alone_selectCart userId dto) ?_ fun _ _ _ => trivial
  rintro found t ⟨rfl, hchosen⟩
  refine Alone.orThrowBind (fun cart hcart => ?_) fun _ => trivial
  have hc := hchosen cart (congrArg Except.ok (Option.filter_eq_some_iff.mp hcart).1)
  refine Alone.bind (Alone.reading (every_validateTenders userId dto)) ?_ fun _ _ _ => trivial
  rintro _ _ rfl
  have hs' : References (Lockable.setLocks ShopCall m s) := ⟨hs.lines, hs.reservations, hs.variants⟩
  have hc' : Chosen s userId dto cart.1 cart.2 :=
    ⟨hc.row, hc.active, hc.lines, hc.named, hc.own⟩
  refine Alone.bind (alone_placement token cart.1 hcfg hs') (fun inst t ht => ?_) fun _ _ _ => trivial
  refine Alone.mono ?_ (alone_concludeCheckout (hc'.nodup hs) ht)
  rintro (e | result) u h
  · trivial
  · obtain ⟨order, hdone⟩ := h
    exact ⟨cart.1, cart.2, order, hc', hdone⟩

end Checkout

/-- In server-capture mode, a checkout that returns, with no step timing out and no other request
running, has confirmed an order of the cart that costs the sum of its lines, captured a payment of
that amount, reserved every line once and converted the cart. -/
theorem checkout_completed (cfg : PaymentConfig) (token userId : ℕ) (dto : CheckoutDto) (s t : Shop)
    (result : CheckoutResult) (hcfg : cfg.autoSettle = true) (hs : References s)
    (hr : Pool.Ran Untimed (checkout cfg token userId dto) s (.ok result) t) :
    ∃ cart items order, Chosen s userId dto cart items ∧
      Completed cart.id items result t order :=
  ran_alone (alone_checkout token hcfg hs) hr

def paidCalls : List ShopInput := (answered 61 .authorized ++ answered 28 .captured).map Prod.snd

/-- The order that a checkout of one line confirms. -/
def placed : Order :=
  { id := 0, orderNumber := ⟨0, 0⟩, customerId := some 1, cartId := some 0,
    fulfillmentWarehouseId := some 0, subtotal := 100, grandTotal := 100, placedAt := some 0,
    status := .confirmed }

theorem checkout_completed_oneLine :
    let final := (Pool.solo (checkout serverCapture 0 1 anyWarehouse) oneLine paidCalls).state
    ∃ cart items order, Chosen oneLine 1 anyWarehouse cart items ∧
      Completed cart.id items ⟨some placed, some 0, [0]⟩ final order := by
  have hrefs : References oneLine := by
    refine ⟨fun i hi => (nomatch hi), fun r hr => (nomatch hr), fun a ha b hb _ _ _ _ => ?_⟩
    exact (List.mem_singleton.mp ha).trans (List.mem_singleton.mp hb).symm
  have hran : Pool.Ran Untimed (checkout serverCapture 0 1 anyWarehouse) oneLine
      (.ok ⟨some placed, some 0, [0]⟩)
      (Pool.solo (checkout serverCapture 0 1 anyWarehouse) oneLine paidCalls).state :=
    ⟨paidCalls, by decide +kernel, by decide +kernel, rfl⟩
  exact checkout_completed serverCapture 0 1 anyWarehouse oneLine _ _ rfl hrefs hran

end ElectronicsCart.Orders
