import ElectronicsCart.Orders.CheckoutEffects

/-!
# Calls that leave the goods alone

The payment side of a checkout and the writes of its order touch neither the stock nor its
reservations nor the lines of an order.
-/

namespace ElectronicsCart

open Interleaving Relational Inventory Payments Orders

/-- Stock, reservations, the lines of orders and what stock refers to are as they were. -/
structure SameGoods (s s' : Shop) : Prop where
  inventory : s'.inventory = s.inventory
  reservations : s'.reservations = s.reservations
  orderItems : s'.orderItems = s.orderItems
  warehouses : s'.warehouses = s.warehouses
  variants : s'.variants = s.variants

theorem SameGoods.refl (s : Shop) : SameGoods s s := ⟨rfl, rfl, rfl, rfl, rfl⟩

theorem SameGoods.trans {a b c : Shop} (h : SameGoods a b) (h' : SameGoods b c) : SameGoods a c :=
  ⟨h'.inventory.trans h.inventory, h'.reservations.trans h.reservations,
    h'.orderItems.trans h.orderItems, h'.warehouses.trans h.warehouses,
    h'.variants.trans h.variants⟩

/-- No call of the program touches the goods. -/
def Spares {α : Type} (p : ShopProg α) : Prop :=
  p.Every (fun _ _ _ => True) fun _ _ s s' => SameGoods s s'

variable {α β : Type}

namespace Spares

theorem query {l : ShopCall} {f : ShopInput → Shop → β} : Spares (query l f) :=
  every_query fun _ s _ => .refl s

theorem atomic {l : ShopCall} {f : ShopInput → Shop → Except Failure (β × Shop)}
    (h : ∀ i s b s', f i s = .ok (b, s') → SameGoods s s') : Spares (atomic l f) :=
  every_atomic (fun _ s _ => .refl s) fun i s b s' _ _ hf => h i s b s' hf

theorem bind {p : ShopProg α} {f : α → ShopProg β} (hp : Spares p) (hf : ∀ a, Spares (f a)) :
    Spares (p.bind f) :=
  Prog.Every.bind hp hf

theorem attempt {p : ShopProg α} (hp : Spares p) : Spares p.attempt := Prog.Every.attempt hp

theorem tryCatch {p : ShopProg α} {h : Failure → ShopProg α} (hp : Spares p)
    (hh : ∀ e, Spares (h e)) : Spares (p.attempt.bind (Prog.orElse h)) :=
  Prog.Every.tryCatch hp hh

theorem withLock {key : ShopLock} {token : ℕ} {p : ShopProg α} (hp : Spares p) :
    Spares (LockService.withLock key token p) := by
  refine LockService.every_withLock (fun l i m s _ _ => ?_) hp
  exact ⟨.refl s, rfl, rfl, rfl, rfl, rfl⟩

theorem ensure (c : Prop) [Decidable c] (e : Failure) : Spares (Prog.ensure c e) := trivial

theorem orThrow (e : Failure) (o : Option α) : Spares (Prog.orThrow e o) := Prog.every_orThrow e o

theorem pure (a : α) : Spares (pure a) := trivial

theorem throw (e : Failure) : Spares (throw e : ShopProg α) := trivial

end Spares

/-! ### Payments -/

theorem spares_gatewayCall (request : GatewayRequest) : Spares (gatewayCall request) := by
  refine Prog.every_call fun i s _ => ?_
  split <;> exact ⟨rfl, rfl, rfl, rfl, rfl⟩

theorem spares_withRetry {p : ShopProg α} (hp : Spares p) : ∀ n, Spares (withRetry p n)
  | 0 => hp
  | n + 1 => by
    refine Spares.tryCatch hp fun err => ?_
    split
    · exact spares_withRetry hp n
    · exact .throw err

theorem spares_requirePayment (action : Option PaymentAction) (id : ℕ) :
    Spares (requirePayment action id) :=
  Spares.bind .query fun found => .orThrow _ found

theorem spares_createAttempt (id n : ℕ) (status : PaymentStatus) (message : Option String) :
    Spares (createAttempt id n status message) := by
  refine .atomic fun i s b s' h => ?_
  simp only [insertAttempt, bind_eq_ok, check_eq_ok, pure_eq_ok, Prod.mk.injEq] at h
  obtain ⟨-, -, -, rfl⟩ := h
  exact ⟨rfl, rfl, rfl, rfl, rfl⟩

theorem spares_createTransaction (id : ℕ) (type : PaymentTxType) (amount : ℚ)
    (reference : Option String) : Spares (createTransaction id type amount reference) := by
  refine .atomic fun i s b s' h => ?_
  cases h
  exact ⟨rfl, rfl, rfl, rfl, rfl⟩

theorem spares_audit (id : ℕ) (action : String) (actorId : Option ℕ) (a b : Option PaymentStatus) :
    Spares (audit id action actorId a b) := by
  refine .atomic fun i s b s' h => ?_
  cases h
  exact ⟨rfl, rfl, rfl, rfl, rfl⟩

theorem spares_createEvent (id : ℕ) (event : String) : Spares (createEvent id event) := by
  refine .atomic fun i s b s' h => ?_
  cases h
  exact ⟨rfl, rfl, rfl, rfl, rfl⟩

theorem spares_enqueue : Spares enqueue := by
  refine .atomic fun i s b s' h => ?_
  cases h
  exact .refl s

theorem spares_updatePayment (id : ℕ) (read : PaymentStatus) (write : PaymentWrite) :
    Spares (updatePayment id read write) := by
  refine .atomic fun i s b s' h => ?_
  obtain ⟨q, -, -, rfl⟩ := writePayment_cases h
  exact ⟨rfl, rfl, rfl, rfl, rfl⟩

theorem spares_findGateway : Spares findGateway := by
  refine Spares.bind .query fun primary => ?_
  cases primary with
  | some g => exact .pure _
  | none => exact .query

theorem spares_create (actorId : ℕ) (dto : CreatePaymentDto) : Spares (create actorId dto) := by
  refine Spares.bind .query fun found => (Spares.orThrow _ _).bind fun order => ?_
  refine (Spares.ensure _ _).bind fun _ => (Spares.ensure _ _).bind fun _ => ?_
  refine spares_findGateway.bind fun found => (Spares.orThrow _ _).bind fun gateway => ?_
  refine (spares_withRetry (spares_gatewayCall _) _).bind fun gwOrder => ?_
  refine Spares.bind (.atomic fun i s p s' h => ?_) fun payment => ?_
  · obtain ⟨mk, hmk, -, -, -, -, rfl⟩ := insertPayment_cases h
    exact ⟨rfl, rfl, rfl, rfl, rfl⟩
  · refine (spares_createAttempt _ _ _ _).bind fun _ => (spares_audit _ _ _ _ _).bind fun _ => ?_
    exact (spares_createEvent _ _).bind fun _ => .pure _

theorem spares_markFailed (payment : Payment) (actorId : ℕ) (reason : String) :
    Spares (markFailed payment actorId reason) :=
  (spares_updatePayment _ _ _).bind fun _ => (spares_audit _ _ _ _ _).bind fun _ => .throw _

theorem spares_authorizeWithGateway (payment : Payment) (actorId attemptNo : ℕ) :
    Spares (authorizeWithGateway payment actorId attemptNo) := by
  refine (Spares.orThrow _ _).bind fun gatewayOrderId => ?_
  refine (spares_withRetry (spares_gatewayCall _) _).bind fun result => ?_
  split
  · exact (spares_createAttempt _ _ _ _).bind fun _ => .pure _
  split
  · exact .pure _
  · refine (spares_updatePayment _ _ _).bind fun _ => ?_
    refine (spares_createTransaction _ _ _ _).bind fun _ => ?_
    refine (spares_createAttempt _ _ _ _).bind fun _ => (spares_audit _ _ _ _ _).bind fun _ => ?_
    exact (spares_createEvent _ _).bind fun _ => .pure _

theorem spares_authorize (token id actorId : ℕ) (asAdmin : Bool) :
    Spares (authorize token id actorId asAdmin) := by
  refine .withLock ((spares_requirePayment _ _).bind fun payment => (Spares.ensure _ _).bind fun _ => ?_)
  refine (Spares.ensure _ _).bind fun _ => Spares.bind .query fun attemptNo => ?_
  refine Spares.bind (.tryCatch (spares_authorizeWithGateway _ _ _) fun err => ?_) fun outcome => ?_
  · exact (spares_createAttempt _ _ _ _).bind fun _ => .throw err
  · cases outcome with
    | some updated => exact .pure _
    | none => exact spares_markFailed _ _ _

theorem goods_confirmOrder {order : Order} {now : ℕ} {u : Unit} {s s' : Shop}
    (h : Payments.confirmOrder order now s = .ok (u, s')) : SameGoods s s' := by
  simp only [Payments.confirmOrder, bind_eq_ok, existing_eq_ok] at h
  obtain ⟨-, -, h⟩ := h
  cases hc : order.cartId with
  | none =>
    simp only [hc, pure_eq_ok, Prod.mk.injEq] at h
    obtain ⟨-, rfl⟩ := h
    exact ⟨rfl, rfl, rfl, rfl, rfl⟩
  | some cartId =>
    simp only [hc, bind_eq_ok, existing_eq_ok, pure_eq_ok, Prod.mk.injEq] at h
    obtain ⟨-, -, -, rfl⟩ := h
    exact ⟨rfl, rfl, rfl, rfl, rfl⟩

theorem spares_confirmAfterCapture (cfg : PaymentConfig) (orderId : ℕ) :
    Spares (confirmAfterCapture cfg orderId) := by
  unfold confirmAfterCapture
  split
  · refine Spares.bind .query fun found => ?_
    cases found with
    | none => exact .pure _
    | some order =>
      dsimp only
      split
      · exact .pure _
      · refine Spares.bind (.attempt (.atomic fun i s b s' h => ?_)) fun _ => .pure _
        exact goods_confirmOrder h
  · exact .pure _

theorem spares_capturePayment (cfg : PaymentConfig) (payment : Payment) (actorId : ℕ) :
    Spares (capturePayment cfg payment actorId) := by
  unfold capturePayment
  split
  · split
    · exact (spares_updatePayment _ _ _).bind fun _ => (spares_audit _ _ _ _ _).bind fun _ => .pure _
    · exact .throw _
  refine (spares_withRetry (spares_gatewayCall _) _).bind fun result => ?_
  split
  · exact spares_markFailed _ _ _
  · refine (spares_updatePayment _ _ _).bind fun _ => ?_
    refine (spares_createTransaction _ _ _ _).bind fun _ => (spares_audit _ _ _ _ _).bind fun _ => ?_
    refine (spares_createEvent _ _).bind fun _ => (spares_confirmAfterCapture _ _).bind fun _ => ?_
    exact spares_enqueue.bind fun _ => .pure _

theorem spares_capture (cfg : PaymentConfig) (token id actorId : ℕ) (asAdmin : Bool) :
    Spares (capture cfg token id actorId asAdmin) := by
  refine .withLock ((spares_requirePayment _ _).bind fun payment => (Spares.ensure _ _).bind fun _ => ?_)
  split
  · exact .pure _
  · exact (Spares.ensure _ _).bind fun _ => spares_capturePayment _ _ _

/-! ### Beside a reservation -/

theorem spares_createMovement (warehouseId variantId : ℕ) (type : MovementType) (quantity : ℤ)
    (referenceType : String) (referenceId : ℕ) (notes : Option String) : Spares
      (createMovement warehouseId variantId type quantity referenceType referenceId notes) := by
  refine .atomic fun i s b s' h => ?_
  simp only [insertMovement, bind_eq_ok, check_eq_ok, pure_eq_ok, Prod.mk.injEq] at h
  obtain ⟨t, ⟨-, -, -, -, rfl⟩, -, rfl⟩ := h
  exact ⟨rfl, rfl, rfl, rfl, rfl⟩

theorem spares_maybeLowStock (warehouseId variantId : ℕ) :
    Spares (maybeLowStock warehouseId variantId) := by
  refine Spares.bind .query fun rows => ?_
  dsimp only
  split
  · exact .pure _
  refine Spares.bind .query fun found => ?_
  split
  · exact .pure _
  · refine .atomic fun i s b s' h => ?_
    simp only [createAlert, bind_eq_ok, check_eq_ok, pure_eq_ok, Prod.mk.injEq] at h
    obtain ⟨-, -, -, rfl⟩ := h
    exact ⟨rfl, rfl, rfl, rfl, rfl⟩

/-! ### The steps of a checkout -/

theorem spares_whenSettling {cfg : PaymentConfig} {p : ShopProg Unit} (hp : Spares p) :
    Spares (whenSettling cfg p) := by
  unfold whenSettling
  split
  · exact hp
  · exact .pure _

theorem spares_transitionStatus (orderId : ℕ) (before after : OrderStatus) (note : String) :
    Spares (transitionStatus orderId before after note) := by
  refine .atomic fun i s b s' h => ?_
  simp only [transitionOrder, bind_eq_ok, existing_eq_ok, pure_eq_ok, Prod.mk.injEq] at h
  obtain ⟨-, -, -, rfl⟩ := h
  exact ⟨rfl, rfl, rfl, rfl, rfl⟩

theorem spares_markConverted (cartId : ℕ) : Spares (markConverted cartId) := by
  refine .atomic fun i s b s' h => ?_
  simp only [convertCart, bind_eq_ok, existing_eq_ok, pure_eq_ok, Prod.mk.injEq] at h
  obtain ⟨-, -, -, rfl⟩ := h
  exact ⟨rfl, rfl, rfl, rfl, rfl⟩

theorem spares_createRiskScore (orderId : ℕ) (score : ℤ) (level : RiskLevel) :
    Spares (createRiskScore orderId score level) := by
  refine .atomic fun i s b s' h => ?_
  simp only [insertRiskScore, bind_eq_ok, check_eq_ok, pure_eq_ok, Prod.mk.injEq] at h
  obtain ⟨-, -, -, -, -, rfl⟩ := h
  exact ⟨rfl, rfl, rfl, rfl, rfl⟩

theorem spares_createPayment (ctx : CheckoutContext) : Spares (createPayment ctx) :=
  (Spares.ensure _ _).bind fun _ => (Spares.orThrow _ _).bind fun _ =>
    (spares_create _ _).bind fun _ => .pure _

theorem spares_authorizeStep (cfg : PaymentConfig) (token : ℕ) (ctx : CheckoutContext) :
    Spares (authorizeStep cfg token ctx) :=
  spares_whenSettling ((Spares.orThrow _ _).bind fun _ =>
    (spares_authorize _ _ _ _).bind fun _ => .pure _)

theorem spares_captureStep (cfg : PaymentConfig) (token : ℕ) (ctx : CheckoutContext) :
    Spares (captureStep cfg token ctx) :=
  spares_whenSettling ((Spares.orThrow _ _).bind fun _ =>
    (spares_capture _ _ _ _ _).bind fun _ => .pure _)

theorem spares_confirmStep (cfg : PaymentConfig) (ctx : CheckoutContext) :
    Spares (confirmStep cfg ctx) := by
  refine spares_whenSettling ((Spares.ensure _ _).bind fun _ => (Spares.orThrow _ _).bind fun id => ?_)
  exact (spares_transitionStatus _ _ _ _).bind fun _ => (spares_markConverted _).bind fun _ =>
    spares_createRiskScore _ _ _

end ElectronicsCart
