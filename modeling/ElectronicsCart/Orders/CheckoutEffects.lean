import ElectronicsCart.Shop.Effects

/-!
# What the calls of a checkout do

The labels and effects of reserving and releasing stock, of the six steps of `order.placement`
with their compensations, and of `checkout` as a whole.
-/

namespace ElectronicsCart

open Interleaving Relational Inventory Payments Orders

variable {α : Type} {S : ShopCall → Bool}

/-! ### Stock -/

theorem calls_createMovement (warehouseId variantId : ℕ) (type : MovementType) (quantity : ℤ)
    (referenceType : String) (referenceId : ℕ) (notes : Option String) : Calls quiet
      (createMovement warehouseId variantId type quantity referenceType referenceId notes) := by
  refine .atomic rfl fun i s b s' h => .inl ?_
  simp only [insertMovement, bind_eq_ok, check_eq_ok, pure_eq_ok, Prod.mk.injEq] at h
  obtain ⟨t, ⟨-, -, -, -, rfl⟩, -, rfl⟩ := h
  exact ⟨rfl, rfl, rfl, rfl, rfl⟩

theorem calls_maybeLowStock (warehouseId variantId : ℕ) :
    Calls quiet (maybeLowStock warehouseId variantId) := by
  refine Calls.bind (.query rfl) fun rows => ?_
  dsimp only
  split
  · exact .pure _
  refine Calls.bind (.query rfl) fun found => ?_
  split
  · exact .pure _
  · refine .atomic rfl fun i s b s' h => .inl ?_
    simp only [createAlert, bind_eq_ok, check_eq_ok, pure_eq_ok, Prod.mk.injEq] at h
    obtain ⟨-, -, -, rfl⟩ := h
    exact ⟨rfl, rfl, rfl, rfl, rfl⟩

theorem calls_reserve (token : ℕ) (dto : ReserveStockDto) : Calls quiet (reserve token dto) := by
  refine .withLock rfl rfl (Calls.bind ?_ fun _ => ?_)
  · exact Calls.bind (.query rfl) fun found => .orThrow _ found
  refine Calls.bind (.query rfl) fun rows => (Calls.ensure _ _).bind fun _ => ?_
  refine Calls.bind (.atomic rfl fun i s b s' h => .inl ?_) fun _ => ?_
  · simp only [reserveRows, bind_eq_ok, pure_eq_ok, Prod.mk.injEq, Prod.exists] at h
    obtain ⟨-, T, -, -, rfl⟩ := h
    exact ⟨rfl, rfl, rfl, rfl, rfl⟩
  refine Calls.bind (.atomic rfl fun i s b s' h => .inl ?_) fun reservation => ?_
  · simp only [createReservation, bind_eq_ok, check_eq_ok, pure_eq_ok, Prod.mk.injEq] at h
    obtain ⟨-, -, -, -, -, -, -, -, -, -, -, rfl⟩ := h
    exact ⟨rfl, rfl, rfl, rfl, rfl⟩
  · exact (calls_createMovement _ _ _ _ _ _ _).bind fun _ =>
      (calls_maybeLowStock _ _).bind fun _ => .pure _

theorem calls_releaseReservation (token id : ℕ) : Calls quiet (releaseReservation token id) := by
  refine Calls.bind (.query rfl) fun found => (Calls.orThrow _ _).bind fun reservation => ?_
  refine (Calls.ensure _ _).bind fun _ => .withLock rfl rfl (Calls.bind (.query rfl) fun rows => ?_)
  refine Calls.bind (.atomic rfl fun i s b s' h => .inl ?_) fun _ => ?_
  · simp only [releaseRows, bind_eq_ok, existing_eq_ok, pure_eq_ok, Prod.mk.injEq, Prod.exists] at h
    obtain ⟨-, T, -, -, -, -, rfl⟩ := h
    exact ⟨rfl, rfl, rfl, rfl, rfl⟩
  · exact calls_createMovement _ _ _ _ _ _ _

/-! ### The steps of a checkout -/

def placing : ShopCall → Bool
  | .order (.transitionStatus _ _ .cancelled) => true
  | .order (.transitionStatus _ _ .confirmed) => true
  | l => capturing l

theorem placing_of_capturing {l : ShopCall} (h : capturing l = true) : placing l = true := by
  unfold placing
  split <;> first | exact h | rfl

/-- The labels of a checkout but the two that confirm an order. -/
def steady : ShopCall → Bool
  | .payment (.confirmOrder _) => false
  | .order (.transitionStatus _ _ .confirmed) => false
  | l => placing l

theorem placing_of_steady {l : ShopCall} (h : steady l = true) : placing l = true := by
  unfold steady at h
  split at h <;> first | exact h | cases h

theorem steady_of_routine {l : ShopCall} (h : routine l = true) : steady l = true := by
  have hplacing := placing_of_capturing (capturing_of_routine h)
  unfold steady
  split <;> first | exact hplacing | cases h

theorem Calls.steady {p : ShopProg α} (h : Calls ElectronicsCart.routine p) :
    Calls ElectronicsCart.steady p :=
  h.mono fun _ => steady_of_routine

theorem calls_createDraftOrder (cart : Cart) (items : List CartItem) (ctx : CheckoutContext) :
    Calls amending (createDraftOrder cart items ctx) :=
  Calls.bind (.atomic rfl fun i _ order _ h =>
    .inr ⟨cart, items, ctx, i.reply.random, order, rfl, h⟩) fun _ => .pure _

theorem calls_reserveLines (token : ℕ) (ctx : CheckoutContext) (items : List CartItem) :
    Calls quiet (reserveLines token ctx items) := by
  induction items with
  | nil => exact .pure _
  | cons i items ih => exact (calls_reserve _ _).bind fun _ => ih.bind fun _ => .pure _

theorem calls_linkReservations (ids : List ℕ) (orderId : Option ℕ) :
    Calls quiet (atomic (.order (.linkReservations ids)) fun _ s =>
      .ok ((), linkReservations ids orderId s)) := by
  refine .atomic rfl fun i s b s' h => .inl ?_
  cases h
  exact ⟨rfl, rfl, rfl, rfl, rfl⟩

theorem calls_reserveInventory (token : ℕ) (items : List CartItem) (ctx : CheckoutContext) :
    Calls quiet (reserveInventory token items ctx) :=
  (calls_reserveLines _ _ _).bind fun _ => (calls_linkReservations _ _).bind fun _ => .pure _

theorem calls_releaseInventory (token : ℕ) (ctx : CheckoutContext) :
    Calls quiet (releaseInventory token ctx) := by
  refine Prog.Every.callAll fun p hp => ?_
  obtain ⟨id, -, rfl⟩ := List.mem_map.mp hp
  exact calls_releaseReservation token id

theorem calls_createPayment (ctx : CheckoutContext) : Calls routine (createPayment ctx) :=
  (Calls.ensure _ _).bind fun _ => (Calls.orThrow _ _).bind fun _ =>
    (calls_create _ _).bind fun _ => .pure _

theorem calls_voidPayment (token : ℕ) (ctx : CheckoutContext) :
    Calls amending (voidPayment token ctx) := by
  unfold voidPayment
  cases ctx.paymentId with
  | none => exact .pure _
  | some id => exact calls_voidOrCancel token id ctx.userId

theorem calls_whenSettling {cfg : PaymentConfig} {p : ShopProg Unit} (hp : Calls S p) :
    Calls S (whenSettling cfg p) := by
  unfold whenSettling
  split
  · exact hp
  · exact .pure _

theorem calls_transitionStatus {S : ShopCall → Bool} {orderId : ℕ} {before after : OrderStatus}
    {note : String} (hl : S (.order (.transitionStatus orderId before after)) = true) :
    Calls S (transitionStatus orderId before after note) :=
  .atomic hl fun _ _ _ _ h => .inr ⟨note, h⟩

theorem calls_markConverted (cartId : ℕ) : Calls amending (markConverted cartId) :=
  .atomic rfl fun _ _ _ _ h => .inr h

theorem calls_createRiskScore (orderId : ℕ) (score : ℤ) (level : RiskLevel) :
    Calls quiet (createRiskScore orderId score level) := by
  refine .atomic rfl fun i s b s' h => .inl ?_
  simp only [insertRiskScore, bind_eq_ok, check_eq_ok, pure_eq_ok, Prod.mk.injEq] at h
  obtain ⟨-, -, -, -, -, rfl⟩ := h
  exact ⟨rfl, rfl, rfl, rfl, rfl⟩

theorem calls_confirmStep (hS : ∀ l, amending l = true → S l = true)
    (hl : ∀ id, S (.order (.transitionStatus id .pending .confirmed)) = true)
    (cfg : PaymentConfig) (ctx : CheckoutContext) : Calls S (confirmStep cfg ctx) := by
  refine calls_whenSettling ((Calls.ensure _ _).bind fun _ => (Calls.orThrow _ _).bind fun id => ?_)
  refine (calls_transitionStatus (hl id)).bind fun _ => ((calls_markConverted _).mono hS).bind
    fun _ => (calls_createRiskScore _ _ _).amending.mono hS

theorem calls_cancelDraft {S : ShopCall → Bool} (ctx : CheckoutContext)
    (hl : ∀ id, S (.order (.transitionStatus id .pending .cancelled)) = true) :
    Calls S (cancelDraft ctx) := by
  unfold cancelDraft
  cases ctx.orderId with
  | none => exact .pure _
  | some id => exact calls_transitionStatus (hl _)

theorem calls_cancelConfirmed {S : ShopCall → Bool} (cfg : PaymentConfig) (ctx : CheckoutContext)
    (hl : ∀ id, S (.order (.transitionStatus id .confirmed .cancelled)) = true) :
    Calls S (cancelConfirmed cfg ctx) := by
  refine calls_whenSettling ?_
  cases ctx.orderId with
  | none => exact .pure _
  | some id => exact calls_transitionStatus (hl _)

theorem calls_noPatch {p : ShopProg Unit} (hp : Calls S p) : Calls S (noPatch p) :=
  hp.bind fun _ => .pure _

theorem calls_authorizeStep (cfg : PaymentConfig) (token : ℕ) (ctx : CheckoutContext) :
    Calls amending (authorizeStep cfg token ctx) :=
  calls_whenSettling ((Calls.orThrow _ _).bind fun _ => (calls_authorize _ _ _ _).bind fun _ => .pure _)

theorem calls_captureStep (cfg : PaymentConfig) (token : ℕ) (ctx : CheckoutContext) :
    Calls settling (captureStep cfg token ctx) :=
  calls_whenSettling ((Calls.orThrow _ _).bind fun _ => (calls_capture _ _ _ _ _).bind fun _ => .pure _)

theorem calls_captureStep_charging (cfg : PaymentConfig) (token : ℕ) (ctx : CheckoutContext) :
    Calls charging (captureStep cfg token ctx) := by
  unfold captureStep whenSettling
  split
  next hsettle =>
    have hcfg : cfg.needsPostCaptureOrderConfirm = true → ∀ id,
        charging (.payment (.confirmOrder id)) = true := by
      intro hneeds id
      simp only [PaymentConfig.needsPostCaptureOrderConfirm, Bool.and_eq_true, bne_iff_ne, ne_eq,
        beq_iff_eq] at hneeds
      simp [PaymentConfig.autoSettle, hneeds.1, hneeds.2] at hsettle
    refine (Calls.orThrow _ _).bind fun _ => (calls_captureOf ⟨?_, ?_, ?_, hcfg⟩ _ _ _ _).bind fun _ => .pure _
    · exact fun _ h => charging_of_routine (routine_of_amending h)
    · exact fun _ _ => rfl
    · exact fun _ _ => rfl
  next => exact .pure _

/-! ### Checkout -/

theorem calls_selectCart (userId : ℕ) (dto : CheckoutDto) : Calls quiet (selectCart userId dto) := by
  unfold selectCart
  split
  · refine Calls.bind ?_ fun _ => .pure _
    exact Calls.bind (.query rfl) fun _ => (Calls.orThrow _ _).bind fun _ =>
      (Calls.ensure _ _).bind fun _ => .pure _
  · exact .query rfl

theorem calls_validateTenders (userId : ℕ) (dto : CheckoutDto) :
    Calls quiet (validateTenders userId dto) := by
  refine Calls.bind ?_ fun _ => ?_
  · cases truthy dto.giftCardCode with
    | none => exact .pure _
    | some code => exact Calls.bind (.query rfl) fun _ => .ensure _ _
  · cases dto.walletAmount.filter fun a => decide (0 < a) with
    | none => exact .pure _
    | some amount => exact Calls.bind (.query rfl) fun _ => .ensure _ _

/-- The compensations that can run. -/
theorem calls_compensateBut {S : ShopCall → Bool} (hS : ∀ l, amending l = true → S l = true)
    (hl : ∀ id, S (.order (.transitionStatus id .pending .cancelled)) = true)
    (cfg : PaymentConfig) (token : ℕ) (cart : Cart) (items : List CartItem) (ctx : CheckoutContext) :
    ∀ step ∈ (steps cfg token cart items).dropLast, ∀ f, step.compensate = some f →
      Calls S (f ctx) := by
  intro step hstep f hf
  simp only [steps, List.dropLast, List.mem_cons, List.not_mem_nil, or_false] at hstep
  rcases hstep with rfl | rfl | rfl | rfl | rfl <;> cases hf
  · exact calls_cancelDraft _ hl
  · exact (calls_releaseInventory _ _).amending.mono hS
  · exact (calls_voidPayment _ _).mono hS
  · exact (calls_whenSettling (calls_voidPayment _ _)).mono hS
  · exact (calls_whenSettling (calls_voidPayment _ _)).mono hS

theorem calls_compensate {S : ShopCall → Bool} (hS : ∀ l, amending l = true → S l = true)
    (hl : ∀ id before, S (.order (.transitionStatus id before .cancelled)) = true)
    (cfg : PaymentConfig) (token : ℕ) (cart : Cart) (items : List CartItem) (ctx : CheckoutContext) :
    ∀ step ∈ steps cfg token cart items, ∀ f, step.compensate = some f → Calls S (f ctx) := by
  intro step hstep f hf
  have hsplit : steps cfg token cart items = (steps cfg token cart items).dropLast ++
    [{ name := "confirm_order", execute := fun ctx => noPatch (confirmStep cfg ctx),
       compensate := some (cancelConfirmed cfg) }] := rfl
  rw [hsplit] at hstep
  rcases List.mem_append.mp hstep with hstep | hstep
  · exact calls_compensateBut hS (fun id => hl id _) cfg token cart items ctx step hstep f hf
  · obtain rfl := List.mem_singleton.mp hstep
    cases hf
    exact calls_cancelConfirmed _ _ fun id => hl id _

theorem calls_execute (hS : ∀ l, charging l = true → S l = true)
    (hconfirm : ∀ id, S (.order (.transitionStatus id .pending .confirmed)) = true)
    (cfg : PaymentConfig) (token : ℕ) (cart : Cart) (items : List CartItem) :
    ∀ step ∈ steps cfg token cart items, ∀ ctx, Calls S (step.execute ctx) := by
  intro step hstep ctx
  have hroutine : ∀ l, routine l = true → S l = true := fun l h => hS l (charging_of_routine h)
  have hamending : ∀ l, amending l = true → S l = true := fun l h => hroutine l (routine_of_amending h)
  simp only [steps, List.mem_cons, List.not_mem_nil, or_false] at hstep
  rcases hstep with rfl | rfl | rfl | rfl | rfl | rfl
  · exact (calls_createDraftOrder _ _ _).mono hamending
  · exact (calls_reserveInventory _ _ _).routine.mono hroutine
  · exact (calls_createPayment _).mono hroutine
  · exact (calls_noPatch (calls_authorizeStep _ _ _)).mono hamending
  · exact (calls_noPatch (calls_captureStep_charging _ _ _)).mono hS
  · exact calls_noPatch (calls_confirmStep hamending hconfirm _ _)

theorem calls_concludeCheckout (result : WorkflowInstance CheckoutContext) :
    Calls quiet (concludeCheckout result) :=
  (Calls.ensure _ _).bind fun _ => (Calls.orThrow _ _).bind fun _ =>
    Calls.bind (.query rfl) fun _ => .pure _

section Checkout

variable (hS : ∀ l, charging l = true → S l = true)
  (hconfirm : ∀ id, S (.order (.transitionStatus id .pending .confirmed)) = true)
  (hcancel : ∀ id, S (.order (.transitionStatus id .pending .cancelled)) = true)
include hS hconfirm hcancel

theorem calls_placeOrder (cfg : PaymentConfig) (token userId : ℕ) (dto : CheckoutDto) (cart : Cart)
    (items : List CartItem) : Calls S (placeOrder cfg token userId dto cart items) := by
  have hquiet : ∀ l, quiet l = true → S l = true :=
    fun l h => hS l (charging_of_routine (routine_of_quiet h))
  have hamending : ∀ l, amending l = true → S l = true :=
    fun l h => hS l (charging_of_routine (routine_of_amending h))
  refine Calls.bind ?_ fun result => (calls_concludeCheckout result).mono hquiet
  exact SagaCoordinator.every_run (fun _ _ s _ => ⟨hS _ rfl, .inl (.refl s)⟩)
    (fun _ _ s _ => ⟨hS _ rfl, .inl (.refl s)⟩) (calls_execute hS hconfirm _ _ _ _)
    (fun step hstep ctx => calls_compensateBut hamending hcancel _ _ _ _ ctx step hstep) _

theorem calls_checkout (cfg : PaymentConfig) (token userId : ℕ) (dto : CheckoutDto) :
    Calls S (checkout cfg token userId dto) := by
  have hquiet : ∀ l, quiet l = true → S l = true :=
    fun l h => hS l (charging_of_routine (routine_of_quiet h))
  refine .withLock (hS _ rfl) (hS _ rfl) (((calls_selectCart _ _).mono hquiet).bind fun found => ?_)
  refine (Calls.orThrow _ _).bind fun cart => ?_
  refine ((calls_validateTenders _ _).mono hquiet).bind fun _ => ?_
  exact calls_placeOrder hS hconfirm hcancel cfg token userId dto cart.1 cart.2

end Checkout

end ElectronicsCart
