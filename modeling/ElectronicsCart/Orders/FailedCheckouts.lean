import ElectronicsCart.Orders.StatusEffects

/-!
# Money taken by a checkout that failed

When a step of `order.placement` fails, the steps that completed are compensated.  The
compensation of a capture is `voidOrCancel`, and `cancel` refuses a captured payment: the order is
cancelled and the money stays taken.  So a failed checkout leaves no captured payment of its order
behind only when its capture was never recorded, also not by an attempt that was given up.
-/

namespace ElectronicsCart.Orders

open Interleaving Relational Payments

def recordsCapture : ShopCall → Bool
  | .payment (.update _ _ .capture) => true
  | .payment (.update _ _ .captureZero) => true
  | _ => false

def NoCapture (l : ShopCall) (_ : ShopInput) (_ : Shop) : Prop := recordsCapture l = false

instance (l : ShopCall) (i : ShopInput) (s : Shop) : Decidable (NoCapture l i s) :=
  inferInstanceAs (Decidable (recordsCapture l = false))

/-- No payment of an order from the number `n` on is captured. -/
def Uncaptured (n : ℕ) (s : Shop) : Prop :=
  ∀ p ∈ s.payments.rows, n ≤ p.orderId → p.status ≠ .captured

theorem target_ne_captured {id : ℕ} {read : PaymentStatus} {write : PaymentWrite}
    (hl : placing (.payment (.update id read write)) = true)
    (hn : recordsCapture (.payment (.update id read write)) = false) : write.target ≠ .captured := by
  cases write with
  | capture => cases hn
  | captureZero => cases hn
  | webhook status gatewayPaymentId => cases hl
  | refund amount status => cases hl
  | _ => exact PaymentStatus.noConfusion

theorem Uncaptured.effect {n now : ℕ} {l : ShopCall} {s s' : Shop} (hl : placing l = true)
    (hn : recordsCapture l = false) (he : Effect l now s s') (h : Uncaptured n s) :
    Uncaptured n s' := by
  cases he.paymentStep with
  | same hpayments =>
    rw [Uncaptured, hpayments]
    exact h
  | write id read write q hlabel hq hpayments =>
    subst hlabel
    rw [Uncaptured, hpayments]
    refine Table.forall_update (key_applyWrite now write) (fun a _ _ _ => ?_) fun a ha _ => h a ha
    rw [status_applyWrite]
    exact target_ne_captured hl hn
  | create orderId amount mk hmk hlabel hnew hfound hamount hpayments =>
    rw [Uncaptured, hpayments]
    intro r hr horder
    rcases (Table.mem_insert hmk).mp hr with hr | rfl
    · exact h r hr horder
    · rw [(hnew _).2.2]
      decide

/-! ### The order of a workflow that failed -/

/-- No step times out, and the write that cancels the draft is not rejected. -/
def Compensates : ShopCall → ShopInput → Shop → Prop
  | .timer _, i, _ => i.timer = false
  | .order (.transitionStatus _ _ .cancelled), i, _ => i.fails = false
  | _, _, _ => True

def compensates : ShopCall → ShopInput → Bool
  | .timer _, i => !i.timer
  | .order (.transitionStatus _ _ .cancelled), i => !i.fails
  | _, _ => true

instance (l : ShopCall) (i : ShopInput) (s : Shop) : Decidable (Compensates l i s) :=
  decidable_of_iff (compensates l i = true) (by unfold compensates Compensates; split <;> simp)

/-- A captured payment of the order belongs to a cancelled order. -/
def Unreturned (n : ℕ) (s : Shop) : Prop :=
  ∀ p ∈ s.payments.rows, p.orderId = n → p.status = .captured → Cancelled n s

def HasOrder (n : ℕ) (s : Shop) : Prop := (s.orders.find? n).isSome

/-- The orders before the draft `n`. -/
def Undrafted (n : ℕ) (s : Shop) : Prop := s.orders.next = n ∧ Uncaptured n s

section Failed

variable {n : ℕ} {s : Shop}

theorem Undrafted.unreturned (h : Undrafted n s) : Unreturned n s :=
  fun p hp hn hst => absurd hst (h.2 p hp hn.ge)

theorem Undrafted.same {s' : Shop} (hs : SameLedger s s') (h : Undrafted n s) : Undrafted n s' :=
  ⟨by rw [hs.orders, h.1], by rw [Uncaptured, hs.payments]; exact h.2⟩

theorem HasOrder.effect {l : ShopCall} {now : ℕ} {s s' : Shop} (he : Effect l now s s')
    (h : HasOrder n s) : HasOrder n s' := by
  cases orderStep_of_effect he with
  | same horders hhistory => rwa [HasOrder, horders]
  | create cart ctx number userId hl horders hhistory =>
    obtain ⟨o, ho⟩ := Option.isSome_iff_exists.mp h
    rw [HasOrder, horders, Table.find?_insert_of_some _ ho]
    rfl
  | move m note hl hfound horders hhistory =>
    obtain ⟨o, ho⟩ := Option.isSome_iff_exists.mp h
    rw [HasOrder, horders]
    by_cases hid : n = m.orderId
    · subst hid
      rw [Table.find?_update_self (key_setStatus _ _) ho]
      rfl
    · rwa [Table.find?_update_ne (key_setStatus _ _) hid]

/-- The labels of the compensations but the one of the last step. -/
def revoking : ShopCall → Bool
  | .order (.transitionStatus _ _ .cancelled) => true
  | l => amending l

theorem revoking_of_amending (l : ShopCall) (h : amending l = true) : revoking l = true := by
  unfold revoking
  split <;> first | exact h | rfl

theorem Cancelled.effect {l : ShopCall} {now : ℕ} {s s' : Shop} (hl : revoking l = true)
    (he : Effect l now s s') (h : Cancelled n s) : Cancelled n s' := by
  obtain ⟨o, ho, hst⟩ := cancelled_iff.mp h
  refine cancelled_iff.mpr ?_
  cases orderStep_of_effect he with
  | same horders hhistory => exact ⟨o, by rw [horders, ho], hst⟩
  | create cart ctx number userId hl horders hhistory =>
    exact ⟨o, by rw [horders, Table.find?_insert_of_some _ ho], hst⟩
  | move m note hmove hfound horders hhistory =>
    have hafter : m.after = .cancelled := by
      unfold moveOf at hmove
      split at hmove <;> cases hmove
      · unfold revoking at hl
        split at hl
        next heq => cases heq; rfl
        next => cases hl
      · cases hl
    rw [horders]
    by_cases hid : n = m.orderId
    · subst hid
      exact ⟨_, Table.find?_update_self (key_setStatus _ _) ho, hafter⟩
    · exact ⟨o, (Table.find?_update_ne (key_setStatus _ _) hid).trans ho, hst⟩

theorem alone_hasOrder {α : Type} {S : ShopCall → Bool} {p : ShopProg α} (hc : Calls S p)
    (hs : HasOrder n s) : Alone Compensates (fun _ t => HasOrder n t) p s :=
  Alone.of_every (Prog.Every.mono (fun _ _ _ _ _ he => HasOrder.effect he.2) hc) hs

theorem alone_cancelled {α : Type} {p : ShopProg α} (hc : Calls revoking p) (hs : Cancelled n s) :
    Alone Compensates (fun _ t => Cancelled n t) p s :=
  Alone.of_every (Prog.Every.mono (fun _ _ _ _ _ he => Cancelled.effect he.1 he.2) hc) hs

theorem alone_cancelDraft {ctx : CheckoutContext} (hctx : ctx.orderId = some n) (hs : HasOrder n s) :
    Alone Compensates (fun _ t => Cancelled n t) (cancelDraft ctx) s := by
  obtain ⟨o, ho⟩ := Option.isSome_iff_exists.mp hs
  rw [cancelDraft, hctx]
  refine Alone.atomic (fun i b u _ _ hu => ?_) fun i e hgoes he => ?_
  · simp only [transitionOrder, ho, bind_eq_ok, existing_eq_ok, pure_eq_ok, Prod.mk.injEq] at hu
    obtain ⟨-, -, -, rfl⟩ := hu
    exact cancelled_iff.mpr ⟨_, Table.find?_update_self (key_setStatus _ _) ho, rfl⟩
  · rcases he with hf | herr
    · exact absurd (hgoes.symm.trans hf) (by decide)
    · have hfound : existing s.orders n = .ok o := existing_eq_ok.mpr ho
      rw [transitionOrder, hfound] at herr
      cases herr

/-- A workflow that is not complete does not return what was captured for its order. -/
def Failed (n : ℕ) : Except Failure (WorkflowInstance CheckoutContext) → Shop → Prop
  | .ok result, t => result.status = .completed ∨ Unreturned n t
  | .error _, t => Unreturned n t

variable {cfg : PaymentConfig} {token deadline : ℕ} {cart : Cart} {items : List CartItem}
  {ctx : CheckoutContext} {completed rest : List CheckoutStep} {step : CheckoutStep}

theorem alone_fail {message : String} {status : WorkflowStatus}
    (h : Alone Compensates (fun _ t => Unreturned n t) (SagaCoordinator.compensateAll ctx completed) s) :
    Alone Compensates (Failed n)
      (SagaCoordinator.failAndCompensate ctx completed message status) s :=
  Alone.bind h (fun _ _ ht => Alone.done (.inr ht)) fun _ _ ht => ht

/-- Whatever the other compensations do, the draft is cancelled. -/
theorem alone_compensateAll (hsub : ∀ step ∈ completed, step ∈ (steps cfg token cart items).dropLast)
    (hdraft : ∃ step ∈ completed, step.compensate = some cancelDraft)
    (hctx : ctx.orderId = some n) (hs : HasOrder n s) :
    Alone Compensates (fun _ t => Unreturned n t) (SagaCoordinator.compensateAll ctx completed) s := by
  have hcalls : ∀ p ∈ completed.filterMap (fun step => step.compensate.map (· ctx)),
      Calls revoking p := by
    intro p hp
    obtain ⟨step, hstep, hmap⟩ := List.mem_filterMap.mp hp
    obtain ⟨f, hf, rfl⟩ := Option.map_eq_some_iff.mp hmap
    exact calls_compensateBut revoking_of_amending (fun _ => rfl) cfg token cart items ctx step
      (hsub step hstep) f hf
  refine Alone.mono (fun _ t ht _ _ _ _ => ht) (Holds.callAll_gains (P := HasOrder n)
    (G := Cancelled n) (fun _ _ h hc => h ▸ hc) (fun p hp t _ ht => alone_hasOrder (hcalls p hp) ht)
    (fun p hp t _ ht => alone_cancelled (hcalls p hp) ht) ?_ trivial hs)
  obtain ⟨step, hstep, hcomp⟩ := hdraft
  refine ⟨cancelDraft ctx, List.mem_filterMap.mpr ⟨step, hstep, by rw [hcomp]; rfl⟩, ?_⟩
  exact fun t _ ht => alone_cancelDraft hctx ht

theorem timers_of_compensates {name : String} {i : ShopInput} {t : Shop}
    (h : Compensates (Timed.timer name) i t) : i.timer = false := h

/-- One step after the draft. -/
theorem alone_step {S : ShopCall → Bool} (hcalls : Calls S (step.execute ctx))
    (hpatch : (step.execute ctx).Yields fun patch => (patch ctx).orderId = some n)
    (hsub : ∀ step ∈ completed, step ∈ (steps cfg token cart items).dropLast)
    (hdraft : ∃ step ∈ completed, step.compensate = some cancelDraft)
    (hctx : ctx.orderId = some n)
    (hrest : ∀ ctx' t, ctx'.orderId = some n → HasOrder n t →
      Alone Compensates (Failed n) (SagaCoordinator.runSteps deadline rest (step :: completed) ctx') t)
    (hs : HasOrder n s) :
    Alone Compensates (Failed n) (SagaCoordinator.runSteps deadline (step :: rest) completed ctx) s := by
  refine SagaCoordinator.holds_step (D := undisturbed) (P := HasOrder n)
    (R := fun patch t => (patch ctx).orderId = some n ∧ HasOrder n t) (fun _ _ h ht => h ▸ ht)
    (fun _ _ _ => trivial) (fun t _ ht => ?_) (fun patch t _ ht => hrest _ t ht.1 ht.2)
    (fun _ _ t _ ht _ => alone_fail (alone_compensateAll hsub hdraft hctx ht)) hs
  refine Alone.mono ?_ (SagaCoordinator.alone_attempts (P := HasOrder n)
    (R := fun patch _ => (patch ctx).orderId = some n) (fun _ _ _ h => timers_of_compensates h)
    (fun u hu => ?_) step.retries t ht)
  · rintro (e | patch) u h
    · exact h.2
    · exact ⟨h.1 patch rfl, h.2⟩
  · exact Alone.mono (fun _ _ h => h) (Holds.yields hpatch (alone_hasOrder hcalls hu))

theorem yields_unpatched (hctx : ctx.orderId = some n) (p : ShopProg Unit) :
    (noPatch p).Yields fun patch => (patch ctx).orderId = some n := by
  refine Prog.yields_bind (fun _ => ?_) _
  exact hctx

theorem yields_reserve (hctx : ctx.orderId = some n) :
    (reserveInventory token items ctx).Yields fun patch => (patch ctx).orderId = some n := by
  refine Prog.yields_bind (fun _ => Prog.yields_bind (fun _ => ?_) _) _
  exact hctx

theorem yields_createPayment (hctx : ctx.orderId = some n) :
    (createPayment ctx).Yields fun patch => (patch ctx).orderId = some n := by
  refine Prog.yields_bind (fun _ => Prog.yields_bind (fun _ => Prog.yields_bind (fun _ => ?_) _) _) _
  exact hctx

theorem alone_createDraftOrder_undrafted (hs : Undrafted n s) :
    Alone Compensates (SagaCoordinator.Attempted (Undrafted n)
      fun patch t => (patch ctx).orderId = some n ∧ HasOrder n t) (createDraftOrder cart items ctx) s := by
  obtain ⟨rfl, hpaid⟩ := hs
  refine Alone.atomicBind (fun i order u _ _ hu => Alone.done ?_) fun _ _ _ _ => ⟨rfl, hpaid⟩
  simp only [insertOrder, bind_eq_ok, check_eq_ok, pure_eq_ok, Prod.mk.injEq] at hu
  obtain ⟨-, -, -, -, -, -, t, ht, rfl, rfl⟩ := hu
  obtain ⟨T, rfl⟩ := insertOrderItems_cases ht
  refine ⟨rfl, ?_⟩
  exact Option.isSome_of_eq_some
    (Table.find?_insert_next (key_draftOrder cart ctx ⟨i.now, i.reply.random⟩))

theorem alone_steps (hs : Undrafted n s) :
    Alone Compensates (Failed n)
      (SagaCoordinator.runSteps deadline (steps cfg token cart items) [] ctx) s := by
  have hparts : ∀ {completed : List CheckoutStep} {m}, completed.reverse =
      ((steps cfg token cart items).dropLast).take m →
      ∀ step ∈ completed, step ∈ (steps cfg token cart items).dropLast := fun h step hstep =>
    List.mem_of_mem_take (h ▸ List.mem_reverse.mpr hstep)
  -- create_draft_order
  refine SagaCoordinator.holds_step (D := undisturbed) (P := Undrafted n)
    (R := fun patch t => (patch ctx).orderId = some n ∧ HasOrder n t) (fun _ _ h ht => h ▸ ht)
    (fun _ _ _ => trivial) (fun t _ ht => ?_) ?_
    (fun _ _ t _ ht _ => alone_fail (Alone.done ht.unreturned)) hs
  · exact Alone.race (fun _ _ h => timers_of_compensates h) (alone_createDraftOrder_undrafted ht)
  rintro patch t - ⟨hctx, ht⟩
  -- reserve_inventory
  refine alone_step (calls_reserveInventory _ _ _) (yields_reserve hctx) (hparts (m := 1) rfl)
    (by simp) hctx ?_ ht
  intro ctx t hctx ht
  -- create_payment
  refine alone_step (calls_createPayment _) (yields_createPayment hctx) (hparts (m := 2) rfl)
    (by simp) hctx ?_ ht
  intro ctx t hctx ht
  -- authorize_payment
  refine alone_step (calls_noPatch (calls_authorizeStep _ _ _)) (yields_unpatched hctx _)
    (hparts (m := 3) rfl) (by simp) hctx ?_ ht
  intro ctx t hctx ht
  -- capture_payment
  refine alone_step (calls_noPatch (calls_captureStep _ _ _)) (yields_unpatched hctx _)
    (hparts (m := 4) rfl) (by simp) hctx ?_ ht
  intro ctx t hctx ht
  -- confirm_order
  refine alone_step (calls_noPatch (calls_confirmStep (S := fun _ => true) (fun _ _ => rfl)
    (fun _ => rfl) _ _)) (yields_unpatched hctx _) (hparts (m := 5) rfl) (by simp) hctx ?_ ht
  exact fun ctx t hctx ht => Alone.done (.inl rfl)

/-- What is known when a checkout ends with a conflict. -/
def Refused (n : ℕ) (r : Except Failure CheckoutResult) (t : Shop) : Prop :=
  ∀ message, r = .error (.throwApp .conflict message 409) → Unreturned n t

theorem alone_concludeCheckout_failed {result : WorkflowInstance CheckoutContext}
    (h : Failed n (.ok result) s) : Alone Compensates (Refused n) (concludeCheckout result) s := by
  refine Alone.ensureBind (fun _ => ?_) fun hst _ _ => h.resolve_left hst
  refine Alone.orThrowBind (fun id _ => ?_) fun _ _ he => nomatch he
  exact Alone.queryBind (fun _ _ _ => Alone.done fun _ he => nomatch he) fun _ _ _ _ he => nomatch he

theorem alone_checkout_failed (cfg : PaymentConfig) (token userId : ℕ) (dto : CheckoutDto)
    (hs : Undrafted n s) : Alone Compensates (Refused n) (checkout cfg token userId dto) s := by
  have hkeep : ∀ {α : Type} {p : ShopProg α} {u : Shop}, Calls quiet p → Undrafted n u →
      Alone Compensates (fun _ t => Undrafted n t) p u := fun hc hu =>
    Alone.of_every (Prog.Every.mono (fun _ _ _ _ _ he => Undrafted.same (he.2.same he.1)) hc) hu
  refine Alone.withLock_blind (fun _ _ _ => hs.unreturned) (fun _ _ _ h => h)
    (fun _ _ _ _ he => nomatch he) fun m => ?_
  have hm : Undrafted n (Lockable.setLocks ShopCall m s) := hs
  refine Alone.bind (hkeep (calls_selectCart _ _) hm) ?_ fun _ _ ht _ _ => ht.unreturned
  intro found t ht
  refine Alone.orThrowBind (fun cart _ => ?_) fun _ _ _ => ht.unreturned
  refine Alone.bind (hkeep (calls_validateTenders _ _) ht) ?_ fun _ _ hu _ _ => hu.unreturned
  intro _ u hu
  refine Alone.bind (R := Failed n) ?_ (fun result v hv => alone_concludeCheckout_failed hv)
    fun _ _ hv _ _ => hv
  exact SagaCoordinator.holds_run (D := undisturbed) (fun _ _ _ => trivial)
    fun _ v _ hv => alone_steps (hv ▸ hu)

end Failed

/-- One checkout; the attempts it gives up run on beside it. -/
def checkoutPool (cfg : PaymentConfig) (token userId : ℕ) (dto : CheckoutDto) (s : Shop) :
    ShopPool CheckoutResult :=
  ⟨[checkout cfg token userId dto], s⟩

/-- No cancelled order from the number `n` on has a captured payment. -/
def MoneyReturned (n : ℕ) (s : Shop) : Prop :=
  ∀ o ∈ s.orders.rows, n ≤ o.id → o.status = .cancelled →
    ∀ p ∈ s.payments.rows, p.orderId = o.id → p.status ≠ .captured

theorem orderId_lt_next {s : Shop} (hfk : ∀ p ∈ s.payments.rows, (s.orders.find? p.orderId).isSome)
    {p : Payment} (hp : p ∈ s.payments.rows) : p.orderId < s.orders.next := by
  obtain ⟨o, ho⟩ := Option.isSome_iff_exists.mp (hfk p hp)
  obtain ⟨hmem, hkey⟩ := Table.find?_mem ho
  exact hkey ▸ s.orders.fresh o hmem

/-- In every state of every run of a checkout that records no capture, no cancelled order of the
run has a captured payment.  A run without timeouts that records one and whose workflow fails ends
with the order cancelled, whatever the compensations of the payment do. -/
theorem cancelled_order_uncaptured (cfg : PaymentConfig) (token userId : ℕ) (dto : CheckoutDto)
    (s : Shop) (hfk : ∀ p ∈ s.payments.rows, (s.orders.find? p.orderId).isSome) :
    (∀ sched, (checkoutPool cfg token userId dto s).Admits NoCapture sched →
      MoneyReturned s.orders.next ((checkoutPool cfg token userId dto s).run sched).state) ∧
    ∀ message t, Pool.Ran Compensates (checkout cfg token userId dto) s
        (.error (.throwApp .conflict message 409)) t →
      ∀ p ∈ t.payments.rows, p.orderId = s.orders.next → p.status = .captured →
        Cancelled s.orders.next t := by
  have hstart : Uncaptured s.orders.next s :=
    fun p hp hn => absurd (orderId_lt_next hfk hp) (not_lt.mpr hn)
  constructor
  · intro sched hok o _ hnew _ p hp hpo
    have hrun : Uncaptured s.orders.next ((checkoutPool cfg token userId dto s).run sched).state := by
      refine Pool.inv_run (fun t ht => ?_) hstart hok
      obtain rfl := List.mem_singleton.mp ht
      have hcalls : Calls placing (checkout cfg token userId dto) :=
        calls_checkout (fun _ h => placing_of_capturing (capturing_of_charging h)) (fun _ => rfl)
          (fun _ => rfl) cfg token userId dto
      refine Prog.Every.imp (fun _ _ _ _ => trivial) ?_ hcalls
      rintro l i t t' ⟨hn, hinv⟩ ⟨hl, he⟩
      exact hinv.effect hl hn he
    exact hrun p hp (hpo ▸ hnew)
  · intro message t hran
    exact ran_alone (alone_checkout_failed cfg token userId dto ⟨rfl, hstart⟩) hran message rfl

/-- A cart with two units of a variant of which a bin holds five. -/
def oneLine : Shop where
  users := [1]
  variants := [1]
  warehouses := oneWarehouse
  bins := oneBin
  inventory := fiveInBin
  carts := oneCart
  cartItems := Table.empty.insert fun n =>
    { id := n, cartId := 0, variantId := 1, sku := "SKU-1", quantity := 2, unitPrice := 50 }
  gateways := primaryGateway

def serverCapture : PaymentConfig := ⟨some false, some true⟩

def anyWarehouse : CheckoutDto := { warehouseId := 0 }

/-- `n` calls of the checkout, with a gateway that answers so. -/
def answered (n : ℕ) (status : GatewayStatus) : List (ℕ × ShopInput) :=
  List.replicate n
    (0, { reply := { status, gatewayOrderId := "order_1", gatewayPaymentId := "pay_1" } })

def refusedCapture : List (ℕ × ShopInput) := answered 61 .authorized ++ answered 60 .failed

/-- Authorization, capture, and a risk score that the database does not store. -/
def failedConfirmation : List (ℕ × ShopInput) :=
  answered 61 .authorized ++ answered 25 .captured ++ [(0, { fails := true, reply := {} })] ++
    answered 20 .cancelled

def afterCalls (calls : List (ℕ × ShopInput)) : Shop :=
  ((checkoutPool serverCapture 0 1 anyWarehouse oneLine).run calls).state

/-- A refused capture leaves nothing captured; a failure after the capture leaves its order
cancelled. -/
theorem cancelled_order_uncaptured_refused :
    (Cancelled 0 (afterCalls refusedCapture) ∧ MoneyReturned 0 (afterCalls refusedCapture)) ∧
    (∃ p ∈ (afterCalls failedConfirmation).payments.rows, p.orderId = 0 ∧ p.status = .captured) ∧
      Cancelled 0 (afterCalls failedConfirmation) := by
  obtain ⟨hsafe, hlost⟩ := cancelled_order_uncaptured serverCapture 0 1 anyWarehouse oneLine
    fun p hp => nomatch hp
  have hcaptured : ∃ p ∈ (afterCalls failedConfirmation).payments.rows, p.orderId = 0 ∧
      p.status = .captured := by
    decide +kernel
  unfold afterCalls at hcaptured ⊢
  refine ⟨⟨by decide +kernel, hsafe refusedCapture (by decide +kernel)⟩, hcaptured, ?_⟩
  have hran : Pool.Ran Compensates (checkout serverCapture 0 1 anyWarehouse) oneLine
      (.error (.throwApp .conflict "Can't reach database server" 409))
      ((checkoutPool serverCapture 0 1 anyWarehouse oneLine).run failedConfirmation).state :=
    ⟨failedConfirmation.map Prod.snd, by decide +kernel, by decide +kernel, rfl⟩
  obtain ⟨p, hp, hpo, hst⟩ := hcaptured
  exact hlost _ _ hran p hp hpo hst

/-- The last step fails after the capture: the checkout throws, every compensation ends without an
error, the order is cancelled, and its payment stays captured. -/
theorem captured_payment_of_cancelled_order :
    let pool := checkoutPool serverCapture 0 1 anyWarehouse oneLine
    serverCapture.autoSettle = true ∧ (pool.run failedConfirmation).quiescent = true ∧
      (pool.run failedConfirmation).threads[0]?.any Prog.hasThrown = true ∧
      ((pool.run failedConfirmation).state.orders.find? 0).map Order.status = some .cancelled ∧
      ((pool.run failedConfirmation).state.payments.find? 0).map
        (fun p => (p.orderId, p.status)) = some (0, .captured) :=
  ⟨rfl, by decide +kernel, by decide +kernel, by decide +kernel, by decide +kernel⟩

end ElectronicsCart.Orders
