import ElectronicsCart.Shop.Effects

/-!
# The status of a payment over whole runs

`PaymentStateMachine.md` says that the transitions of a payment are enforced by
`payment-state.validator.ts`.  `authorize` and `capture` consult its table; the webhooks and
`cancel` write the status directly.  The runs here are sequential: any list of requests, each
finished before the next, with any answers of the gateway and the database.
-/

namespace ElectronicsCart.Payments

open Interleaving Relational

/-! ### Steps of the status -/

/-- No payment is lost, and each one keeps its status or takes an edge of the table. -/
def StatusStep (s s' : Shop) : Prop :=
  ∀ id p, s.payments.find? id = some p → ∃ p', s'.payments.find? id = some p' ∧
    (p'.status = p.status ∨ p'.status ∈ allowed p.status)

theorem StatusStep.of_eq {s s' : Shop} (h : s'.payments = s.payments) : StatusStep s s' := by
  intro id p hp
  exact ⟨p, by rw [h, hp], .inl rfl⟩

theorem StatusStep.insert {s : Shop} {mk : ℕ → Payment} (hmk : ∀ n, key (mk n) = n) :
    StatusStep s { s with payments := s.payments.insert mk hmk } := by
  intro id p hp
  exact ⟨p, Table.find?_insert_of_some hmk hp, .inl rfl⟩

theorem StatusStep.write {s s' : Shop} {id now : ℕ} {write : PaymentWrite} {p q : Payment}
    (h : writePayment id write now s = .ok (p, s')) (hq : s.payments.find? id = some q)
    (hw : write.target = q.status ∨ write.target ∈ allowed q.status) : StatusStep s s' := by
  obtain ⟨q', hq', -, rfl⟩ := writePayment_cases h
  obtain rfl := Option.some.inj (hq.symm.trans hq')
  intro j r hr
  by_cases hj : j = id
  · subst hj
    obtain rfl := Option.some.inj (hq.symm.trans hr)
    exact ⟨_, Table.find?_update_self (key_applyWrite now write) hq, by rwa [status_applyWrite]⟩
  · exact ⟨r, (Table.find?_update_ne (key_applyWrite now write) hj).trans hr, .inl rfl⟩

/-! ### Webhooks and cancellations in time -/

/-- The statuses from which the writers that do not consult the table follow it. -/
def timely : PaymentWrite → PaymentStatus → Bool
  | .webhook .authorized _, current => [PaymentStatus.pending, .authorized].contains current
  | .webhook .captured _, current => [PaymentStatus.pending, .authorized, .captured].contains current
  | .webhook .failed _, current => [PaymentStatus.pending, .authorized, .failed].contains current
  | .cancel, current => !([PaymentStatus.expired, .chargeback].contains current)
  | _, _ => true

/-- A webhook is applied, or a payment cancelled, only in a status that allows it. -/
def InTime (l : ShopCall) (_ : ShopInput) (s : Shop) : Prop :=
  match l with
  | .payment (.update id _ write) =>
    (s.payments.find? id).all (fun p => timely write p.status) = true
  | _ => True

instance (l : ShopCall) (i : ShopInput) (s : Shop) : Decidable (InTime l i s) :=
  inferInstanceAs (Decidable (OnWrites (fun id _ write =>
    (s.payments.find? id).all (fun p => timely write p.status) = true) l))

def statusWorld : World ShopCall ShopInput Shop := ⟨InTime, fun _ => True⟩

def statusAlone : Discipline ShopCall ShopInput Shop := Discipline.alone fun _ _ => StatusStep

abbrev StatusHolds {α : Type} (Q : Except Failure α → Shop → Prop) (p : ShopProg α) (s : Shop) :
    Prop :=
  Holds statusWorld statusAlone statusAlone Q p s

section Rules

variable {α β : Type} {s : Shop} {Q : Except Failure α → Shop → Prop}

theorem holds_keeping {p : ShopProg α} (hp : Calls keepsPayments p) :
    StatusHolds (fun _ (t : Shop) => t.payments = s.payments) p s := by
  refine Holds.of_every (P := fun t : Shop => t.payments = s.payments) ?_ ?_ rfl
  · rintro t _ rfl h
    exact h
  · refine Prog.Every.imp (fun _ _ _ _ => trivial) ?_ hp
    rintro l i t t' - ⟨hl, he⟩
    have hsame := he.payments hl
    exact ⟨trivial, .of_eq hsame, .of_eq hsame, fun h => hsame.trans h⟩

theorem quietBind {p : ShopProg β} {k : β → ShopProg α} (hp : Calls quiet p)
    (hk : ∀ b t, t.payments = s.payments → StatusHolds Q (k b) t)
    (herr : ∀ e t, t.payments = s.payments → Q (.error e) t) : StatusHolds Q (p.bind k) s := by
  refine Holds.bind (Holds.mono ?_ (holds_keeping hp.keeping)) trivial
  rintro (e | b) t - ht
  · exact herr e t ht
  · exact hk b t ht

theorem updateBind {payment : Payment} {write : PaymentWrite} {k : Payment → ShopProg α}
    (hp : s.payments.find? payment.id = some payment)
    (hw : timely write payment.status = true →
      write.target = payment.status ∨ write.target ∈ allowed payment.status)
    (hk : ∀ b t, StatusHolds Q (k b) t) (herr : ∀ e t, Q (.error e) t) :
    StatusHolds Q ((updatePayment payment.id payment.status write).bind k) s := by
  refine holds_atomicBind ?_
  rintro t rfl - i ho
  refine ⟨.of_eq rfl, fun e t' _ _ _ => herr e t', fun b u _ hu => ⟨trivial, ?_, hk b u⟩⟩
  refine StatusStep.write hu hp (hw ?_)
  simpa [statusWorld, InTime, hp] using ho

end Rules

/-! ### The calls -/

section Requests

variable {s : Shop}

def anyResult {α : Type} (_ : Except Failure α) (_ : Shop) : Prop := True

theorem keeping_holds {α : Type} {p : ShopProg α} (hp : Calls keepsPayments p) :
    StatusHolds anyResult p s :=
  (holds_keeping hp).mono fun _ _ _ _ => trivial

theorem quiet_holds {α : Type} {p : ShopProg α} (hp : Calls quiet p) : StatusHolds anyResult p s :=
  keeping_holds hp.keeping

theorem requireBind {α : Type} {action : Option PaymentAction} {id : ℕ} {k : Payment → ShopProg α}
    (hk : ∀ payment, payment.id = id → s.payments.find? payment.id = some payment →
      StatusHolds anyResult (k payment) s) :
    StatusHolds anyResult ((requirePayment action id).bind k) s := by
  simp only [requirePayment, findById, Prog.bind_eq, Prog.bind_assoc]
  refine holds_lookupBind (fun t i _ _ => StatusStep.of_eq rfl) (fun _ _ _ _ => trivial) ?_
  rintro t i payment rfl - - hp
  have hfind := (Option.filter_eq_some_iff.mp hp).1
  have hid : payment.id = id := (Table.find?_mem hfind).2
  exact hk payment hid (hid ▸ hfind)

theorem lockHolds {α : Type} {key : ShopLock} {token : ℕ} {p : ShopProg α}
    (hp : ∀ t, StatusHolds anyResult p t) :
    StatusHolds anyResult (LockService.withLock key token p) s := by
  refine LockService.holds_withLock (P := fun _ => True) (R := fun _ => True)
    (fun _ _ _ h => h) (fun _ _ _ h => h) (fun _ _ h => h) (fun _ _ h => h) (fun _ h => h)
    (fun _ _ h => h) ?_ (fun t _ _ => hp t) trivial
  exact fun l i m t _ _ => ⟨.of_eq rfl, .of_eq rfl⟩

theorem create_holds (actorId : ℕ) (dto : CreatePaymentDto) :
    StatusHolds anyResult (create actorId dto) s := by
  refine quietBind (calls_findOrder _) (fun found t _ => ?_) fun _ _ _ => trivial
  refine Holds.orThrowBind (fun order _ => ?_) fun _ _ _ _ => trivial
  refine Holds.ensureBind (fun _ => ?_) fun _ _ _ _ => trivial
  refine Holds.ensureBind (fun _ => ?_) fun _ _ _ _ => trivial
  refine quietBind calls_findGateway (fun found t _ => ?_) fun _ _ _ => trivial
  refine Holds.orThrowBind (fun gateway _ => ?_) fun _ _ _ _ => trivial
  refine quietBind (calls_withRetry (calls_gatewayCall _) _) (fun gwOrder t _ => ?_)
    fun _ _ _ => trivial
  refine holds_atomicBind fun t' _ _ i _ => ⟨.of_eq rfl, fun _ _ _ _ _ => trivial, ?_⟩
  intro payment u _ hu
  obtain ⟨mk, hmk, -, -, -, -, rfl⟩ := insertPayment_cases hu
  refine ⟨trivial, .insert hmk, quiet_holds ?_⟩
  exact (calls_createAttempt _ _ _ _).bind fun _ => (calls_audit _ _ _ _ _).bind fun _ =>
    (calls_createEvent _ _).bind fun _ => .pure _

theorem pending_of_authorized {a : PaymentStatus} (h : (allowed a).contains .authorized = true) :
    a = .pending := by
  cases a <;> simp_all [allowed]

theorem capturable {a : PaymentStatus} (h : (allowed a).contains .captured = true) :
    a = .pending ∨ a = .authorized := by
  cases a <;> simp_all [allowed]

theorem markFailed_holds {payment : Payment} {actorId : ℕ} {reason : String}
    (hp : s.payments.find? payment.id = some payment)
    (hs : payment.status = .pending ∨ payment.status = .authorized) :
    StatusHolds anyResult (markFailed payment actorId reason) s := by
  refine updateBind hp (fun _ => ?_) (fun _ t => ?_) fun _ _ => trivial
  · rcases hs with h | h <;> simp [h, PaymentWrite.target, allowed]
  · exact quiet_holds ((calls_audit _ _ _ _ _).bind fun _ => .throw _)

theorem authorizeWithGateway_holds {payment : Payment} {actorId attemptNo : ℕ}
    (hp : s.payments.find? payment.id = some payment) (hs : payment.status = .pending) :
    StatusHolds (fun r t => r = .ok none → t.payments = s.payments)
      (authorizeWithGateway payment actorId attemptNo) s := by
  refine Holds.orThrowBind (fun gatewayOrderId _ => ?_) fun _ _ _ _ => nofun
  refine quietBind (calls_withRetry (calls_gatewayCall _) _) (fun result t ht => ?_)
    fun _ _ _ => nofun
  split
  · exact quietBind (calls_createAttempt _ _ _ _) (fun _ _ _ _ _ _ => nofun) fun _ _ _ => nofun
  split
  · rintro _ rfl - -
    exact ht
  · refine updateBind (ht ▸ hp) (fun _ => ?_) (fun _ t => ?_) fun _ _ => nofun
    · simp [hs, PaymentWrite.target, allowed]
    · refine quietBind (calls_createTransaction _ _ _ _) (fun _ t _ => ?_) fun _ _ _ => nofun
      refine quietBind (calls_createAttempt _ _ _ _) (fun _ t _ => ?_) fun _ _ _ => nofun
      refine quietBind (calls_audit _ _ _ _ _) (fun _ t _ => ?_) fun _ _ _ => nofun
      exact quietBind (calls_createEvent _ _) (fun _ _ _ _ _ _ => nofun) fun _ _ _ => nofun

theorem authorizePayment_holds {payment : Payment} {actorId : ℕ}
    (hp : s.payments.find? payment.id = some payment) (hs : payment.status = .pending) :
    StatusHolds anyResult (authorizePayment payment actorId) s := by
  refine quietBind (calls_nextAttemptNumber _) (fun attemptNo t ht => ?_) fun _ _ _ => trivial
  refine Holds.bind (Holds.tryCatch (Holds.mono ?_ (authorizeWithGateway_holds (ht ▸ hp) hs))
    trivial) trivial
  rintro (e | outcome) u - hu
  · refine quietBind (calls_createAttempt _ _ _ _) ?_ fun _ _ _ => trivial
    exact fun _ _ _ _ _ _ => trivial
  rintro _ rfl -
  cases outcome with
  | some updated => exact fun _ _ _ => trivial
  | none =>
    refine markFailed_holds ?_ (.inl hs)
    rw [hu rfl, ht, hp]

theorem authorize_holds (token id actorId : ℕ) (asAdmin : Bool) :
    StatusHolds anyResult (authorize token id actorId asAdmin) s := by
  refine lockHolds fun t => requireBind fun payment _ hp => ?_
  refine Holds.ensureBind (fun _ => ?_) fun _ _ _ _ => trivial
  refine Holds.ensureBind (fun hs => ?_) fun _ _ _ _ => trivial
  exact authorizePayment_holds hp (pending_of_authorized hs)

theorem capturePayment_holds {cfg : PaymentConfig} {payment : Payment} {actorId : ℕ}
    (hp : s.payments.find? payment.id = some payment)
    (hs : payment.status = .pending ∨ payment.status = .authorized) :
    StatusHolds anyResult (capturePayment cfg payment actorId) s := by
  have hcaptured : PaymentStatus.captured = payment.status ∨ .captured ∈ allowed payment.status := by
    rcases hs with h | h <;> simp [h, allowed]
  unfold capturePayment
  split
  · split
    · refine updateBind hp (fun _ => hcaptured) (fun _ t => quiet_holds ?_) fun _ _ => trivial
      exact (calls_audit _ _ _ _ _).bind fun _ => .pure _
    · exact fun _ _ _ => trivial
  · refine quietBind (calls_withRetry (calls_gatewayCall _) _) (fun result t ht => ?_)
      fun _ _ _ => trivial
    split
    · exact markFailed_holds (ht ▸ hp) hs
    · refine updateBind (ht ▸ hp) (fun _ => hcaptured) (fun _ t => keeping_holds ?_)
        fun _ _ => trivial
      refine (calls_createTransaction _ _ _ _).keeping.bind fun _ => ?_
      refine (calls_audit _ _ _ _ _).keeping.bind fun _ =>
        (calls_createEvent _ _).keeping.bind fun _ => ?_
      exact (calls_confirmAfterCapture rfl fun _ => rfl).bind fun _ =>
        calls_enqueue.keeping.bind fun _ => .pure _

theorem capture_holds (cfg : PaymentConfig) (token id actorId : ℕ) (asAdmin : Bool) :
    StatusHolds anyResult (capture cfg token id actorId asAdmin) s := by
  refine lockHolds fun t => requireBind fun payment _ hp => ?_
  refine Holds.ensureBind (fun _ => ?_) fun _ _ _ _ => trivial
  split
  · exact fun _ _ _ => trivial
  · refine Holds.ensureBind (fun hs => ?_) fun _ _ _ _ => trivial
    exact capturePayment_holds hp (capturable hs)

theorem cancellable {a : PaymentStatus} {write : PaymentWrite} (hw : write = .cancel)
    (hfinal : ¬ (a = .cancelled ∨ a = .refunded)) (hcaptured : a ≠ .captured ∧ a ≠ .partiallyRefunded)
    (ht : timely write a = true) : .cancelled ∈ allowed a := by
  subst hw
  cases a <;> simp_all [timely, allowed]

theorem cancel_holds (token id actorId : ℕ) (asAdmin : Bool) :
    StatusHolds anyResult (cancel token id actorId asAdmin) s := by
  refine lockHolds fun t => requireBind fun payment _ hp => ?_
  refine Holds.ensureBind (fun _ => ?_) fun _ _ _ _ => trivial
  split
  · exact fun _ _ _ => trivial
  next hfinal =>
    refine Holds.ensureBind (fun hcaptured => ?_) fun _ _ _ _ => trivial
    refine quietBind (calls_gatewayCall _) (fun _ t ht => ?_) fun _ _ _ => trivial
    refine updateBind (ht ▸ hp) (fun h => .inr (cancellable rfl hfinal hcaptured h))
      (fun _ t => quiet_holds ?_) fun _ _ => trivial
    exact (calls_createTransaction _ _ _ _).bind fun _ => (calls_audit _ _ _ _ _).bind fun _ =>
      (calls_createEvent _ _).bind fun _ => .pure _

theorem reopen_holds {payment : Payment} (hp : s.payments.find? payment.id = some payment) :
    StatusHolds anyResult (reopen payment) s := by
  unfold reopen
  split
  next hs =>
    refine updateBind hp (fun _ => ?_) (fun _ _ _ _ _ => trivial) fun _ _ => trivial
    simp [hs, PaymentWrite.target, allowed]
  next => exact fun _ _ _ => trivial

theorem retry_holds (cfg : PaymentConfig) (token id actorId : ℕ) :
    StatusHolds anyResult (retry cfg token id actorId) s := by
  refine requireBind fun payment _ hp => ?_
  refine Holds.ensureBind (fun _ => ?_) fun _ _ _ _ => trivial
  refine Holds.ensureBind (fun _ => ?_) fun _ _ _ _ => trivial
  refine quietBind calls_enqueue (fun _ t ht => ?_) fun _ _ _ => trivial
  refine Holds.bind (Holds.mono ?_ (reopen_holds (ht ▸ hp))) trivial
  rintro (e | _) t - -
  · trivial
  refine Holds.bind (Holds.mono ?_ (authorize_holds token id actorId false)) trivial
  rintro (e | authorized) t - -
  · trivial
  change StatusHolds anyResult (if _ then _ else _) t
  split
  · exact capture_holds cfg token id actorId false
  · exact fun _ _ _ => trivial

theorem refundable {payment : Payment} {amount : ℚ}
    (hs : payment.status = .captured ∨ payment.status = .partiallyRefunded) :
    refundedStatus payment amount ∈ allowed payment.status := by
  unfold refundedStatus
  rcases hs with h | h <;> split <;> simp [h, allowed]

theorem refund_holds (token id actorId : ℕ) (dto : RefundPaymentDto) (asAdmin : Bool) :
    StatusHolds anyResult (refund token id actorId dto asAdmin) s := by
  refine lockHolds fun t => requireBind fun payment _ hp => ?_
  refine Holds.ensureBind (fun _ => ?_) fun _ _ _ _ => trivial
  refine Holds.ensureBind (fun hs => ?_) fun _ _ _ _ => trivial
  refine Holds.ensureBind (fun _ => ?_) fun _ _ _ _ => trivial
  refine quietBind (calls_createRefund _ _ _) (fun refund t h1 => ?_) fun _ _ _ => trivial
  refine quietBind (calls_createRefundItems _ _) (fun _ t h2 => ?_) fun _ _ _ => trivial
  refine Holds.orThrowBind (fun gatewayPaymentId _ => ?_) fun _ _ _ _ => trivial
  have hcatch : ∀ e t, StatusHolds anyResult
      ((updateRefund refund.id .failed none (some (Failure.message e))).bind fun _ =>
        enqueue.bind fun _ => (throw e : ShopProg Unit)) t := fun e t =>
    quiet_holds ((calls_updateRefund _ _ _ _).bind fun _ => calls_enqueue.bind fun _ => .throw e)
  refine Holds.tryCatch (Holds.mono (Q := anyResult) ?_ ?_) trivial
  · rintro (e | _) t - -
    · exact hcatch e t
    · exact fun _ _ _ => trivial
  refine quietBind (calls_gatewayCall _) (fun gw t h3 => ?_) fun _ _ _ => trivial
  refine quietBind (calls_updateRefund _ _ _ _) (fun _ t h4 => ?_) fun _ _ _ => trivial
  refine quietBind (calls_createTransaction _ _ _ _) (fun _ t h5 => ?_) fun _ _ _ => trivial
  have hp' : t.payments.find? payment.id = some payment := by rw [h5, h4, h3, h2, h1, hp]
  refine updateBind hp' (fun _ => .inr (refundable hs)) (fun _ t => quiet_holds ?_) fun _ _ => trivial
  exact (calls_audit _ _ _ _ _).bind fun _ => calls_createEvent _ _

theorem webhook_follows {row : PaymentWebhook} {status current : PaymentStatus}
    {gatewayPaymentId : Option String} (h : webhookStatus row = some status)
    (ht : timely (.webhook status gatewayPaymentId) current = true) :
    status = current ∨ status ∈ allowed current := by
  have hstatus : status = .authorized ∨ status = .captured ∨ status = .failed := by
    simp only [webhookStatus] at h
    split at h
    · exact .inl (Option.some.inj h).symm
    split at h
    · exact .inr (.inl (Option.some.inj h).symm)
    split at h
    · exact .inr (.inr (Option.some.inj h).symm)
    · cases h
  rcases hstatus with rfl | rfl | rfl <;> cases current <;> simp_all [timely, allowed]

theorem applyWebhook_holds (row : PaymentWebhook) (payment : Payment) :
    StatusHolds anyResult (applyWebhook row payment) s := by
  unfold applyWebhook
  split
  · exact fun _ _ _ => trivial
  next status hstatus =>
    refine Holds.bind (Holds.mono (Q := anyResult) ?_ ?_) trivial
    · rintro (e | _) t - -
      · trivial
      · exact fun _ _ _ => trivial
    · refine requireBind fun stored hid hp => ?_
      rw [← hid]
      refine updateBind hp (webhook_follows hstatus) (fun _ t => quiet_holds ?_) fun _ _ => trivial
      exact (calls_audit _ _ _ _ _).bind fun _ => (calls_createEvent _ _).bind fun _ => .pure _

theorem handleWebhook_holds (row : PaymentWebhook) : StatusHolds anyResult (handleWebhook row) s := by
  refine quietBind (calls_findWebhookPayment _) (fun found t _ => ?_) fun _ _ _ => trivial
  cases found with
  | none => exact quiet_holds (calls_markWebhook _ _ _)
  | some payment =>
    simp only [settleWebhook, Prog.bind_eq, Prog.bind_assoc]
    refine Holds.bind (Holds.mono ?_ (applyWebhook_holds row payment)) trivial
    rintro (e | _) t - -
    · trivial
    · exact quiet_holds ((calls_audit _ _ _ _ _).bind fun _ => calls_markWebhook _ _ _)

theorem processWebhook_holds (id : ℕ) : StatusHolds anyResult (processWebhook id) s := by
  refine quietBind (.query rfl) (fun found t _ => ?_) fun _ _ _ => trivial
  split
  · exact fun _ _ _ => trivial
  split
  · exact fun _ _ _ => trivial
  · refine Holds.tryCatch (Holds.mono ?_ (handleWebhook_holds _)) trivial
    rintro (e | _) t - -
    · exact quiet_holds ((calls_markWebhook _ _ _).bind fun _ => .throw e)
    · exact fun _ _ _ => trivial

end Requests

/-! ### Whole runs -/

inductive PaymentRequest where
  | create (actorId : ℕ) (dto : CreatePaymentDto)
  | authorize (paymentId actorId : ℕ) (asAdmin : Bool)
  | capture (paymentId actorId : ℕ) (asAdmin : Bool)
  | cancel (paymentId actorId : ℕ) (asAdmin : Bool)
  | retry (paymentId actorId : ℕ)
  | refund (paymentId actorId : ℕ) (dto : RefundPaymentDto) (asAdmin : Bool)
  | webhook (id : ℕ)
deriving DecidableEq, Repr

def PaymentRequest.prog (cfg : PaymentConfig) (token : ℕ) : PaymentRequest → ShopProg Unit
  | .create actorId dto => (Payments.create actorId dto).bind fun _ => pure ()
  | .authorize id actorId asAdmin => (Payments.authorize token id actorId asAdmin).bind fun _ => pure ()
  | .capture id actorId asAdmin => (Payments.capture cfg token id actorId asAdmin).bind fun _ => pure ()
  | .cancel id actorId asAdmin => (Payments.cancel token id actorId asAdmin).bind fun _ => pure ()
  | .retry id actorId => (Payments.retry cfg token id actorId).bind fun _ => pure ()
  | .refund id actorId dto asAdmin => Payments.refund token id actorId dto asAdmin
  | .webhook id => processWebhook id

/-- The requests one after another; a failed one does not stop the rest. -/
def inTurn (cfg : PaymentConfig) (requests : List PaymentRequest) : ShopProg Unit :=
  Prog.callAll (requests.mapIdx fun token r => r.prog cfg token)

theorem dropResult {α : Type} {p : ShopProg α} {s : Shop} (hp : StatusHolds anyResult p s) :
    StatusHolds anyResult (p.bind fun _ => pure ()) s := by
  refine Holds.bind (Holds.mono ?_ hp) trivial
  rintro (e | _) t - -
  · trivial
  · exact fun _ _ _ => trivial

theorem request_holds (cfg : PaymentConfig) (token : ℕ) (r : PaymentRequest) (s : Shop) :
    StatusHolds anyResult (r.prog cfg token) s := by
  cases r with
  | create actorId dto => exact dropResult (create_holds actorId dto)
  | authorize id actorId asAdmin => exact dropResult (authorize_holds token id actorId asAdmin)
  | capture id actorId asAdmin => exact dropResult (capture_holds cfg token id actorId asAdmin)
  | cancel id actorId asAdmin => exact dropResult (cancel_holds token id actorId asAdmin)
  | retry id actorId => exact dropResult (retry_holds cfg token id actorId)
  | refund id actorId dto asAdmin => exact refund_holds token id actorId dto asAdmin
  | webhook id => exact processWebhook_holds id

theorem inTurn_holds (cfg : PaymentConfig) (requests : List PaymentRequest) (s : Shop) :
    StatusHolds anyResult (inTurn cfg requests) s := by
  refine Holds.callAll (P := fun _ => True) (fun _ _ _ _ => trivial) ?_ trivial trivial
  intro p hp t _ _
  obtain ⟨token, hlt, rfl⟩ := List.mem_mapIdx.mp hp
  exact request_holds cfg token _ t

/-- The state after the first `n` calls of the run. -/
def stateAfter (cfg : PaymentConfig) (requests : List PaymentRequest) (s : Shop)
    (inputs : List ShopInput) (n : ℕ) : Shop :=
  (Pool.solo (inTurn cfg requests) s (inputs.take n)).state

/-- A cancelled, expired or charged back payment stays so, and a refund is never undone. -/
def Settled (s s' : Shop) : Prop :=
  ∀ id p, s.payments.find? id = some p → ∃ p', s'.payments.find? id = some p' ∧
    (p.status ∈ [PaymentStatus.cancelled, .expired, .chargeback] → p'.status = p.status) ∧
    (p.status ∈ [PaymentStatus.refunded, .partiallyRefunded] →
      p'.status ∈ [PaymentStatus.refunded, .partiallyRefunded, .chargeback])

theorem Settled.refl (s : Shop) : Settled s s := fun _ p hp =>
  ⟨p, hp, fun _ => rfl, fun h => List.mem_append_left [PaymentStatus.chargeback] h⟩

theorem settled_edge {a b c : PaymentStatus}
    (h : (a ∈ [PaymentStatus.cancelled, .expired, .chargeback] → b = a) ∧
      (a ∈ [PaymentStatus.refunded, .partiallyRefunded] →
        b ∈ [PaymentStatus.refunded, .partiallyRefunded, .chargeback]))
    (hc : c = b ∨ c ∈ allowed b) :
    (a ∈ [PaymentStatus.cancelled, .expired, .chargeback] → c = a) ∧
      (a ∈ [PaymentStatus.refunded, .partiallyRefunded] →
        c ∈ [PaymentStatus.refunded, .partiallyRefunded, .chargeback]) := by
  cases a <;> cases b <;> simp_all [allowed] <;> cases c <;> simp_all

theorem Settled.step {a b c : Shop} (h : Settled a b) (hs : StatusStep b c) : Settled a c := by
  intro id p hp
  obtain ⟨q, hq, hset⟩ := h id p hp
  obtain ⟨r, hr, hedge⟩ := hs id q hq
  exact ⟨r, hr, settled_edge hset hedge⟩

/-- Whatever the requests, the webhooks and the answers of the gateway, every change of a
payment's status is an edge of the table, as long as webhooks and cancellations come in time. -/
theorem status_run (cfg : PaymentConfig) (requests : List PaymentRequest) (s : Shop)
    (inputs : List ShopInput) (hok : Pool.SoloAdmits InTime (inTurn cfg requests) s inputs) :
    (∀ n, StatusStep (stateAfter cfg requests s inputs n) (stateAfter cfg requests s inputs (n + 1))) ∧
      ∀ m n, m ≤ n →
        Settled (stateAfter cfg requests s inputs m) (stateAfter cfg requests s inputs n) := by
  have hstep : ∀ n, StatusStep (stateAfter cfg requests s inputs n)
      (stateAfter cfg requests s inputs (n + 1)) := fun n =>
    Pool.solo_step (W := statusWorld) (D := statusAlone) (fun _ => StatusStep.of_eq rfl) (fun _ _ _ _ h => h)
      trivial (inTurn_holds cfg requests s) hok n
  refine ⟨hstep, fun m n hmn => ?_⟩
  induction n, hmn using Nat.le_induction with
  | base => exact .refl _
  | succ n _ ih => exact ih.step (hstep n)

/-- One payment of 100 in the given status, and a webhook that reports its capture. -/
def capturedEvent (status : PaymentStatus) (refundedAmount : ℚ) : Shop where
  payments := Table.empty.insert fun n =>
    { id := n, orderId := 0, customerId := some 1, gatewayId := 0, gatewayPaymentId := some "pay_1",
      amount := 100, refundedAmount, status }
  webhooks := captureReport

def clientCapture : PaymentConfig := ⟨some false, some false⟩

def answers (n : ℕ) : List ShopInput := List.replicate n { reply := { status := .processed } }

def captureAndRefund : List PaymentRequest := [.webhook 0, .refund 0 2 { amount := 100 } true]

/-- An authorized payment is captured by the webhook and then refunded. -/
theorem status_run_capture_refund :
    ((stateAfter clientCapture captureAndRefund (capturedEvent .authorized 0) (answers 18)
        18).payments.find? 0).map Payment.status = some .refunded ∧
      ∀ n, StatusStep
        (stateAfter clientCapture captureAndRefund (capturedEvent .authorized 0) (answers 18) n)
        (stateAfter clientCapture captureAndRefund (capturedEvent .authorized 0) (answers 18)
          (n + 1)) :=
  ⟨by decide +kernel, (status_run clientCapture captureAndRefund (capturedEvent .authorized 0)
    (answers 18) (by decide +kernel)).1⟩

/-- A late webhook puts a refunded payment back to `captured`. -/
theorem refunded_becomes_captured :
    ¬ ∀ n, StatusStep
      (stateAfter clientCapture [.webhook 0] (capturedEvent .refunded 100) (answers 4) n)
      (stateAfter clientCapture [.webhook 0] (capturedEvent .refunded 100) (answers 4) (n + 1)) := by
  intro h
  have hread : ((stateAfter clientCapture [.webhook 0] (capturedEvent .refunded 100) (answers 4)
      3).payments.find? 0).map Payment.status = some .refunded := by decide +kernel
  have hafter : ((stateAfter clientCapture [.webhook 0] (capturedEvent .refunded 100) (answers 4)
      4).payments.find? 0).map Payment.status = some .captured := by decide +kernel
  obtain ⟨p, hp, hps⟩ := Option.map_eq_some_iff.mp hread
  obtain ⟨p', hp', hedge⟩ := h 3 0 p hp
  rw [hp', Option.map_some] at hafter
  rw [hps, Option.some.inj hafter] at hedge
  revert hedge
  decide

end ElectronicsCart.Payments
