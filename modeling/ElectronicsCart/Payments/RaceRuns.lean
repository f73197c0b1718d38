import ElectronicsCart.Lib.Debts
import ElectronicsCart.Shop.Effects

/-!
# Authorize, capture, cancel and refund of one payment

The four operations take locks of different names, so a capture may run beside an
authorization or a cancellation of the same payment.  Each reads the status, asks the gateway
and writes the status by id.  What the gateway did is owed its status by the thread that asked,
and a write by a call that had read an older status may take that status away again.
-/

namespace ElectronicsCart.Payments

open Interleaving Relational

/-! ### What the gateway did -/

inductive GatewayOutcome where
  | captured | voided
deriving DecidableEq, Repr

def outcomeOf : GatewayExchange → Option GatewayOutcome
  | ⟨.capture _ _, some .captured⟩ => some .captured
  | ⟨.cancel _ _ _, some .cancelled⟩ => some .voided
  | ⟨.cancel _ _ _, some .voided⟩ => some .voided
  | _ => none

def GatewayOutcome.statuses : GatewayOutcome → List PaymentStatus
  | .captured => [.captured, .partiallyRefunded, .refunded]
  | .voided => [.cancelled]

def answered (o : GatewayOutcome) (s : Shop) : ℕ :=
  s.gatewayLog.countP fun e => outcomeOf e == some o

def Records (x : ℕ) (o : GatewayOutcome) (s : Shop) : Prop :=
  ∃ p, s.payments.find? x = some p ∧ p.status ∈ o.statuses

/-- The outcome happened after the `n`-th one, or `before`, and the status does not say so. -/
def Unrecorded (x : ℕ) (before : Prop) (n : ℕ) (o : GatewayOutcome) (s : Shop) : Prop :=
  (before ∨ n < answered o s) ∧ ¬ Records x o s

/-- A captured, refunded or cancelled payment is written only by a call that had read that
status, and the writes after a capture or a void are neither failed nor refused. -/
def Current (x : ℕ) (l : ShopCall) (i : ShopInput) (s : Shop) : Prop :=
  match l with
  | .payment (.update id read write) => id = x →
    ((s.payments.find? x).all fun p => p.status == read ||
      [GatewayOutcome.captured, .voided].all fun o => !o.statuses.contains p.status) = true ∧
    (write = .capture ∨ write = .cancel → i.fails = false ∧
      ((s.payments.find? x).any fun p =>
        validPayment s.payments (applyWrite i.now p write)) = true)
  | _ => True

instance (x : ℕ) (l : ShopCall) (i : ShopInput) (s : Shop) : Decidable (Current x l i s) :=
  inferInstanceAs (Decidable (OnWrites (fun id read write => id = x →
    ((s.payments.find? x).all fun p => p.status == read ||
      [GatewayOutcome.captured, .voided].all fun o => !o.statuses.contains p.status) = true ∧
    (write = .capture ∨ write = .cancel → i.fails = false ∧
      ((s.payments.find? x).any fun p =>
        validPayment s.payments (applyWrite i.now p write)) = true)) l))

/-- The labels of writes that go from a recorded outcome to a status that records it. -/
def faithful : ShopCall → Bool
  | .payment (.update _ read write) => [GatewayOutcome.captured, .voided].all fun o =>
    !o.statuses.contains read || o.statuses.contains write.target
  | .payment (.createPayment _ _) => false
  | _ => true

theorem faithful_of_quiet {l : ShopCall} (h : quiet l = true) : faithful l = true := by
  unfold quiet at h
  split at h <;> try cases h
  unfold faithful
  split <;> simp_all

section Runs

variable {x n : ℕ} {o : GatewayOutcome} {before : Prop} {s s' : Shop}

theorem faithful_target {id : ℕ} {read : PaymentStatus} {write : PaymentWrite}
    (h : faithful (.payment (.update id read write)) = true) (hr : read ∈ o.statuses) :
    write.target ∈ o.statuses := by
  simp only [faithful, List.all_cons, List.all_nil, Bool.and_true, Bool.and_eq_true,
    Bool.or_eq_true, Bool.not_eq_true', List.contains_iff_mem] at h
  cases o with
  | captured =>
    have h' := h.1
    simp_all
  | voided =>
    have h' := h.2
    simp_all

theorem read_of_current {id : ℕ} {read : PaymentStatus} {write : PaymentWrite} {i : ShopInput}
    {p : Payment} (h : Current id (.payment (.update id read write)) i s)
    (hp : s.payments.find? id = some p) (ho : p.status ∈ o.statuses) : p.status = read := by
  have hcur := (h rfl).1
  rw [hp, Option.all_some, Bool.or_eq_true] at hcur
  rcases hcur with hread | hfree
  · exact eq_of_beq hread
  · have hall := List.all_eq_true.mp hfree o (by cases o <;> simp)
    simp [ho] at hall

theorem Records.effect {l : ShopCall} {i : ShopInput} (hl : faithful l = true)
    (hok : Current x l i s) (he : Effect l i.now s s') (h : Records x o s) : Records x o s' := by
  obtain ⟨p, hp, hst⟩ := h
  cases he.paymentStep with
  | same hpayments => exact ⟨p, by rw [hpayments, hp], hst⟩
  | write id read write q hlabel hq hpayments =>
    subst hlabel
    rw [Records, hpayments]
    by_cases hid : x = id
    · subst hid
      have hself := Table.find?_update_self (key_applyWrite i.now write) hp
      have hread := read_of_current hok hp hst
      refine ⟨_, hself, ?_⟩
      rw [status_applyWrite]
      exact faithful_target hl (hread ▸ hst)
    · exact ⟨p, (Table.find?_update_ne (key_applyWrite i.now write) hid).trans hp, hst⟩
  | create orderId amount mk hmk hlabel =>
    subst hlabel
    cases hl

/-! ### Calls that tell nothing new -/

/-- The label is faithful, and no outcome is added to the log. -/
def Harmless {α : Type} (p : ShopProg α) : Prop :=
  p.Every (fun _ _ _ => True) fun l i s s' =>
    (faithful l = true ∧ Effect l i.now s s') ∧ ∀ o, answered o s' = answered o s

/-- The program leaves the log of the gateway alone. -/
def Unheard {α : Type} (p : ShopProg α) : Prop :=
  p.Every (fun _ _ _ => True) fun _ _ s s' => s'.gatewayLog = s.gatewayLog

variable {α β : Type}

theorem answered_of_log (h : s'.gatewayLog = s.gatewayLog) (o : GatewayOutcome) :
    answered o s' = answered o s := by
  rw [answered, h, answered]

theorem Harmless.of_calls {p : ShopProg α} (hc : Calls faithful p) (hu : Unheard p) : Harmless p :=
  (hc.and hu).mono fun _ _ _ _ _ h => ⟨h.1, answered_of_log h.2⟩

theorem Harmless.of_quiet {p : ShopProg α} (hc : Calls quiet p) (hu : Unheard p) : Harmless p :=
  .of_calls (hc.mono fun _ => faithful_of_quiet) hu

theorem Harmless.bind {p : ShopProg α} {f : α → ShopProg β} (hp : Harmless p)
    (hf : ∀ a, Harmless (f a)) : Harmless (p.bind f) :=
  Prog.Every.bind hp hf

theorem unheard_atomic {l : ShopCall} {f : ShopInput → Shop → Except Failure (β × Shop)}
    (h : ∀ i s b s', f i s = .ok (b, s') → s'.gatewayLog = s.gatewayLog) : Unheard (atomic l f) :=
  every_atomic (fun _ _ _ => rfl) fun i s b s' _ _ hf => h i s b s' hf

theorem harmless_query {l : ShopCall} {f : ShopInput → Shop → β} (hl : quiet l = true) :
    Harmless (query l f) :=
  .of_quiet (.query hl) (every_query fun _ _ _ => rfl)

theorem harmless_createAttempt (id k : ℕ) (status : PaymentStatus) (message : Option String) :
    Harmless (createAttempt id k status message) := by
  refine .of_quiet (calls_createAttempt id k status message) (unheard_atomic fun i s b s' h => ?_)
  simp only [insertAttempt, bind_eq_ok, check_eq_ok, pure_eq_ok, Prod.mk.injEq] at h
  obtain ⟨-, -, -, rfl⟩ := h
  rfl

theorem harmless_createTransaction (id : ℕ) (type : PaymentTxType) (amount : ℚ)
    (reference : Option String) : Harmless (createTransaction id type amount reference) := by
  refine .of_quiet (calls_createTransaction id type amount reference)
    (unheard_atomic fun i s b s' h => ?_)
  cases h
  rfl

theorem harmless_audit (id : ℕ) (action : String) (actorId : Option ℕ)
    (a b : Option PaymentStatus) : Harmless (audit id action actorId a b) := by
  refine .of_quiet (calls_audit id action actorId a b) (unheard_atomic fun i s b s' h => ?_)
  cases h
  rfl

theorem harmless_createEvent (id : ℕ) (event : String) : Harmless (createEvent id event) := by
  refine .of_quiet (calls_createEvent id event) (unheard_atomic fun i s b s' h => ?_)
  cases h
  rfl

theorem harmless_enqueue : Harmless enqueue := by
  refine .of_quiet calls_enqueue (unheard_atomic fun i s b s' h => ?_)
  cases h
  rfl

theorem harmless_updatePayment {id : ℕ} {read : PaymentStatus} {write : PaymentWrite}
    (hl : faithful (.payment (.update id read write)) = true) :
    Harmless (updatePayment id read write) := by
  refine .of_calls (calls_updatePayment hl) (unheard_atomic fun i s b s' h => ?_)
  obtain ⟨q, -, -, rfl⟩ := writePayment_cases h
  rfl

theorem harmless_gatewayCall {request : GatewayRequest}
    (h : ∀ answer, outcomeOf ⟨request, answer⟩ = none) :
    Harmless (gatewayCall request) := by
  have hc := (calls_gatewayCall request).mono fun _ => faithful_of_quiet
  refine (hc.and (Prog.every_call (ψ := fun _ _ s s' => ∀ o, answered o s' = answered o s)
    fun i s _ o => ?_)).mono fun _ _ _ _ _ h => h
  split <;> simp [answered, List.countP_append, h]

theorem harmless_withRetry {p : ShopProg α} (hp : Harmless p) : ∀ k, Harmless (withRetry p k)
  | 0 => hp
  | k + 1 => by
    refine Prog.Every.tryCatch hp fun err => ?_
    split
    · exact harmless_withRetry hp k
    · trivial

theorem harmless_markFailed {payment : Payment} (actorId : ℕ) (reason : String)
    (hl : faithful (.payment (.update payment.id payment.status .fail)) = true) :
    Harmless (markFailed payment actorId reason) := by
  refine (harmless_updatePayment hl).bind fun _ => ?_
  exact (harmless_audit _ _ _ _ _).bind fun _ => trivial

/-! ### Debts to the gateway -/

/-- What the gateway newly did is followed by the write of its status. -/
def Settles {α : Type} (x : ℕ) (p : ShopProg α) : Prop :=
  ∀ before n o, p.Pays (fun l i s => Current x l i s ∧ True) (Unrecorded x before n o)

theorem Settles.of_harmless {p : ShopProg α} (hp : Harmless p) : Settles x p := by
  intro before n o
  refine .of_every (Prog.Every.imp (fun _ _ _ _ => trivial) ?_ hp)
  rintro l i t t' ⟨hok, -⟩ ⟨⟨hl, he⟩, hsame⟩ ⟨hdue, hnot⟩
  refine ⟨?_, fun hrec => hnot (hrec.effect hl hok he)⟩
  rw [← hsame o]
  exact hdue

theorem Settles.bind {p : ShopProg α} {f : α → ShopProg β} (hp : Settles x p)
    (hf : ∀ a, Settles x (f a)) : Settles x (p.bind f) :=
  fun before n o => (hp before n o).bind fun a => hf a before n o

theorem Settles.done (r : Except Failure α) : Settles x (.done r : ShopProg α) :=
  fun _ _ _ => trivial

theorem Settles.withLock {key : ShopLock} {token : ℕ} {p : ShopProg α} (hp : Settles x p) :
    Settles x (LockService.withLock key token p) := by
  have hacq : Harmless (LockService.acquire key token : ShopProg Bool) := by
    refine .of_calls (.atomic rfl fun i s b s' h => .inl ?_) (unheard_atomic fun i s b s' h => ?_) <;>
      rcases LockService.take_cases (Except.ok.inj h) with ⟨-, -, rfl⟩ | ⟨-, rfl⟩
    · exact ⟨rfl, rfl, rfl, rfl, rfl⟩
    · exact .refl _
    · rfl
    · rfl
  have hrel : Harmless (LockService.release key token : ShopProg Unit) := by
    refine .of_calls (.atomic rfl fun i s b s' h => .inl ?_) (unheard_atomic fun i s b s' h => ?_) <;>
      obtain ⟨-, rfl⟩ := Prod.mk.inj (Except.ok.inj h) <;>
      rcases LockService.drop_cases (L := ShopCall) key token s with ⟨-, hd⟩ | hd <;> rw [hd]
    · exact ⟨rfl, rfl, rfl, rfl, rfl⟩
    · exact .refl _
    · rfl
  refine (Settles.of_harmless hacq).bind fun got => Settles.bind (fun _ _ _ => trivial) fun _ => ?_
  exact fun before n o => (hp before n o).andFinally (Settles.of_harmless hrel before n o)

theorem Settles.requireBind {action : Option PaymentAction} {id : ℕ} {k : Payment → ShopProg α}
    (hk : ∀ payment : Payment, payment.id = id → Settles x (k payment)) :
    Settles x ((requirePayment action id).bind k) := by
  intro before n o
  simp only [requirePayment, findById, Prog.bind_eq, Prog.bind_assoc]
  refine pays_queryBind fun i t _ => ?_
  cases hf : (t.payments.find? id).filter fun p => !p.deleted with
  | none => trivial
  | some payment =>
    have hfind := (Option.filter_eq_some_iff.mp hf).1
    exact hk payment (Table.find?_mem hfind).2 before n o

/-- A request to the gateway, tried up to `k` more times, and the program that goes on with its
answer: it settles on its own, and brings the status that a new outcome is owed. -/
theorem settles_retryBind {request : GatewayRequest} {f : ShopReply → ShopProg α}
    (hf : ∀ reply, Settles x (f reply))
    (hreach : ∀ reply before n o, outcomeOf ⟨request, some reply.status⟩ = some o →
      (f reply).Reaches (fun l i s => Current x l i s ∧ True) fun t => ¬ Unrecorded x before n o t)
    (hnone : outcomeOf ⟨request, none⟩ = none) :
    ∀ k, Settles x ((withRetry (gatewayCall request) k).bind f) := by
  have hstep : ∀ (before : Prop) n o (i : ShopInput) (s : Shop) (answer : Option GatewayStatus),
      outcomeOf ⟨request, answer⟩ ≠ some o →
      Unrecorded x before n o { s with gatewayLog := s.gatewayLog ++ [⟨request, answer⟩] } →
      Unrecorded x before n o s := by
    rintro before n o i s answer hne ⟨hdue, hnot⟩
    refine ⟨hdue.imp_right fun hlt => ?_, hnot⟩
    simpa [answered, List.countP_append, hne] using hlt
  have hanswer : ∀ (before : Prop) n o (i : ShopInput) (s : Shop) reply,
      Unrecorded x before n o { s with gatewayLog := s.gatewayLog ++ [⟨request, some reply.status⟩] } →
      Unrecorded x before n o s ∨
        (f reply).Reaches (fun l i s => Current x l i s ∧ True) fun t => ¬ Unrecorded x before n o t := by
    intro before n o i s reply hd
    by_cases ho : outcomeOf ⟨request, some reply.status⟩ = some o
    · exact .inr (hreach reply before n o ho)
    · exact .inl (hstep before n o i s _ ho hd)
  intro k
  induction k with
  | zero =>
    intro before n o
    refine Prog.pays_callBind fun i s _ => ?_
    cases ht : i.reply.thrown with
    | none => exact ⟨hanswer before n o i s i.reply, hf i.reply before n o⟩
    | some e => exact hstep before n o i s none (by simp [hnone])
  | succ k ih =>
    intro before n o
    simp only [withRetry, Prog.tryCatch_eq, Prog.bind_assoc]
    intro i s _
    dsimp only [gatewayCall, Prog.call, Prog.attempt, Prog.bind]
    cases ht : i.reply.thrown with
    | none => exact ⟨hanswer before n o i s i.reply, hf i.reply before n o⟩
    | some e =>
      refine ⟨fun hd => .inl (hstep before n o i s none (by simp [hnone]) hd), ?_⟩
      simp only [Prog.orElse_error]
      split
      · exact ih before n o
      · trivial

theorem reaches_updateBind {id : ℕ} {read : PaymentStatus} {write : PaymentWrite}
    {f : Payment → ShopProg α} (hw : write = .capture ∨ write = .cancel)
    (ho : write.target ∈ o.statuses) :
    ((updatePayment id read write).bind f).Reaches (fun l i s => Current id l i s ∧ True)
      fun t => ¬ Unrecorded id before n o t := by
  refine reaches_atomicBind fun i s hok => ?_
  obtain ⟨hfails, hvalid⟩ := (hok.1 rfl).2 hw
  obtain ⟨p, hp, hv⟩ := (Option.any_eq_true _ _).mp hvalid
  let s' : Shop := { s with
    payments := s.payments.update id (applyWrite i.now · write) (key_applyWrite i.now write) }
  have hfind : s'.payments.find? id = some (applyWrite i.now p write) :=
    Table.find?_update_self (key_applyWrite i.now write) hp
  refine ⟨hfails, applyWrite i.now p write, s', ?_, .inl fun hd => hd.2 ⟨_, hfind, ?_⟩⟩
  · simp [writePayment, existing, hp, check, demand, hv, bind, Except.bind, pure, Except.pure]
    rfl
  · rwa [status_applyWrite]

/-! ### The four operations -/

variable {payment : Payment}

theorem settles_markFailed (actorId : ℕ) (reason : String)
    (hs : payment.status = .pending ∨ payment.status = .authorized) :
    Settles x (markFailed payment actorId reason) := by
  refine .of_harmless (harmless_markFailed actorId reason ?_)
  rcases hs with hs | hs <;> rw [hs] <;> rfl

theorem settles_authorizePayment (actorId : ℕ) (hs : payment.status = .pending) :
    Settles x (authorizePayment payment actorId) := by
  have hread : ∀ write, faithful (.payment (.update payment.id payment.status write)) = true := by
    intro write
    rw [hs]
    rfl
  have htry : ∀ attemptNo, Harmless (authorizeWithGateway payment actorId attemptNo) := by
    intro attemptNo
    refine Harmless.bind (Prog.every_orThrow _ _) fun gatewayOrderId => ?_
    have hask : Harmless (gatewayCall (.authorize gatewayOrderId payment.amount)) :=
      harmless_gatewayCall fun _ => rfl
    refine (harmless_withRetry hask 2).bind fun result => ?_
    split
    · exact (harmless_createAttempt _ _ _ _).bind fun _ => trivial
    split
    · trivial
    · refine (harmless_updatePayment (hread _)).bind fun _ => ?_
      refine (harmless_createTransaction _ _ _ _).bind fun _ => ?_
      refine (harmless_createAttempt _ _ _ _).bind fun _ => ?_
      refine (harmless_audit _ _ _ _ _).bind fun _ => ?_
      exact (harmless_createEvent _ _).bind fun _ => trivial
  refine (Settles.of_harmless (harmless_query rfl)).bind fun attemptNo => ?_
  refine (Settles.of_harmless (Prog.Every.tryCatch (htry attemptNo) fun err => ?_)).bind fun outcome => ?_
  · exact Harmless.bind (harmless_createAttempt _ _ _ _) fun _ => trivial
  · cases outcome with
    | some updated => exact .done _
    | none => exact settles_markFailed _ _ (.inl hs)

theorem settles_authorize (token actorId : ℕ) (asAdmin : Bool) :
    Settles x (authorize token x actorId asAdmin) := by
  refine .withLock (.requireBind fun payment _ => ?_)
  refine (Settles.done _).bind fun _ => ?_
  rw [assertTransition]
  by_cases hs : (allowed payment.status).contains .authorized = true
  · refine (Settles.done _).bind fun _ => settles_authorizePayment actorId ?_
    revert hs
    cases payment.status <;> decide
  · simp only [Prog.ensure, if_neg hs]
    exact .done _

theorem unheard_confirmAfterCapture (cfg : PaymentConfig) (orderId : ℕ) :
    Unheard (confirmAfterCapture cfg orderId) := by
  unfold confirmAfterCapture
  split
  · refine Prog.Every.bind (every_query fun _ _ _ => rfl) fun found => ?_
    cases found with
    | none => trivial
    | some order =>
      dsimp only
      split
      · trivial
      · refine Prog.Every.bind (Prog.Every.attempt (unheard_atomic fun i s b s' h => ?_)) fun _ => trivial
        simp only [confirmOrder, bind_eq_ok, existing_eq_ok] at h
        obtain ⟨o, -, h⟩ := h
        cases hc : order.cartId with
        | none =>
          simp only [hc, pure_eq_ok, Prod.mk.injEq] at h
          obtain ⟨-, rfl⟩ := h
          rfl
        | some cartId =>
          simp only [hc, bind_eq_ok, existing_eq_ok, pure_eq_ok, Prod.mk.injEq] at h
          obtain ⟨c, -, -, rfl⟩ := h
          rfl
  · trivial

theorem settles_recordCapture (cfg : PaymentConfig) (actorId : ℕ) (reference : String)
    (hs : payment.status = .pending ∨ payment.status = .authorized) :
    Settles x (recordCapture cfg payment actorId reference) := by
  have hread : faithful (.payment (.update payment.id payment.status .capture)) = true := by
    rcases hs with hs | hs <;> rw [hs] <;> rfl
  refine .of_harmless ((harmless_updatePayment hread).bind fun updated => ?_)
  refine (harmless_createTransaction _ _ _ _).bind fun _ => ?_
  refine (harmless_audit _ _ _ _ _).bind fun _ => (harmless_createEvent _ _).bind fun _ => ?_
  have hcalls : Calls faithful (confirmAfterCapture cfg payment.orderId) :=
    calls_confirmAfterCapture rfl fun _ => rfl
  have hconfirm := Harmless.of_calls hcalls (unheard_confirmAfterCapture cfg payment.orderId)
  exact hconfirm.bind fun _ => harmless_enqueue.bind fun _ => trivial

theorem settles_capturePayment (cfg : PaymentConfig) (actorId : ℕ)
    (hs : payment.status = .pending ∨ payment.status = .authorized) :
    Settles payment.id (capturePayment cfg payment actorId) := by
  unfold capturePayment
  split
  · split
    · have hread : faithful (.payment (.update payment.id payment.status .captureZero)) = true := by
        rcases hs with hs | hs <;> rw [hs] <;> rfl
      refine .of_harmless ((harmless_updatePayment hread).bind fun _ => ?_)
      exact (harmless_audit _ _ _ _ _).bind fun _ => trivial
    · exact .done _
  next gatewayPaymentId =>
    refine settles_retryBind (fun reply => ?_) (fun reply before n o ho => ?_) rfl 2
    · split
      · exact settles_markFailed _ _ hs
      · exact settles_recordCapture _ _ _ hs
    · cases hr : reply.status <;> rw [hr] at ho <;> cases ho
      rw [if_neg (not_not.mpr rfl)]
      exact reaches_updateBind (.inl rfl) (by decide)

theorem settles_capture (cfg : PaymentConfig) (token actorId : ℕ) (asAdmin : Bool) :
    Settles x (capture cfg token x actorId asAdmin) := by
  refine .withLock (.requireBind fun payment hx => ?_)
  refine (Settles.done _).bind fun _ => ?_
  split
  · exact .done _
  next hcap =>
    rw [assertTransition]
    by_cases hs : (allowed payment.status).contains .captured = true
    · refine (Settles.done _).bind fun _ => ?_
      rw [← hx]
      refine settles_capturePayment cfg actorId ?_
      revert hs
      cases payment.status <;> decide
    · simp only [Prog.ensure, if_neg hs]
      exact .done _

theorem settles_cancelPayment (actorId : ℕ)
    (hs : ∀ o : GatewayOutcome, payment.status ∉ o.statuses) :
    Settles payment.id (cancelPayment payment actorId) := by
  have hread : faithful (.payment (.update payment.id payment.status .cancel)) = true := by
    have hcap := hs .captured
    have hvoid := hs .voided
    cases hp : payment.status <;> simp_all [GatewayOutcome.statuses, faithful, PaymentWrite.target]
  refine settles_retryBind (fun reply => ?_) (fun reply before n o ho => ?_) rfl 0
  · refine .of_harmless ((harmless_updatePayment hread).bind fun _ => ?_)
    refine (harmless_createTransaction _ _ _ _).bind fun _ => ?_
    exact (harmless_audit _ _ _ _ _).bind fun _ => (harmless_createEvent _ _).bind fun _ => trivial
  · cases hr : reply.status <;> rw [hr] at ho <;> cases ho <;>
      exact reaches_updateBind (.inr rfl) (by decide)

theorem settles_cancel (token actorId : ℕ) (asAdmin : Bool) :
    Settles x (cancel token x actorId asAdmin) := by
  refine .withLock (.requireBind fun payment hx => ?_)
  refine (Settles.done _).bind fun _ => ?_
  split
  · exact .done _
  next hfinal =>
    by_cases hcap : payment.status ≠ .captured ∧ payment.status ≠ .partiallyRefunded
    · refine (Settles.done _).bind fun _ => ?_
      rw [← hx]
      refine settles_cancelPayment actorId fun o => ?_
      cases o <;> simp_all [GatewayOutcome.statuses]
    · simp only [Prog.ensure, if_neg hcap]
      exact .done _

theorem harmless_updateRefund (id : ℕ) (status : RefundStatus)
    (gatewayRefundId reason : Option String) :
    Harmless (updateRefund id status gatewayRefundId reason) := by
  refine .of_quiet (calls_updateRefund _ _ _ _) (unheard_atomic fun i s b s' h => ?_)
  simp only [writeRefund, bind_eq_ok, existing_eq_ok, pure_eq_ok, Prod.mk.injEq] at h
  obtain ⟨-, -, -, rfl⟩ := h
  rfl

theorem insertRefundItems_log {refundId : ℕ} {items : List RefundItemDto} {s s' : Shop}
    (h : insertRefundItems refundId items s = .ok s') : s'.gatewayLog = s.gatewayLog := by
  induction items generalizing s with
  | nil =>
    cases h
    rfl
  | cons item items ih =>
    simp only [insertRefundItems, bind_eq_ok, check_eq_ok] at h
    obtain ⟨-, -, h⟩ := h
    have hrest := ih h
    exact hrest

theorem harmless_createRefundItems (id : ℕ) (items : List RefundItemDto) :
    Harmless (createRefundItems id items) := by
  refine .of_quiet (calls_createRefundItems id items) ?_
  unfold createRefundItems
  split
  · trivial
  · refine unheard_atomic fun i s b s' h => ?_
    simp only [bind_eq_ok, pure_eq_ok, Prod.mk.injEq] at h
    obtain ⟨u, hu, -, rfl⟩ := h
    exact insertRefundItems_log hu

theorem settles_refundPayment (actorId : ℕ) (dto : RefundPaymentDto)
    (hs : payment.status = .captured ∨ payment.status = .partiallyRefunded) :
    Settles x (refundPayment payment actorId dto) := by
  have hread : faithful (.payment (.update payment.id payment.status (recordOf payment dto.amount))) =
      true := by
    unfold recordOf refundedStatus
    rcases hs with hs | hs <;> split <;> rw [hs] <;> rfl
  have hcreate : Unheard (atomic (.payment (.createRefund payment.id dto.amount)) fun i s =>
      insertRefund payment actorId dto i.now i.reply.random s) := by
    refine unheard_atomic fun i s b s' h => ?_
    simp only [insertRefund, bind_eq_ok, check_eq_ok, pure_eq_ok, Prod.mk.injEq] at h
    obtain ⟨-, -, -, -, -, rfl⟩ := h
    rfl
  refine .of_harmless ((Harmless.of_quiet (calls_createRefund payment actorId dto) hcreate).bind
    fun refund => ?_)
  refine (harmless_createRefundItems _ _).bind fun _ => ?_
  refine Harmless.bind (Prog.every_orThrow _ _) fun gatewayPaymentId => ?_
  refine Prog.Every.tryCatch ?_ fun err => ?_
  · refine Harmless.bind (harmless_gatewayCall fun _ => rfl) fun gw => ?_
    refine (harmless_updateRefund _ _ _ _).bind fun _ => ?_
    refine (harmless_createTransaction _ _ _ _).bind fun _ => ?_
    refine (harmless_updatePayment hread).bind fun _ => ?_
    exact (harmless_audit _ _ _ _ _).bind fun _ => harmless_createEvent _ _
  · exact (harmless_updateRefund _ _ _ _).bind fun _ => harmless_enqueue.bind fun _ => trivial

theorem settles_refund (token actorId : ℕ) (dto : RefundPaymentDto) (asAdmin : Bool) :
    Settles x (refund token x actorId dto asAdmin) := by
  refine .withLock (.requireBind fun payment hx => ?_)
  refine (Settles.done _).bind fun _ => ?_
  by_cases hs : payment.status = .captured ∨ payment.status = .partiallyRefunded
  · refine (Settles.done _).bind fun _ => (Settles.done _).bind fun _ => ?_
    exact settles_refundPayment actorId dto hs
  · simp only [Prog.ensure, if_neg hs]
    exact .done _

end Runs

/-! ### Whole runs -/

inductive Operation where
  | authorize (actorId : ℕ) (asAdmin : Bool)
  | capture (actorId : ℕ) (asAdmin : Bool)
  | cancel (actorId : ℕ) (asAdmin : Bool)
  | refund (actorId : ℕ) (dto : RefundPaymentDto) (asAdmin : Bool)
deriving DecidableEq, Repr

def Operation.prog (cfg : PaymentConfig) (x token : ℕ) : Operation → ShopProg Unit
  | .authorize actorId asAdmin => (Payments.authorize token x actorId asAdmin).bind fun _ => pure ()
  | .capture actorId asAdmin => (Payments.capture cfg token x actorId asAdmin).bind fun _ => pure ()
  | .cancel actorId asAdmin => (Payments.cancel token x actorId asAdmin).bind fun _ => pure ()
  | .refund actorId dto asAdmin => Payments.refund token x actorId dto asAdmin

/-- All calls on payment `x` at once, each with a lock token of its own. -/
def overlapping (cfg : PaymentConfig) (x : ℕ) (operations : List Operation) (s : Shop) :
    ShopPool Unit :=
  ⟨operations.mapIdx fun token op => op.prog cfg x token, s⟩

theorem settles_operation (cfg : PaymentConfig) (x token : ℕ) (op : Operation) :
    Settles x (op.prog cfg x token) := by
  cases op with
  | authorize actorId asAdmin => exact (settles_authorize _ _ _).bind fun _ => .done _
  | capture actorId asAdmin => exact (settles_capture _ _ _ _).bind fun _ => .done _
  | cancel actorId asAdmin => exact (settles_cancel _ _ _).bind fun _ => .done _
  | refund actorId dto asAdmin => exact settles_refund _ _ _ _

theorem overlapping_records {cfg : PaymentConfig} {x : ℕ} {operations : List Operation} {s : Shop}
    {sched : List (ℕ × ShopInput)} (o : GatewayOutcome)
    (hok : (overlapping cfg x operations s).Admits (Current x) sched)
    (hend : ((overlapping cfg x operations s).run sched).quiescent = true)
    (ho : Records x o s ∨
      answered o s < answered o ((overlapping cfg x operations s).run sched).state) :
    Records x o ((overlapping cfg x operations s).run sched).state := by
  have hstart : (overlapping cfg x operations s).Solvent (Current x) (fun _ => True)
      (Unrecorded x (Records x o s) (answered o s) o) := by
    refine ⟨trivial, fun t _ => Prog.every_of_forall (fun _ _ _ _ => trivial) t, fun t ht => ?_, ?_⟩
    · obtain ⟨token, hlt, rfl⟩ := List.mem_mapIdx.mp ht
      exact settles_operation cfg x token _ _ _ _
    · rintro ⟨hdue, hnot⟩
      have hlt := hdue.resolve_left hnot
      exact (lt_irrefl _ hlt).elim
  have hsettled := (Pool.debt_run hstart hok).settled hend
  by_contra hnot
  exact hsettled ⟨ho, hnot⟩

/-- Whatever the interleaving of the four operations: as long as every write is current, a payment
that the gateway captured ends captured or refunded, and one that it voided does not end captured. -/
theorem payment_agrees_with_gateway (cfg : PaymentConfig) (x : ℕ) (operations : List Operation)
    (s : Shop) (sched : List (ℕ × ShopInput))
    (hok : (overlapping cfg x operations s).Admits (Current x) sched)
    (hend : ((overlapping cfg x operations s).run sched).quiescent = true) :
    ∀ p p', s.payments.find? x = some p →
      ((overlapping cfg x operations s).run sched).state.payments.find? x = some p' →
      (p.status ∈ [PaymentStatus.captured, .partiallyRefunded, .refunded] ∨ answered .captured s <
          answered .captured ((overlapping cfg x operations s).run sched).state →
        p'.status ∈ [PaymentStatus.captured, .partiallyRefunded, .refunded]) ∧
      (p.status = .cancelled ∨ answered .voided s <
          answered .voided ((overlapping cfg x operations s).run sched).state →
        p'.status ≠ .captured) := by
  intro p p' hp hp'
  have hrecord : ∀ o, p.status ∈ GatewayOutcome.statuses o ∨
      answered o s < answered o ((overlapping cfg x operations s).run sched).state →
      p'.status ∈ GatewayOutcome.statuses o := by
    intro o ho
    obtain ⟨q, hq, hst⟩ := overlapping_records o hok hend (ho.imp_left fun h => ⟨p, hp, h⟩)
    obtain rfl := Option.some.inj (hp'.symm.trans hq)
    exact hst
  refine ⟨hrecord .captured, fun ho => ?_⟩
  have hvoid := hrecord .voided (ho.imp_left List.mem_singleton.mpr)
  rw [List.mem_singleton.mp hvoid]
  decide

def paymentIn (status : PaymentStatus) : Shop where
  payments := Table.empty.insert fun n =>
    { id := n, orderId := 0, customerId := some 1, gatewayId := 0, gatewayOrderId := some "order_1",
      gatewayPaymentId := some "pay_1", amount := 100, status }

/-- `n` calls of thread `j`, with the gateway answering `status`. -/
def answering (j n : ℕ) (status : GatewayStatus) : List (ℕ × ShopInput) :=
  List.replicate n (j, { reply := { status, gatewayPaymentId := "pay_1" } })

def captureCancelRefund : List Operation :=
  [.capture 1 false, .cancel 1 false, .refund 2 { amount := 100 } true]

/-- The cancellation read the payment before it was captured; the gateway refuses the void. -/
def voidRefused : List (ℕ × ShopInput) :=
  answering 0 2 .captured ++ answering 1 2 .cancelled ++ answering 0 1 .captured ++
    [(1, { reply := { thrown := some (false, "already captured") } })] ++ answering 1 1 .cancelled ++
      answering 0 6 .captured ++ answering 2 10 .processed

theorem payment_agrees_with_gateway_refused :
    ∃ p', ((overlapping ⟨some true, none⟩ 0 captureCancelRefund (paymentIn .authorized)).run
        voidRefused).state.payments.find? 0 = some p' ∧ p'.status = .refunded ∧
      p'.status ∈ [PaymentStatus.captured, .partiallyRefunded, .refunded] := by
  have hread : (((overlapping ⟨some true, none⟩ 0 captureCancelRefund (paymentIn .authorized)).run
      voidRefused).state.payments.find? 0).map Payment.status = some .refunded := by decide +kernel
  obtain ⟨p', hp', hst⟩ := Option.map_eq_some_iff.mp hread
  refine ⟨p', hp', hst, ?_⟩
  exact (payment_agrees_with_gateway ⟨some true, none⟩ 0 captureCancelRefund (paymentIn .authorized)
    voidRefused (by decide +kernel) (by decide +kernel) _ p' rfl hp').1 (.inr (by decide +kernel))

def authorizeCapture : List Operation := [.authorize 1 false, .capture 1 false]

/-- The authorization read the payment before it was captured, and writes last. -/
def authorizedLast : List (ℕ × ShopInput) :=
  answering 0 4 .authorized ++ answering 1 9 .captured ++ answering 0 6 .authorized

theorem captured_payment_left_authorized :
    ((overlapping ⟨some true, none⟩ 0 authorizeCapture (paymentIn .pending)).run
        authorizedLast).quiescent = true ∧
      (∀ a ∈ authorizedLast, a.2.fails = false ∧ a.2.reply.thrown = none) ∧
      answered .captured (paymentIn .pending) < answered .captured
        ((overlapping ⟨some true, none⟩ 0 authorizeCapture (paymentIn .pending)).run
          authorizedLast).state ∧
      (((overlapping ⟨some true, none⟩ 0 authorizeCapture (paymentIn .pending)).run
        authorizedLast).state.payments.find? 0).map Payment.status = some .authorized :=
  ⟨by decide +kernel, by decide +kernel, by decide +kernel, by decide +kernel⟩

end ElectronicsCart.Payments
