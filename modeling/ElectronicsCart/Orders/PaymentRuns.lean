import ElectronicsCart.Orders.FailedCheckouts

/-!
# The payment that a checkout leaves open

The step `create_payment` asks the gateway for an order, writes the payment row and then an
attempt, an audit entry and an event.  It is tried twice, and only an attempt that ends hands its
payment to the compensation.  So an attempt that fails after the row, or is given up, leaves a
payment that nobody voids, and the next attempt writes another one.  `voidOrCancel` in turn drops
the errors of `cancel`.  Where neither happens, a checkout has at most one payment, and a checkout
that throws before any capture leaves none that is alive.
-/

namespace ElectronicsCart.Orders

open Interleaving Relational Payments

/-- Neither cancelled nor failed. -/
def isAlive : PaymentStatus → Bool
  | .cancelled => false
  | .failed => false
  | _ => true

/-- Alive, and never captured. -/
def isOpen (p : Payment) : Bool := isAlive p.status && p.capturedAt.isNone

/-- An order from the number `n` on has an open payment. -/
def hasOpen (n : ℕ) (s : Shop) : Bool :=
  s.payments.rows.any fun p => decide (n ≤ p.orderId) && isOpen p

/-- An attempt of `create_payment` is not given up, and ends once its row is written. -/
def endsAttempt : ShopCall → ShopInput → Shop → Bool
  | .timer name, i, _ => name != "create_payment" || !i.timer
  | .payment (.createAttempt id number), i, s => number != 1 || !i.fails &&
      s.attempts.rows.all fun a => a.deleted || a.paymentId != id || a.attemptNumber != 1
  | .payment (.createAudit _ action), i, _ => action != "create" || !i.fails
  | .payment (.createEvent _ event), i, _ => event != "payment.created" || !i.fails
  | _, _, _ => true

/-- No write brings a cancelled or failed payment back. -/
def staysVoid : ShopCall → Shop → Bool
  | .payment (.update id _ write), s =>
    !isAlive write.target || (s.payments.find? id).all fun p => isAlive p.status
  | _, _ => true

/-- The calls of `voidOrCancel` up to its write, and the calls that end a checkout whose workflow
is complete, go through. -/
def passesVoid : ShopCall → ShopInput → Shop → Bool
  | .payment (.findPayment _), i, _ => !i.fails
  | .acquire (.payment .cancel id) _, i, s => !i.fails && (s.locks (.payment .cancel id)).isNone
  | .payment (.requirePayment (some .cancel) _), i, _ => !i.fails
  | .payment (.gateway (.cancel _ _ _)), i, _ => i.reply.thrown.isNone
  | .payment (.update id _ .cancel), i, s => !i.fails && (s.payments.find? id).all fun p =>
      validPayment s.payments (applyWrite i.now p .cancel)
  | .order (.findOrderById _), i, _ => !i.fails
  | .release (.checkout _) _, i, _ => !i.fails
  | _, _, _ => true

/-- No attempt leaves its payment behind, none is brought back, and while a payment is open the
calls that void it go through. -/
def Closes (n : ℕ) (l : ShopCall) (i : ShopInput) (s : Shop) : Prop :=
  endsAttempt l i s = true ∧ staysVoid l s = true ∧ (hasOpen n s = true → passesVoid l i s = true)

instance (n : ℕ) (l : ShopCall) (i : ShopInput) (s : Shop) : Decidable (Closes n l i s) :=
  inferInstanceAs (Decidable (_ ∧ _ ∧ _))

/-! ### What every call but the insertion leaves of the new payments -/

/-- Captured payments carry the time of their capture, and nothing was refunded. -/
def IsSound (p : Payment) : Prop :=
  (p.status = .captured → p.capturedAt.isSome = true) ∧ p.status ≠ .refunded ∧
    p.status ≠ .partiallyRefunded

structure Follows (p p' : Payment) : Prop where
  id : p'.id = p.id
  orderId : p'.orderId = p.orderId
  customerId : p'.customerId = p.customerId
  deleted : p'.deleted = p.deleted
  void : isAlive p.status = false → isAlive p'.status = false
  captured : p.capturedAt.isSome = true → p'.capturedAt.isSome = true
  sound : IsSound p → IsSound p'

theorem Follows.refl (p : Payment) : Follows p p :=
  ⟨rfl, rfl, rfl, rfl, fun h => h, fun h => h, fun h => h⟩

theorem Follows.trans {a b c : Payment} (h : Follows a b) (h' : Follows b c) : Follows a c :=
  ⟨h'.id.trans h.id, h'.orderId.trans h.orderId, h'.customerId.trans h.customerId,
    h'.deleted.trans h.deleted, fun hv => h'.void (h.void hv),
    fun hc => h'.captured (h.captured hc), fun hs => h'.sound (h.sound hs)⟩

theorem Follows.closed {p p' : Payment} (h : Follows p p') (hp : isOpen p = false) :
    isOpen p' = false := by
  simp only [isOpen, Bool.and_eq_false_iff, Option.isNone_eq_false_iff] at hp ⊢
  exact hp.imp h.void h.captured

/-- Every payment of an order from `n` on was one before. -/
def Idle (n : ℕ) (s s' : Shop) : Prop :=
  ∀ p' ∈ s'.payments.rows, n ≤ p'.orderId → ∃ p ∈ s.payments.rows, Follows p p'

theorem Idle.of_payments {n : ℕ} {s s' : Shop} (h : s'.payments = s.payments) : Idle n s s' := by
  intro p hp _
  rw [h] at hp
  exact ⟨p, hp, .refl p⟩

theorem Idle.refl (n : ℕ) (s : Shop) : Idle n s s := .of_payments rfl

theorem Idle.trans {n : ℕ} {a b c : Shop} (h : Idle n a b) (h' : Idle n b c) : Idle n a c := by
  intro p'' hp'' hn
  obtain ⟨p', hp', hf'⟩ := h' p'' hp'' hn
  obtain ⟨p, hp, hf⟩ := h p' hp' (hf'.orderId ▸ hn)
  exact ⟨p, hp, hf.trans hf'⟩

theorem Idle.all {n : ℕ} {s s' : Shop} {P : Payment → Prop} (hP : ∀ p p', Follows p p' → P p → P p')
    (h : Idle n s s') (hs : ∀ p ∈ s.payments.rows, n ≤ p.orderId → P p) :
    ∀ p ∈ s'.payments.rows, n ≤ p.orderId → P p := by
  intro p' hp' hn
  obtain ⟨p, hp, hf⟩ := h p' hp' hn
  exact hP p p' hf (hs p hp (hf.orderId ▸ hn))

/-- The labels of a checkout but the one that inserts a payment. -/
def unpaying : ShopCall → Bool
  | .order (.transitionStatus _ _ .cancelled) => true
  | .order (.transitionStatus _ _ .confirmed) => true
  | l => settling l

theorem unpaying_of_settling {l : ShopCall} (h : settling l = true) : unpaying l = true := by
  unfold unpaying
  split <;> first | exact h | rfl

theorem unpaying_of_amending {l : ShopCall} (h : amending l = true) : unpaying l = true :=
  unpaying_of_settling (settling_of_amending h)

theorem unpaying_of_quiet {l : ShopCall} (h : quiet l = true) : unpaying l = true :=
  unpaying_of_amending (amending_of_quiet h)

theorem follows_applyWrite {id now : ℕ} {read : PaymentStatus} {write : PaymentWrite} {p : Payment}
    (hl : unpaying (.payment (.update id read write)) = true)
    (hv : isAlive write.target = true → isAlive p.status = true) :
    Follows p (applyWrite now p write) := by
  have hvoid : isAlive p.status = false → isAlive (applyWrite now p write).status = false := by
    intro hp
    rw [status_applyWrite]
    by_contra halive
    rw [hv (by simpa using halive)] at hp
    cases hp
  cases write with
  | webhook status gatewayPaymentId => cases hl
  | refund amount status => cases hl
  | capture => exact ⟨rfl, rfl, rfl, rfl, hvoid, fun _ => rfl, fun _ => ⟨fun _ => rfl, nofun, nofun⟩⟩
  | captureZero => exact ⟨rfl, rfl, rfl, rfl, hvoid, fun _ => rfl, fun _ => ⟨fun _ => rfl, nofun, nofun⟩⟩
  | _ => exact ⟨rfl, rfl, rfl, rfl, hvoid, fun h => h, fun _ => ⟨nofun, nofun, nofun⟩⟩

theorem Idle.effect {n now : ℕ} {l : ShopCall} {s s' : Shop} (hl : unpaying l = true)
    (hv : staysVoid l s = true) (he : Effect l now s s') : Idle n s s' := by
  cases he.paymentStep with
  | same hpayments => exact .of_payments hpayments
  | write id read write q hlabel hq hpayments =>
    subst hlabel
    intro r hr _
    rw [hpayments] at hr
    obtain ⟨a, ha, rfl⟩ := (Table.mem_update (key_applyWrite now write)).mp hr
    refine ⟨a, ha, ?_⟩
    split
    next hid =>
      obtain rfl : a = q := Table.eq_of_find?_eq hq ha hid
      refine follows_applyWrite hl fun halive => ?_
      simpa [staysVoid, hq, halive] using hv
    · exact .refl a
  | create orderId amount mk hmk hlabel =>
    subst hlabel
    cases hl

/-! ### The judgement -/

/-- At most one payment of the orders from `n` on, and that one is sound. -/
structure Tidy (n : ℕ) (s : Shop) : Prop where
  single : ∀ p ∈ s.payments.rows, ∀ q ∈ s.payments.rows, n ≤ p.orderId → n ≤ q.orderId → p.id = q.id
  sound : ∀ p ∈ s.payments.rows, n ≤ p.orderId → IsSound p

theorem Tidy.idle {n : ℕ} {s s' : Shop} (h : Tidy n s) (hi : Idle n s s') : Tidy n s' := by
  refine ⟨fun p' hp' q' hq' hp hq => ?_, hi.all (fun _ _ hf hs => hf.sound hs) h.sound⟩
  obtain ⟨p, hpm, hfp⟩ := hi p' hp' hp
  obtain ⟨q, hqm, hfq⟩ := hi q' hq' hq
  have hid : p.id = q.id := h.single p hpm q hqm (hfp.orderId ▸ hp) (hfq.orderId ▸ hq)
  rw [hfp.id, hfq.id, hid]

/-- No payment of an order from `n` on. -/
def Unpaid (n : ℕ) (s : Shop) : Prop := ∀ p ∈ s.payments.rows, p.orderId < n

theorem Unpaid.idle {n : ℕ} {s s' : Shop} (hi : Idle n s s') (h : Unpaid n s) : Unpaid n s' := by
  intro p' hp'
  by_contra hn
  obtain ⟨p, hp, hf⟩ := hi p' hp' (Nat.not_lt.mp hn)
  have hlt := h p hp
  rw [hf.orderId] at hn
  exact hn hlt

/-- The one payment of the orders from `n` on is `id`, and `userId` may cancel it. -/
def Sole (n id userId : ℕ) (s : Shop) : Prop :=
  ∀ p ∈ s.payments.rows, n ≤ p.orderId → p.id = id ∧ p.customerId = some userId ∧ p.deleted = false

theorem Sole.idle {n id userId : ℕ} {s s' : Shop} (hi : Idle n s s') (h : Sole n id userId s) :
    Sole n id userId s' := by
  refine hi.all (fun p p' hf hp => ?_) h
  rw [hf.id, hf.customerId, hf.deleted]
  exact hp

theorem hasOpen_eq_false {n : ℕ} {s : Shop} :
    hasOpen n s = false ↔ ∀ p ∈ s.payments.rows, n ≤ p.orderId → isOpen p = false := by
  simp [hasOpen]

theorem closed_idle {n : ℕ} {s s' : Shop} (hi : Idle n s s') (h : hasOpen n s = false) :
    hasOpen n s' = false := by
  rw [hasOpen_eq_false] at h ⊢
  exact hi.all (fun _ _ hf hp => hf.closed hp) h

theorem closed_of_unpaid {n : ℕ} {s : Shop} (h : Unpaid n s) : hasOpen n s = false := by
  rw [hasOpen_eq_false]
  intro p hp hn
  exact absurd (h p hp) (Nat.not_lt.mpr hn)

theorem Sole.opened {n id userId : ℕ} {s : Shop} (h : Sole n id userId s) (ho : hasOpen n s = true) :
    ∃ p, s.payments.find? id = some p ∧ n ≤ p.orderId ∧ isOpen p = true ∧
      p.customerId = some userId ∧ p.deleted = false := by
  simp only [hasOpen, List.any_eq_true, Bool.and_eq_true, decide_eq_true_eq] at ho
  obtain ⟨p, hp, hn, hopen⟩ := ho
  obtain ⟨hid, hcustomer, hlive⟩ := h p hp hn
  exact ⟨p, Table.find?_eq_some_iff.mpr ⟨hp, hid⟩, hn, hopen, hcustomer, hlive⟩

def closeWorld (n : ℕ) : World ShopCall ShopInput Shop := ⟨Closes n, Tidy n⟩

/-- The attempts that were given up add no payment. -/
def abandoned (n : ℕ) : Discipline ShopCall ShopInput Shop := .free fun _ _ => Idle n

def attended (n : ℕ) : Discipline ShopCall ShopInput Shop where
  rely := Idle n
  guar _ _ _ _ := True
  refl := Idle.refl n
  trans := Idle.trans

/-- What the checkout itself does, beside its abandoned attempts. -/
abbrev Tends {α : Type} (n : ℕ) (Q : Except Failure α → Shop → Prop) (p : ShopProg α) (s : Shop) : Prop :=
  Holds (closeWorld n) (abandoned n) (attended n) Q p s

variable {α β : Type} {n : ℕ} {s : Shop}

theorem every_unpaying {p : ShopProg α} (hp : Calls unpaying p) :
    p.Every (fun l i t => Closes n l i t ∧ Tidy n t) fun _ _ t t' => Tidy n t' ∧ Idle n t t' := by
  refine Prog.Every.imp (fun _ _ _ _ => trivial) ?_ hp
  rintro l i t t' ⟨hok, hi⟩ ⟨hl, he⟩
  have hidle : Idle n t t' := .effect hl hok.2.1 he
  exact ⟨hi.idle hidle, hidle⟩

theorem tends_keep {P : Shop → Prop} {p : ShopProg α} (hP : ∀ t t', Idle n t t' → P t → P t')
    (hp : Calls unpaying p) (hs : P s) : Tends n (fun _ t => P t) p s := by
  refine Holds.of_every hP ((every_unpaying hp).mono ?_) hs
  rintro l i t t' - ⟨hi, hidle⟩
  exact ⟨hi, trivial, hidle, hP t t' hidle⟩

/-! ### Voiding -/

theorem tends_callBind {l : ShopCall} {f : ShopInput → Shop → Except Failure β × Shop}
    {k : β → ShopProg α} (hcalls : Calls unpaying ((Prog.call l f).bind k))
    (h : ∀ t i, Idle n s t → Tidy n t → hasOpen n t = true → passesVoid l i t = true →
      ∃ b, (f i t).1 = .ok b ∧ (Calls unpaying (k b) → Idle n s (f i t).2 →
        Tends n (fun _ u => hasOpen n u = false) (k b) (f i t).2)) :
    Tends n (fun _ u => hasOpen n u = false) ((Prog.call l f).bind k) s := by
  refine Holds.callBind fun t ht hi i ho => ?_
  obtain ⟨⟨hl, he⟩, hrest⟩ := hcalls i t trivial
  have hidle : Idle n t (f i t).2 := .effect hl ho.2.1 he
  refine ⟨hi.idle hidle, trivial, ?_⟩
  change Calls unpaying ((Prog.done (f i t).1).bind k) at hrest
  cases hopen : hasOpen n t with
  | true =>
    obtain ⟨b, hb, hk⟩ := h t i ht hi hopen (ho.2.2 hopen)
    rw [hb] at hrest ⊢
    exact hk hrest (Idle.trans ht hidle)
  | false =>
    have hclosed : hasOpen n (f i t).2 = false := closed_idle hidle hopen
    cases hf : (f i t).1 with
    | ok b =>
      rw [hf] at hrest
      exact tends_keep (fun _ _ => closed_idle) hrest hclosed
    | error e => exact fun t' ht' _ => closed_idle ht' hclosed

theorem isOpen_iff {p : Payment} :
    isOpen p = true ↔ isAlive p.status = true ∧ p.capturedAt = none := by
  simp [isOpen]

theorem isVoid_of_cancel {id userId now : ℕ} {p : Payment} {s s' : Shop} (hs : Sole n id userId s)
    (h : writePayment id .cancel now s = .ok (p, s')) : hasOpen n s' = false := by
  obtain ⟨q, hq, -, rfl⟩ := writePayment_cases h
  rw [hasOpen_eq_false]
  refine Table.forall_update (key_applyWrite now .cancel) (fun _ _ _ _ => rfl) fun a ha hne hn => ?_
  exact absurd (hs a ha hn).1 hne

theorem tends_cancelPayment {id userId : ℕ} {payment : Payment} (hid : payment.id = id)
    (hs : Sole n id userId s) :
    Tends n (fun _ u => hasOpen n u = false) (cancelPayment payment userId) s := by
  have hcalls : Calls unpaying (cancelPayment payment userId) :=
    (calls_cancelPayment payment userId).mono fun _ => unpaying_of_amending
  refine tends_callBind hcalls fun t i _ _ _ hgo => ?_
  have hthrown : i.reply.thrown = none := Option.isNone_iff_eq_none.mp hgo
  refine ⟨i.reply, by simp [hthrown], fun hcalls ht => ?_⟩
  refine tends_callBind hcalls fun u i hu _ hopen hgo => ?_
  have hsole : Sole n payment.id userId u := hid ▸ hs.idle (ht.trans hu)
  obtain ⟨p, hfind, -, hp, -, -⟩ := hsole.opened hopen
  have hgo' : i.fails = false ∧ validPayment u.payments (applyWrite i.now p .cancel) = true := by
    simpa [passesVoid, hfind] using hgo
  obtain ⟨r, v, hwrite⟩ : ∃ r v, writePayment payment.id .cancel i.now u = .ok (r, v) := by
    simp only [writePayment, bind_eq_ok, existing_eq_ok, check_eq_ok, pure_eq_ok, Prod.mk.injEq]
    exact ⟨_, _, p, hfind, (), hgo'.2, rfl, rfl⟩
  refine ⟨r, by simp [hgo'.1, hwrite, settle], fun hcalls _ => ?_⟩
  have hv : (if i.fails = true then (Except.error Failure.database, u)
      else settle u (writePayment payment.id .cancel i.now u)).2 = v := by
    simp [hgo'.1, hwrite, settle]
  rw [hv]
  exact tends_keep (fun _ _ => closed_idle) hcalls (isVoid_of_cancel hsole hwrite)

theorem tends_cancelSection {id userId : ℕ} (hs : Sole n id userId s) :
    Tends n (fun _ u => hasOpen n u = false)
      (do
        let payment ← requirePayment (some .cancel) id
        assertCanAccess false payment.customerId userId
        if payment.status = .cancelled ∨ payment.status = .refunded then pure payment
        else do
          Prog.ensure (payment.status ≠ .captured ∧ payment.status ≠ .partiallyRefunded)
            (.throwApp .conflict "Captured payments must be refunded" 409)
          cancelPayment payment userId) s := by
  have hcalls : Calls unpaying (do
        let payment ← requirePayment (some .cancel) id
        assertCanAccess false payment.customerId userId
        if payment.status = .cancelled ∨ payment.status = .refunded then pure payment
        else do
          Prog.ensure (payment.status ≠ .captured ∧ payment.status ≠ .partiallyRefunded)
            (.throwApp .conflict "Captured payments must be refunded" 409)
          cancelPayment payment userId) := by
    refine ((calls_requirePayment _ _).mono fun _ => unpaying_of_quiet).bind fun payment => ?_
    refine (Calls.ensure _ _).bind fun _ => ?_
    split
    · exact .pure _
    · exact (Calls.ensure _ _).bind fun _ =>
        (calls_cancelPayment payment userId).mono fun _ => unpaying_of_amending
  simp only [requirePayment, findById, Prog.bind_eq, Prog.bind_assoc] at hcalls ⊢
  refine tends_callBind hcalls fun t i ht hi hopen hgo => ?_
  have hf : i.fails = false := by simpa [passesVoid] using hgo
  have hsole : Sole n id userId t := hs.idle ht
  obtain ⟨p, hfind, hn, hp, hcustomer, hlive⟩ := hsole.opened hopen
  obtain ⟨hmem, hid⟩ := Table.find?_mem hfind
  obtain ⟨hcaptured, hrefunded, hpartial⟩ := hi.sound p hmem hn
  obtain ⟨halive, htime⟩ := isOpen_iff.mp hp
  refine ⟨some p, by simp [hf, hfind, hlive], fun _ _ => ?_⟩
  have hcancelled : ¬ (p.status = .cancelled ∨ p.status = .refunded) := by
    rintro (h | h)
    · rw [h] at halive
      cases halive
    · exact hrefunded h
  have hcap : p.status ≠ .captured := by
    intro h
    have htime' := hcaptured h
    rw [htime] at htime'
    cases htime'
  change Tends n _ ((Prog.ensure _ _).bind fun _ => _) t
  refine Holds.ensureBind (fun _ => ?_) fun hno => ?_
  · rw [if_neg hcancelled]
    refine Holds.ensureBind (fun _ => tends_cancelPayment hid hsole) fun hno => ?_
    exact (hno ⟨hcap, hpartial⟩).elim
  · exact (hno (.inr (by simp [hcustomer]))).elim

theorem tends_cancel {id userId : ℕ} (token : ℕ) (hs : Sole n id userId s) :
    Tends n (fun _ u => hasOpen n u = false) (Payments.cancel token id userId false) s := by
  have hcalls : Calls unpaying (Payments.cancel token id userId false) :=
    (calls_cancel token id userId false).mono fun _ => unpaying_of_amending
  have hrelease : Calls unpaying (LockService.release (.payment .cancel id) token : ShopProg Unit) := by
    refine .atomic rfl fun i t b t' h => .inl ?_
    obtain ⟨-, rfl⟩ := Prod.mk.inj (Except.ok.inj h)
    rcases LockService.drop_cases (L := ShopCall) (ShopLock.payment .cancel id) token t with ⟨-, hd⟩ | hd
    · rw [hd]
      exact ⟨rfl, rfl, rfl, rfl, rfl⟩
    · rw [hd]
      exact .refl t
  refine tends_callBind hcalls fun t i ht hi _ hgo => ?_
  change (!i.fails && (t.locks (.payment .cancel id)).isNone) = true at hgo
  have hgo' : i.fails = false ∧ t.locks (.payment .cancel id) = none := by simpa using hgo
  have htake : LockService.take ShopCall (ShopLock.payment .cancel id) token t =
      (true, { t with locks := Function.update t.locks (.payment .cancel id) (some token) }) :=
    if_pos hgo'.2
  refine ⟨true, by simp [hgo'.1, htake, settle], fun _ hidle => ?_⟩
  refine Holds.ensureBind (fun _ => ?_) fun hno => (hno rfl).elim
  have hsection := tends_cancelSection (hs.idle hidle)
  refine Holds.andFinally (Holds.mono (fun r u _ hu => ?_) hsection) ?_
  · refine Holds.mono ?_ (tends_keep (fun _ _ => closed_idle) hrelease hu)
    rintro (e | a) v _ hv
    · exact hv
    · exact fun v' hv' _ => closed_idle hv' hv
  · simp only [hgo'.1, htake, settle]
    exact hi.idle (.of_payments rfl)

theorem tends_voidOrCancel {id userId : ℕ} (token : ℕ) (hs : Sole n id userId s) :
    Tends n (fun _ u => hasOpen n u = false) (voidOrCancel token id userId) s := by
  have hcalls : Calls unpaying (voidOrCancel token id userId) :=
    (calls_voidOrCancel token id userId).mono fun _ => unpaying_of_amending
  refine tends_callBind hcalls fun t i ht hi hopen hgo => ?_
  have hf : i.fails = false := by simpa [passesVoid] using hgo
  have hsole : Sole n id userId t := hs.idle ht
  obtain ⟨p, hfind, -, hp, -, hlive⟩ := hsole.opened hopen
  refine ⟨some p, by simp [hf, hfind, hlive], fun _ _ => ?_⟩
  have hne : ¬ (p.status = .cancelled ∨ p.status = .failed) := by
    have halive := (isOpen_iff.mp hp).1
    rintro (h | h) <;> rw [h] at halive <;> cases halive
  dsimp only
  rw [if_neg hne]
  refine Holds.bind (Holds.attempt (Holds.mono (fun r u _ hu => ?_) (tends_cancel token hsole))) hi
  exact fun v hv _ => closed_idle hv hu

/-! ### The step that creates the payment -/

/-- A created payment is the only new one; an attempt that failed wrote none. -/
def Created (n userId : ℕ) : Except Failure Payment → Shop → Prop
  | .ok payment, t => Sole n payment.id userId t
  | .error _, t => Unpaid n t

theorem sole_insertPayment {order : Order} {userId gatewayId : ℕ} {gatewayOrderId : String}
    {dto : CreatePaymentDto} {p : Payment} {s' : Shop} (hs : Unpaid n s)
    (howner : order.customerId.all (· == userId) = true)
    (h : insertPayment order userId gatewayId gatewayOrderId dto s = .ok (p, s')) :
    Tidy n s' ∧ Sole n p.id userId s' := by
  simp only [insertPayment, bind_eq_ok, check_eq_ok, pure_eq_ok, Prod.mk.injEq] at h
  obtain ⟨-, -, -, -, rfl, rfl⟩ := h
  have hcustomer : order.customerId.or (some userId) = some userId := by
    cases hc : order.customerId with
    | none => rfl
    | some c =>
      rw [hc] at howner
      obtain rfl : c = userId := by simpa using howner
      rfl
  have hnew : ∀ q ∈ (s.payments.insert fun k =>
      { id := k, orderId := order.id, customerId := order.customerId.or (some userId), gatewayId,
        gatewayOrderId := some gatewayOrderId, amount := dto.amount,
        currency := dto.currency.getD "INR" : Payment }).rows, n ≤ q.orderId →
      q.id = s.payments.next ∧ q.customerId = some userId ∧ q.deleted = false ∧ q.status = .pending := by
    intro q hq hn
    rcases (Table.mem_insert _).mp hq with hq | rfl
    · exact absurd (hs q hq) (Nat.not_lt.mpr hn)
    · exact ⟨rfl, hcustomer, rfl, rfl⟩
  refine ⟨⟨fun a ha b hb hna hnb => ?_, fun a ha hna => ?_⟩, fun q hq hn => ?_⟩
  · exact (hnew a ha hna).1.trans (hnew b hb hnb).1.symm
  · obtain ⟨-, -, -, hst⟩ := hnew a ha hna
    simp [IsSound, hst]
  · obtain ⟨hid, hcustomer, hlive, -⟩ := hnew q hq hn
    exact ⟨hid, hcustomer, hlive⟩

theorem tends_mustBind {Q : Except Failure α → Shop → Prop} {l : ShopCall}
    {f : ShopInput → Shop → Except Failure (β × Shop)} {k : β → ShopProg α}
    (hcalls : Calls unpaying (atomic l f))
    (hok : ∀ t i, endsAttempt l i t = true → i.fails = false ∧ ∃ b u, f i t = .ok (b, u))
    (hk : ∀ b t, Idle n s t → Tidy n t → Tends n Q (k b) t) : Tends n Q ((atomic l f).bind k) s := by
  refine Holds.callBind fun t ht hi i ho => ?_
  obtain ⟨⟨hl, he⟩, -⟩ := hcalls i t trivial
  obtain ⟨hf, b, u, hu⟩ := hok t i ho.1
  have heq : (if i.fails = true then (Except.error Failure.database, t) else settle t (f i t)) =
      (.ok b, u) := by
    simp [hf, hu, settle]
  dsimp only at he ⊢
  rw [heq] at he ⊢
  have hidle : Idle n t u := .effect hl ho.2.1 he
  exact ⟨hi.idle hidle, trivial, hk b u (Idle.trans ht hidle) (hi.idle hidle)⟩

theorem tends_create {userId : ℕ} (dto : CreatePaymentDto) (hs : Unpaid n s) :
    Tends n (Created n userId) (create userId dto) s := by
  refine holds_queryBind fun t ht hi i _ => ⟨trivial, fun t' ht' _ => hs.idle (ht.trans ht'), fun _ => ?_⟩
  have hs : Unpaid n t := hs.idle ht
  refine Holds.orThrowBind (fun order _ => ?_) fun _ t' ht' _ => hs.idle ht'
  refine Holds.ensureBind (fun howner => ?_) fun _ t' ht' _ => hs.idle ht'
  refine Holds.ensureBind (fun _ => ?_) fun _ t' ht' _ => hs.idle ht'
  refine Holds.bind (Holds.mono ?_ (tends_keep (fun _ _ h h' => h'.idle h)
    (calls_findGateway.mono fun _ => unpaying_of_quiet) hs)) hi
  rintro (e | found) t hi hs
  · exact hs
  refine Holds.orThrowBind (fun gateway _ => ?_) fun _ t' ht' _ => hs.idle ht'
  refine Holds.bind (Holds.mono ?_ (tends_keep (fun _ _ h h' => h'.idle h)
    ((calls_withRetry (calls_gatewayCall _) _).mono fun _ => unpaying_of_quiet) hs)) hi
  rintro (e | gwOrder) t hi hs
  · exact hs
  refine holds_atomicBind fun t ht hi i _ =>
    ⟨trivial, fun e t' _ ht' _ => hs.idle (ht.trans ht'), fun payment u _ hu => ?_⟩
  obtain ⟨hiu, hsole⟩ := sole_insertPayment (hs.idle ht) howner hu
  refine ⟨hiu, trivial, ?_⟩
  refine tends_mustBind ((calls_createAttempt _ _ _ _).mono fun _ => unpaying_of_quiet)
    (fun t i ho => ?_) fun _ v hv _ => ?_
  · simp only [endsAttempt, bne_self_eq_false, Bool.false_or, Bool.and_eq_true, Bool.not_eq_true'] at ho
    refine ⟨ho.1, ?_⟩
    simp only [insertAttempt, bind_eq_ok, check_eq_ok, pure_eq_ok, Prod.mk.injEq]
    exact ⟨(), _, (), by simpa using ho.2, trivial, rfl⟩
  have hsole := hsole.idle hv
  refine tends_mustBind ((calls_audit _ _ _ _ _).mono fun _ => unpaying_of_quiet)
    (fun t i ho => ⟨by simpa [endsAttempt] using ho, _, _, rfl⟩) fun _ v hv _ => ?_
  have hsole := hsole.idle hv
  refine tends_mustBind ((calls_createEvent _ _).mono fun _ => unpaying_of_quiet)
    (fun t i ho => ⟨by simpa [endsAttempt] using ho, _, _, rfl⟩) fun _ v hv _ => ?_
  exact Holds.done fun t ht _ => (hsole.idle hv).idle ht

/-! ### The workflow -/

def Paid (n : ℕ) (ctx : CheckoutContext) (s : Shop) : Prop :=
  ctx.orderId.isSome = true ∧ ∃ id, ctx.paymentId = some id ∧ Sole n id ctx.userId s

theorem Paid.idle {ctx : CheckoutContext} {t t' : Shop} (hi : Idle n t t') (h : Paid n ctx t) :
    Paid n ctx t' := by
  obtain ⟨horder, id, hid, hsole⟩ := h
  exact ⟨horder, id, hid, hsole.idle hi⟩

theorem tends_createPayment {ctx : CheckoutContext} (hi : Tidy n s) (hs : Unpaid n s) :
    Tends n (SagaCoordinator.Attempted (Unpaid n) fun patch t => Paid n (patch ctx) t)
      (createPayment ctx) s := by
  refine Holds.ensureBind (fun _ => ?_) fun _ t ht _ => hs.idle ht
  refine Holds.orThrowBind (fun orderId horder => ?_) fun _ t ht _ => hs.idle ht
  refine Holds.bind (Holds.mono ?_ (tends_create _ hs)) hi
  rintro (e | payment) t _ ht
  · exact ht
  · exact fun t' ht' _ => ⟨by rw [horder]; rfl, payment.id, rfl, ht.idle ht'⟩

theorem tends_attempts {step : CheckoutStep} {ctx : CheckoutContext} {P : Shop → Prop}
    {G : (CheckoutContext → CheckoutContext) → Prop} (hP : ∀ t t', Idle n t t' → P t → P t')
    (hcalls : Calls unpaying (step.execute ctx))
    (hpatch : (step.execute ctx).Yields G) (k : ℕ) (hi : Tidy n s) (hs : P s) :
    Tends n (SagaCoordinator.Attempted P fun patch t => G patch ∧ P t)
      (SagaCoordinator.attempts step ctx k) s := by
  refine SagaCoordinator.holds_retried (fun _ _ _ hidle h => ⟨h.1, hP _ _ hidle h.2⟩)
    (fun s hi hs => ?_) k s hi hs
  refine Holds.race_keep hP (fun _ _ _ _ => trivial) (fun _ _ h => h) ?_ ?_ hs
  · refine (every_unpaying hcalls).mono ?_
    rintro l i t t' - ⟨htidy, hidle⟩
    exact ⟨htidy, hidle, hP t t' hidle⟩
  · refine Holds.mono ?_ (Holds.yields hpatch (tends_keep hP hcalls hs))
    rintro (e | patch) t - ⟨hG, ht⟩
    · exact ht
    · exact ⟨hG patch rfl, ht⟩

theorem tends_compensateAll {completed : List CheckoutStep} {ctx : CheckoutContext}
    (hcalls : ∀ step ∈ completed, ∀ f, step.compensate = some f → Calls unpaying (f ctx)) :
    ∀ p ∈ completed.filterMap (fun step => step.compensate.map (· ctx)), Calls unpaying p := by
  intro p hp
  obtain ⟨step, hstep, hmap⟩ := List.mem_filterMap.mp hp
  obtain ⟨f, hf, rfl⟩ := Option.map_eq_some_iff.mp hmap
  exact hcalls step hstep f hf

/-- A workflow that is not complete leaves no payment open. -/
def Finished (n : ℕ) : Except Failure (WorkflowInstance CheckoutContext) → Shop → Prop
  | .ok result, t => result.status = .completed ∧ result.context.orderId.isSome = true ∨
      hasOpen n t = false
  | .error _, t => hasOpen n t = false

theorem tends_fail {completed : List CheckoutStep} {ctx : CheckoutContext} {message : String}
    {status : WorkflowStatus}
    (h : Tends n (fun _ t => hasOpen n t = false) (SagaCoordinator.compensateAll ctx completed) s)
    (hi : Tidy n s) :
    Tends n (Finished n) (SagaCoordinator.failAndCompensate ctx completed message status) s := by
  refine Holds.bind (Holds.mono ?_ h) hi
  rintro (e | u) t - ht
  · exact ht
  · exact fun t' ht' _ => .inr (closed_idle ht' ht)

theorem tends_fail_unpaid {completed : List CheckoutStep} {ctx : CheckoutContext} {message : String}
    {status : WorkflowStatus}
    (hcalls : ∀ step ∈ completed, ∀ f, step.compensate = some f → Calls unpaying (f ctx))
    (hi : Tidy n s) (hs : Unpaid n s) :
    Tends n (Finished n) (SagaCoordinator.failAndCompensate ctx completed message status) s :=
  tends_fail (tends_keep (fun _ _ => closed_idle)
    (Prog.Every.callAll (tends_compensateAll hcalls)) (closed_of_unpaid hs)) hi

theorem tends_fail_paid {completed : List CheckoutStep} {ctx : CheckoutContext} {message : String}
    {status : WorkflowStatus} {token : ℕ}
    (hcalls : ∀ step ∈ completed, ∀ f, step.compensate = some f → Calls unpaying (f ctx))
    (hvoid : ∃ step ∈ completed, step.compensate = some (voidPayment token))
    (hi : Tidy n s) (hs : Paid n ctx s) :
    Tends n (Finished n) (SagaCoordinator.failAndCompensate ctx completed message status) s := by
  have hall := tends_compensateAll hcalls
  refine tends_fail (Holds.callAll_gains (P := Paid n ctx) (fun _ _ => closed_idle)
    (fun p hp t _ ht => tends_keep (fun _ _ => Paid.idle) (hall p hp) ht)
    (fun p hp t _ ht => tends_keep (fun _ _ => closed_idle) (hall p hp) ht) ?_ hi hs) hi
  obtain ⟨step, hstep, hcomp⟩ := hvoid
  refine ⟨voidPayment token ctx, List.mem_filterMap.mpr ⟨step, hstep, by rw [hcomp]; rfl⟩, ?_⟩
  rintro t - ⟨-, id, hid, hsole⟩
  rw [voidPayment, hid]
  exact tends_voidOrCancel token hsole

theorem yields_createDraftOrder (cart : Cart) (items : List CartItem) {ctx : CheckoutContext}
    (hpay : ctx.paymentId = none) :
    (createDraftOrder cart items ctx).Yields fun patch => (patch ctx).paymentId = none := by
  refine Prog.yields_bind (fun order => ?_) _
  exact hpay

theorem yields_reserveInventory (token : ℕ) (items : List CartItem) {ctx : CheckoutContext}
    (hpay : ctx.paymentId = none) :
    (reserveInventory token items ctx).Yields fun patch => (patch ctx).paymentId = none := by
  refine Prog.yields_bind (fun ids => Prog.yields_bind (fun _ => ?_) _) _
  exact hpay

theorem yields_noPatch (p : ShopProg Unit) : (noPatch p).Yields fun patch => patch = id := by
  refine Prog.yields_bind (fun _ => ?_) _
  rfl

theorem tends_steps (cfg : PaymentConfig) (token deadline : ℕ) (cart : Cart) (items : List CartItem)
    {ctx : CheckoutContext} (hpay : ctx.paymentId = none) (hs : Unpaid n s) :
    Tends n (Finished n) (SagaCoordinator.runSteps deadline (steps cfg token cart items) [] ctx) s := by
  have hclock : ∀ name i t, (attended n).guar (Timed.deadline name) i t t := fun _ _ _ => trivial
  have hall : ∀ ctx, ∀ step ∈ steps cfg token cart items, ∀ f, step.compensate = some f →
      Calls unpaying (f ctx) := fun ctx =>
    calls_compensate (fun _ => unpaying_of_amending) (fun _ _ => rfl) cfg token cart items ctx
  have hpart : ∀ {completed : List CheckoutStep}, completed ⊆ steps cfg token cart items → ∀ ctx,
      ∀ step ∈ completed, ∀ f, step.compensate = some f → Calls unpaying (f ctx) :=
    fun hsub ctx step hstep => hall ctx step (hsub hstep)
  have hUnpaid : ∀ t t', Idle n t t' → Unpaid n t → Unpaid n t' := fun _ _ hidle h => h.idle hidle
  have hfail : ∀ {completed : List CheckoutStep}, completed ⊆ steps cfg token cart items →
      ∀ ctx message status t, Tidy n t → Unpaid n t → Tends n (Finished n)
        (SagaCoordinator.failAndCompensate ctx completed message status) t :=
    fun hsub ctx _ _ _ hi ht => tends_fail_unpaid (hpart hsub ctx) hi ht
  -- create_draft_order
  refine SagaCoordinator.holds_step hUnpaid hclock (fun t hi ht => tends_attempts hUnpaid
      ((calls_createDraftOrder _ _ _).mono fun _ => unpaying_of_amending)
      (yields_createDraftOrder cart items hpay) _ hi ht) ?_
    (fun _ _ _ hi ht _ => hfail (List.nil_subset _) _ _ _ _ hi ht) hs
  rintro patch t - ⟨hpay, ht⟩
  generalize patch ctx = ctx at hpay ⊢
  -- reserve_inventory
  refine SagaCoordinator.holds_step hUnpaid hclock (fun t hi ht => tends_attempts hUnpaid
      ((calls_reserveInventory _ _ _).mono fun _ => unpaying_of_quiet)
      (yields_reserveInventory token items hpay) _ hi ht) ?_
    (fun _ _ _ hi ht _ => hfail (by simp [steps]) _ _ _ _ hi ht) ht
  rintro patch t - ⟨-, ht⟩
  generalize patch ctx = ctx
  -- create_payment
  refine SagaCoordinator.holds_step hUnpaid hclock (R := fun patch t => Paid n (patch ctx) t)
    (fun t hi ht => SagaCoordinator.holds_retried (fun _ _ _ hidle h => h.idle hidle)
      (fun s hi hs => Holds.race_unfired (fun t i _ ho => ⟨trivial, ?_⟩) (tends_createPayment hi hs)) _ t hi ht)
    ?_ (fun _ _ _ hi ht _ => hfail (by simp [steps]) _ _ _ _ hi ht) ht
  · have hend : ("create_payment" != "create_payment" || !i.timer) = true := ho.1
    simpa using hend
  intro patch t _ hpaid
  generalize patch ctx = ctx at hpaid ⊢
  -- the rest
  have hPaid : ∀ t t', Idle n t t' → Paid n ctx t → Paid n ctx t' := fun _ _ => Paid.idle
  have hlast : ∀ {completed : List CheckoutStep}, completed ⊆ steps cfg token cart items →
      (∃ step ∈ completed, step.compensate = some (voidPayment token)) →
      ∀ message status t, Tidy n t → Paid n ctx t → Tends n (Finished n)
        (SagaCoordinator.failAndCompensate ctx completed message status) t :=
    fun hsub hvoid _ _ _ hi ht => tends_fail_paid (hpart hsub ctx) hvoid hi ht
  -- authorize_payment
  refine SagaCoordinator.holds_step hPaid hclock (fun t hi ht => tends_attempts hPaid
      ((calls_noPatch (calls_authorizeStep cfg token ctx)).mono fun _ => unpaying_of_amending)
      (yields_noPatch _) _ hi ht) ?_
    (fun _ _ _ hi ht _ => hlast (by simp [steps]) (by simp) _ _ _ hi ht) hpaid
  rintro patch t - ⟨rfl, hpaid⟩
  -- capture_payment
  refine SagaCoordinator.holds_step hPaid hclock (fun t hi ht => tends_attempts hPaid
      ((calls_noPatch (calls_captureStep cfg token ctx)).mono fun _ => unpaying_of_settling)
      (yields_noPatch _) _ hi ht) ?_
    (fun _ _ _ hi ht _ => hlast (by simp [steps]) (by simp) _ _ _ hi ht) hpaid
  rintro patch t - ⟨rfl, hpaid⟩
  -- confirm_order
  refine SagaCoordinator.holds_step hPaid hclock (fun t hi ht => tends_attempts hPaid
      (calls_noPatch (calls_confirmStep (fun _ => unpaying_of_amending) (fun _ => rfl) cfg ctx))
      (yields_noPatch _) _ hi ht) ?_
    (fun _ _ _ hi ht _ => hlast (by simp [steps]) (by simp) _ _ _ hi ht) hpaid
  rintro patch t - ⟨rfl, hpaid⟩
  exact Holds.done fun t ht _ => .inl ⟨rfl, hpaid.1⟩

/-! ### The checkout -/

/-- A checkout that throws leaves no payment open. -/
def Thrown {α : Type} (n : ℕ) : Except Failure α → Shop → Prop
  | .ok _, _ => True
  | .error _, t => hasOpen n t = false

theorem tends_concludeCheckout {result : WorkflowInstance CheckoutContext}
    (h : Finished n (.ok result) s) :
    Tends n (Thrown n) (concludeCheckout result) s := by
  refine Holds.ensureBind (fun _ => ?_) fun hstatus t ht _ => ?_
  · refine Holds.orThrowBind (fun orderId _ => ?_) fun hnone t ht _ => ?_
    · refine Holds.callBind fun t ht hi i ho => ⟨hi, trivial, ?_⟩
      cases hf : i.fails with
      | false => exact fun _ _ _ => trivial
      | true =>
        have hclosed : hasOpen n t = false := by
          by_contra hopen
          have hgo := ho.2.2 (by simpa using hopen)
          simp [passesVoid, hf] at hgo
        exact fun t' ht' _ => closed_idle ht' hclosed
    · rcases h with ⟨-, horder⟩ | hclosed
      · rw [hnone] at horder
        cases horder
      · exact closed_idle ht hclosed
  · rcases h with ⟨hcompleted, -⟩ | hclosed
    · exact (hstatus hcompleted).elim
    · exact closed_idle ht hclosed

theorem tends_placeOrder (cfg : PaymentConfig) (token userId : ℕ) (dto : CheckoutDto) (cart : Cart)
    (items : List CartItem) (hi : Tidy n s) (hs : Unpaid n s) :
    Tends n (Thrown n) (placeOrder cfg token userId dto cart items) s := by
  have hsteps : ∀ deadline t, Tidy n t → Idle n s t → Tends n (Finished n)
      (SagaCoordinator.runSteps deadline (steps cfg token cart items) []
        (contextOf userId dto cart items)) t :=
    fun deadline t _ ht => tends_steps cfg token deadline cart items rfl (hs.idle ht)
  refine Holds.bind (Holds.mono ?_ (SagaCoordinator.holds_run (fun _ _ _ => trivial) hsteps)) hi
  rintro (e | result) t - hfin
  · exact hfin
  · exact tends_concludeCheckout hfin

theorem tends_withLock {userId token : ℕ} {fn : ShopProg α} (hs : Unpaid n s)
    (hfn : ∀ t, Tidy n t → Unpaid n t → Tends n (Thrown n) fn t) :
    Tends n (Thrown n) (LockService.withLock (.checkout userId) token fn) s := by
  refine holds_atomicBind fun t ht hi i _ =>
    ⟨trivial, fun e t' _ ht' _ => closed_of_unpaid (hs.idle (ht.trans ht')), fun got u _ hu => ?_⟩
  have hidle : Idle n t u := by
    rcases LockService.take_cases (Except.ok.inj hu) with ⟨-, -, rfl⟩ | ⟨-, rfl⟩
    · exact .of_payments rfl
    · exact .refl n u
  have hsu : Unpaid n u := hs.idle (ht.trans hidle)
  refine ⟨hi.idle hidle, trivial, ?_⟩
  refine Holds.ensureBind (fun _ => ?_) fun _ t' ht' _ => closed_of_unpaid (hsu.idle ht')
  refine Holds.andFinally (Holds.mono (fun r v _ hr => ?_) (hfn u (hi.idle hidle) hsu)) (hi.idle hidle)
  refine Holds.call fun v' hv hvi i ho => ?_
  have hdrop : Idle n v' (LockService.drop ShopCall (ShopLock.checkout userId) token v') := by
    rcases LockService.drop_cases (L := ShopCall) (ShopLock.checkout userId) token v' with ⟨-, hd⟩ | hd
    · rw [hd]
      exact .of_payments rfl
    · rw [hd]
      exact .refl n v'
  have hkept : Thrown n r v' := by
    cases r with
    | ok a => trivial
    | error e => exact closed_idle hv hr
  cases hf : i.fails with
  | true =>
    have hclosed : hasOpen n v' = false := by
      by_contra hopen
      have hgo : (!i.fails) = true := ho.2.2 (by simpa using hopen)
      simp [hf] at hgo
    exact ⟨hvi, trivial, fun w hw _ => closed_idle hw hclosed⟩
  | false =>
    refine ⟨hvi.idle hdrop, trivial, fun w hw _ x hx _ => ?_⟩
    cases r with
    | ok a => trivial
    | error e => exact closed_idle (hdrop.trans (hw.trans hx)) hkept

theorem tends_checkout (cfg : PaymentConfig) (token userId : ℕ) (dto : CheckoutDto) (hs : Unpaid n s) :
    Tends n (Thrown n) (checkout cfg token userId dto) s := by
  refine tends_withLock hs fun t hi hs => ?_
  have hstay : ∀ t t', Idle n t t' → Unpaid n t → Unpaid n t' := fun _ _ hidle h => h.idle hidle
  refine Holds.bind (Holds.mono ?_ (tends_keep hstay
    ((calls_selectCart userId dto).mono fun _ => unpaying_of_quiet) hs)) hi
  rintro (e | found) t hi hs
  · exact closed_of_unpaid hs
  refine Holds.orThrowBind (fun cart _ => ?_) fun _ t' ht' _ => closed_of_unpaid (hs.idle ht')
  refine Holds.bind (Holds.mono ?_ (tends_keep hstay
    ((calls_validateTenders userId dto).mono fun _ => unpaying_of_quiet) hs)) hi
  rintro (e | u) t hi hs
  · exact closed_of_unpaid hs
  · exact tends_placeOrder cfg token userId dto cart.1 cart.2 hi hs

theorem unpaid_of_references (hfk : ∀ p ∈ s.payments.rows, (s.orders.find? p.orderId).isSome) :
    Unpaid s.orders.next s :=
  fun _ hp => orderId_lt_next hfk hp

theorem tidy_of_unpaid (h : Unpaid n s) : Tidy n s :=
  ⟨fun p hp _ _ hn _ => absurd (h p hp) (Nat.not_lt.mpr hn),
    fun p hp hn => absurd (h p hp) (Nat.not_lt.mpr hn)⟩

/-- In every run of a checkout whose created payments reach the workflow and whose voiding calls
go through, the orders of the run have at most one payment that is alive, at every moment; and
once the checkout has thrown without a capture, none. -/
theorem new_payments_closed (cfg : PaymentConfig) (token userId : ℕ) (dto : CheckoutDto) (s : Shop)
    (xs ys : List (ℕ × ShopInput))
    (hfk : ∀ p ∈ s.payments.rows, (s.orders.find? p.orderId).isSome)
    (hok : (checkoutPool cfg token userId dto s).Admits (Closes s.orders.next) (xs ++ ys)) :
    let thrown := (checkoutPool cfg token userId dto s).run xs
    let final := ((checkoutPool cfg token userId dto s).run (xs ++ ys)).state
    (∀ p ∈ final.payments.rows, ∀ q ∈ final.payments.rows, s.orders.next ≤ p.orderId →
        q.orderId = p.orderId → isAlive p.status = true → isAlive q.status = true → p = q) ∧
      (thrown.threads[0]?.any Prog.hasThrown = true →
        (∀ p ∈ thrown.state.payments.rows, s.orders.next ≤ p.orderId → p.capturedAt = none) →
        ∀ p ∈ final.payments.rows, s.orders.next ≤ p.orderId → isAlive p.status = false) := by
  have hunpaid := unpaid_of_references hfk
  have htends := tends_checkout cfg token userId dto hunpaid
  have hmain : ∀ l i t t', (attended s.orders.next).guar l i t t' → (abandoned s.orders.next).rely t t' :=
    fun _ _ _ _ _ => trivial
  have hchild : ∀ l i t t', (abandoned s.orders.next).guar l i t t' →
      (attended s.orders.next).rely t t' ∧ (abandoned s.orders.next).rely t t' :=
    fun _ _ _ _ h => ⟨h, trivial⟩
  intro thrown final
  constructor
  · have htidy : Tidy s.orders.next final :=
      (Pool.run_forked hmain hchild (tidy_of_unpaid hunpaid) htends hok).1
    intro p hp q hq hn horder _ _
    exact Table.eq_of_key_eq hp hq (htidy.single p hp q hq hn (horder ▸ hn))
  · intro hthrown huncaptured
    obtain ⟨q, hq, hthrew⟩ := (Option.any_eq_true _ _).mp hthrown
    obtain ⟨e, rfl⟩ := Prog.hasThrown_iff.mp hthrew
    have hclosed : hasOpen s.orders.next thrown.state = false :=
      (Pool.run_forked hmain hchild (tidy_of_unpaid hunpaid) htends
        (Pool.admits_append.mp hok).1).2 (.error e) hq
    have hrest : Idle s.orders.next thrown.state final :=
      Pool.forked_rest hmain hchild (Idle.refl _) Idle.trans (fun _ _ _ _ h => h)
        (tidy_of_unpaid hunpaid) htends hok hq
    refine hrest.all (fun _ _ hf hv => hf.void hv) fun p hp hn => ?_
    have hshut := hasOpen_eq_false.mp hclosed p hp hn
    simpa [isOpen, huncaptured p hp hn] using hshut

/-- The gateway refuses the capture: the workflow fails, and its payment is voided. -/
theorem new_payments_closed_refused :
    let pool := checkoutPool serverCapture 0 1 anyWarehouse oneLine
    ((pool.run refusedCapture).threads[0]?.any Prog.hasThrown = true ∧
        ((pool.run refusedCapture).state.payments.rows.map Payment.orderId) = [0]) ∧
      ∀ p ∈ (pool.run (refusedCapture ++ [])).state.payments.rows,
        oneLine.orders.next ≤ p.orderId → isAlive p.status = false :=
  ⟨⟨by decide +kernel, by decide +kernel⟩,
    (new_payments_closed serverCapture 0 1 anyWarehouse oneLine refusedCapture []
      (fun p hp => nomatch hp) (by decide +kernel)).2 (by decide +kernel) (by decide +kernel)⟩

/-- The audit entry is not stored, in both attempts: each had its payment written already. -/
def lostAudits : List (ℕ × ShopInput) :=
  answered 37 .authorized ++ [(0, { fails := true, reply := {} })] ++
    List.replicate 11 (0, { reply := { gatewayOrderId := "order_2" } }) ++
    [(0, { fails := true, reply := {} })] ++ answered 20 .cancelled

/-- The checkout throws, and its order keeps two pending payments. -/
theorem two_pending_payments :
    let pool := checkoutPool serverCapture 0 1 anyWarehouse oneLine
    (pool.run lostAudits).quiescent = true ∧
      (pool.run lostAudits).threads[0]?.any Prog.hasThrown = true ∧
      ((pool.run lostAudits).state.payments.rows.map fun p => (p.orderId, p.status, p.capturedAt)) =
        [(0, .pending, none), (0, .pending, none)] :=
  ⟨by decide +kernel, by decide +kernel, by decide +kernel⟩

end ElectronicsCart.Orders
