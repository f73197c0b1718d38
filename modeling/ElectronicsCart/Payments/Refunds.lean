import ElectronicsCart.Core.Alone
import ElectronicsCart.Shop.Effects

/-!
# What one refund does

`RefundService.refund`, run alone with any answers of the database and the gateway: what it may
have done to the payments, the refunds and the log of the gateway when it ends, and why it stopped
where it did.  The refund row is written before the gateway is asked, and the amount is recorded
in two further writes after its answer.
-/

namespace ElectronicsCart.Payments

open Interleaving Relational

structure Books where
  payments : Table Payment
  refunds : Table Refund
  log : List GatewayExchange

def books (s : Shop) : Books := ⟨s.payments, s.refunds, s.gatewayLog⟩

/-- The payment may be refunded by that amount and that actor. -/
structure Refundable (x actorId : ℕ) (dto : RefundPaymentDto) (asAdmin : Bool) (s : Shop)
    (p : Payment) : Prop where
  find : s.payments.find? x = some p
  live : p.deleted = false
  access : asAdmin = true ∨ p.customerId.all (· == actorId) = true
  status : p.status = .captured ∨ p.status = .partiallyRefunded
  amount : dto.amount ≤ remaining p + tolerance

/-- The constraints of `refund_items`. -/
def acceptsItem (orderItems : Table OrderItem) (item : RefundItemDto) : Bool :=
  item.orderItemId.all (fun id => (orderItems.find? id).isSome) && decide (0 ≤ item.amount) &&
    item.quantity.all fun q => fitsInt4 q && decide (0 < q)

def refundNumberFree (s : Shop) (i : ShopInput) : Bool :=
  s.refunds.rows.all fun r => r.deleted || r.refundNumber != ⟨i.now, i.reply.random % 1000⟩

/-- The calls between the answer of the gateway and the record of the refunded amount. -/
def recording : ShopCall → Bool
  | .payment (.updateRefund _ .processed) => true
  | .payment (.updateRefund _ .processing) => true
  | .payment (.createTransaction _) => true
  | .payment (.update _ _ (.refund _ _)) => true
  | _ => false

def itemizing : ShopCall → Bool
  | .payment (.createRefundItems _) => true
  | _ => false

section Reasons

variable (ok : ShopCall → ShopInput → Shop → Prop)

def MayFail (S : ShopCall → Bool) : Prop := ∃ l i t, ok l i t ∧ S l = true ∧ i.fails = true

/-- The gateway may throw. -/
def MayThrow : Prop := ∃ l i t, ok l i t ∧ i.reply.thrown ≠ none

def MayAnswer (status : GatewayStatus) : Prop :=
  ∃ gid amount number i t, ok (.payment (.gateway (.refund gid amount number))) i t ∧
    i.reply.thrown = none ∧ i.reply.status = status

/-- The number of a refund may be taken. -/
def MayClash : Prop :=
  ∃ id amount i t, ok (.payment (.createRefund id amount)) i t ∧ refundNumberFree t i = false

end Reasons

structure RowAdded (payment : Payment) (dto : RefundPaymentDto) (number : DocumentNumber)
    (T T' : Table Refund) : Prop where
  rows : ∀ r ∈ T'.rows, r ∈ T.rows ∨ r.refundNumber = number ∧ r.paymentId = payment.id
  row : ∃ r ∈ T'.rows, r.id = T.next ∧ r.refundNumber = number ∧ r.paymentId = payment.id ∧
    r.amount = dto.amount ∧
    r.refundType = if remaining payment - tolerance ≤ dto.amount then .full else .partially

section Outcome

variable (ok : ShopCall → ShopInput → Shop → Prop) (x actorId : ℕ) (dto : RefundPaymentDto)
  (asAdmin : Bool) (s : Shop)

inductive RefundSent : Except Failure Unit → Books → Prop
  /-- the amount was not recorded -/
  | unrecorded {e : Failure} {p : Payment} {gid : String} {number : DocumentNumber}
      {T : Table Refund} {answer : Option GatewayStatus} :
      Refundable x actorId dto asAdmin s p → truthy p.gatewayPaymentId = some gid →
      0 < dto.amount → RowAdded p dto number s.refunds T →
      (∀ status, answer = some status → MayAnswer ok status) →
      (answer = none ∧ MayThrow ok ∨ MayFail ok recording ∨
        ∃ now, validPayment s.payments (applyWrite now p (recordOf p dto.amount)) = false) →
      RefundSent (.error e)
        ⟨s.payments, T, s.gatewayLog ++ [⟨.refund gid dto.amount number, answer⟩]⟩
  /-- the amount was recorded -/
  | recorded {r : Except Failure Unit} {p : Payment} {gid : String} {number : DocumentNumber}
      {T : Table Refund} {answer : GatewayStatus} {now : ℕ} :
      Refundable x actorId dto asAdmin s p → truthy p.gatewayPaymentId = some gid →
      0 < dto.amount → RowAdded p dto number s.refunds T → MayAnswer ok answer →
      validPayment s.payments (applyWrite now p (recordOf p dto.amount)) = true →
      (r = .ok () ∨ MayFail ok fun _ => true) →
      RefundSent r
        ⟨s.payments.update x (applyWrite now · (recordOf p dto.amount)) (key_applyWrite now _), T,
          s.gatewayLog ++ [⟨.refund gid dto.amount number, some answer⟩]⟩

inductive RefundOutcome : Except Failure Unit → Books → Prop
  /-- nothing was written -/
  | refused {e : Failure} : (∀ p, Refundable x actorId dto asAdmin s p → MayFail ok (fun _ => true) ∨
      MayClash ok ∨ s.locks (.payment .refund x) ≠ none ∨
      (fitsNumeric14 dto.amount && decide (0 < dto.amount)) = false) →
      RefundOutcome (.error e) (books s)
  /-- the row was written, and the gateway not asked -/
  | unsent {e : Failure} {p : Payment} {number : DocumentNumber} {T : Table Refund} :
      Refundable x actorId dto asAdmin s p → RowAdded p dto number s.refunds T →
      (truthy p.gatewayPaymentId = none ∨ MayFail ok itemizing ∨
        dto.items.all (acceptsItem s.orderItems) = false) →
      RefundOutcome (.error e) ⟨s.payments, T, s.gatewayLog⟩
  | sent {r : Except Failure Unit} {b : Books} :
      RefundSent ok x actorId dto asAdmin s r b → RefundOutcome r b

end Outcome

/-! ### Calls beside the books -/

/-- The refund row `n` is kept with its number, amount and type; the rest is untouched. -/
structure Aside (n : ℕ) (s t : Shop) : Prop where
  payments : t.payments = s.payments
  log : t.gatewayLog = s.gatewayLog
  refunds : ∀ p dto number T, T.next = n → RowAdded p dto number T s.refunds →
    RowAdded p dto number T t.refunds
  rmaRequests : t.rmaRequests = s.rmaRequests
  orderItems : t.orderItems = s.orderItems
  locks : t.locks = s.locks

theorem Aside.refl (n : ℕ) (s : Shop) : Aside n s s :=
  ⟨rfl, rfl, fun _ _ _ _ _ h => h, rfl, rfl, rfl⟩

theorem Aside.trans {n : ℕ} {a b c : Shop} (h : Aside n a b) (h' : Aside n b c) : Aside n a c :=
  ⟨h'.payments.trans h.payments, h'.log.trans h.log,
    fun p dto number T hn hr => h'.refunds p dto number T hn (h.refunds p dto number T hn hr),
    h'.rmaRequests.trans h.rmaRequests, h'.orderItems.trans h.orderItems, h'.locks.trans h.locks⟩

section Calls

variable {ok : ShopCall → ShopInput → Shop → Prop} {S : ShopCall → Bool} {n : ℕ} {s : Shop}

/-- What a call beside the books leaves: it ended well, or one of its labels may fail. -/
def Passed (ok : ShopCall → ShopInput → Shop → Prop) (S : ShopCall → Bool) (n : ℕ) (s : Shop)
    (r : Except Failure Unit) (t : Shop) : Prop :=
  Aside n s t ∧ (r = .ok () ∨ MayFail ok S)

theorem passed_atomic {l : ShopCall} {f : ShopInput → Shop → Except Failure (Unit × Shop)}
    (hl : S l = true) (h : ∀ i, ∃ u, f i s = .ok ((), u) ∧ Aside n s u) :
    Alone ok (Passed ok S n s) (atomic l f) s := by
  refine Alone.atomic (fun i b u _ _ hu => ?_) fun i e ho he => ?_
  · obtain ⟨u', hu', haside⟩ := h i
    rw [hu] at hu'
    cases hu'
    exact ⟨haside, .inl rfl⟩
  · rcases he with hf | he
    · exact ⟨.refl n s, .inr ⟨l, i, s, ho, hl, hf⟩⟩
    · obtain ⟨u', hu', -⟩ := h i
      rw [he] at hu'
      cases hu'

theorem passed_createTransaction {id : ℕ} {type : PaymentTxType} {amount : ℚ}
    {reference : Option String} (hl : S (.payment (.createTransaction id)) = true) :
    Alone ok (Passed ok S n s) (createTransaction id type amount reference) s :=
  passed_atomic hl fun _ => ⟨_, rfl, rfl, rfl, fun _ _ _ _ _ h => h, rfl, rfl, rfl⟩

theorem passed_audit {id : ℕ} {action : String} {actorId : Option ℕ} {a b : Option PaymentStatus}
    (hl : S (.payment (.createAudit id action)) = true) :
    Alone ok (Passed ok S n s) (audit id action actorId a b) s :=
  passed_atomic hl fun _ => ⟨_, rfl, rfl, rfl, fun _ _ _ _ _ h => h, rfl, rfl, rfl⟩

theorem passed_createEvent {id : ℕ} {event : String}
    (hl : S (.payment (.createEvent id event)) = true) :
    Alone ok (Passed ok S n s) (createEvent id event) s :=
  passed_atomic hl fun _ => ⟨_, rfl, rfl, rfl, fun _ _ _ _ _ h => h, rfl, rfl, rfl⟩

theorem passed_enqueue (hl : S (.payment .enqueue) = true) :
    Alone ok (Passed ok S n s) enqueue s :=
  passed_atomic hl fun _ => ⟨s, rfl, .refl n s⟩

theorem RowAdded.amend {payment : Payment} {dto : RefundPaymentDto} {number : DocumentNumber}
    {T T' : Table Refund} {now : ℕ} {status : RefundStatus} {gatewayRefundId reason : Option String}
    (h : RowAdded payment dto number T T') :
    RowAdded payment dto number T (T'.update T.next (amendRefund status gatewayRefundId reason now)
      (key_amendRefund status gatewayRefundId reason now)) := by
  have hkey := key_amendRefund status gatewayRefundId reason now
  refine ⟨fun r hr => ?_, ?_⟩
  · obtain ⟨a, ha, rfl⟩ := (Table.mem_update hkey).mp hr
    split
    next hid =>
      refine .inr ((h.rows a ha).resolve_left fun hold => ?_)
      have hlt := T.fresh a hold
      omega
    · exact h.rows a ha
  · obtain ⟨a, ha, hrow⟩ := h.row
    refine ⟨_, (Table.mem_update hkey).mpr ⟨a, ha, rfl⟩, ?_⟩
    split <;> exact hrow

theorem writeRefund_eq {id now : ℕ} {status : RefundStatus} {gatewayRefundId reason : Option String}
    {row : Refund} (hrow : s.refunds.find? id = some row) :
    writeRefund id status gatewayRefundId reason now s = .ok ((), { s with
      refunds := s.refunds.update id (amendRefund status gatewayRefundId reason now)
        (key_amendRefund status gatewayRefundId reason now) }) := by
  simp [writeRefund, existing, hrow, bind, Except.bind, pure, Except.pure]

theorem passed_updateRefund {status : RefundStatus} {gatewayRefundId reason : Option String}
    {row : Refund} (hl : S (.payment (.updateRefund n status)) = true)
    (hrow : s.refunds.find? n = some row) :
    Alone ok (Passed ok S n s) (updateRefund n status gatewayRefundId reason) s := by
  refine passed_atomic hl fun i => ⟨_, writeRefund_eq hrow, rfl, rfl, ?_, rfl, rfl, rfl⟩
  rintro p dto number T rfl h
  exact h.amend

end Calls

/-! ### The gateway -/

/-- What lies outside the books. -/
structure Frame (s t : Shop) : Prop where
  rmaRequests : t.rmaRequests = s.rmaRequests
  orderItems : t.orderItems = s.orderItems
  locks : t.locks = s.locks

theorem Frame.refl (s : Shop) : Frame s s := ⟨rfl, rfl, rfl⟩

theorem Frame.trans {a b c : Shop} (h : Frame a b) (h' : Frame b c) : Frame a c :=
  ⟨h'.rmaRequests.trans h.rmaRequests, h'.orderItems.trans h.orderItems, h'.locks.trans h.locks⟩

theorem Aside.frame {n : ℕ} {s t : Shop} (h : Aside n s t) : Frame s t :=
  ⟨h.rmaRequests, h.orderItems, h.locks⟩

section Gateway

variable {ok : ShopCall → ShopInput → Shop → Prop} {x actorId : ℕ} {dto : RefundPaymentDto}
  {asAdmin : Bool} {s t : Shop} {p : Payment} {gid : String} {refund : Refund}

theorem RefundSent.aside {e e' : Failure} {t' : Shop}
    (h : RefundSent ok x actorId dto asAdmin s (.error e) (books t)) (ha : Aside s.refunds.next t t') :
    RefundSent ok x actorId dto asAdmin s (.error e') (books t') := by
  obtain ⟨b, hb⟩ : ∃ b, b = books t := ⟨_, rfl⟩
  have hbooks : books t' = ⟨b.payments, t'.refunds, b.log⟩ := by
    rw [hb, books, ha.payments, ha.log]
    rfl
  have hrows : ∀ p number, RowAdded p dto number s.refunds b.refunds →
      RowAdded p dto number s.refunds t'.refunds := by
    intro p number hr
    rw [hb] at hr
    exact ha.refunds p dto number s.refunds rfl hr
  rw [← hb] at h
  rw [hbooks]
  cases h with
  | unrecorded hp hgid hpos hrow hans hwhy =>
    exact .unrecorded hp hgid hpos (hrows _ _ hrow) hans hwhy
  | recorded hp hgid hpos hrow hans hvalid hwhy =>
    exact .recorded hp hgid hpos (hrows _ _ hrow) hans hvalid
      (.inr (hwhy.resolve_left fun h => nomatch h))

theorem RowAdded.find {payment : Payment} {number : DocumentNumber} {T T' : Table Refund}
    (h : RowAdded payment dto number T T') : ∃ row, T'.find? T.next = some row := by
  obtain ⟨row, hmem, hid, -⟩ := h.row
  exact ⟨row, Table.find?_eq_some_iff.mpr ⟨hmem, hid⟩⟩

theorem RefundSent.find {r : Except Failure Unit} {b : Books}
    (h : RefundSent ok x actorId dto asAdmin s r b) :
    ∃ row, b.refunds.find? s.refunds.next = some row := by
  cases h with
  | unrecorded _ _ _ hrow _ _ => exact hrow.find
  | recorded _ _ _ hrow _ _ _ => exact hrow.find

structure Asking (x actorId : ℕ) (dto : RefundPaymentDto) (asAdmin : Bool) (s t : Shop) (p : Payment)
    (gid : String) (refund : Refund) : Prop where
  refundable : Refundable x actorId dto asAdmin s p
  gid : truthy p.gatewayPaymentId = some gid
  positive : 0 < dto.amount
  payments : t.payments = s.payments
  log : t.gatewayLog = s.gatewayLog
  row : RowAdded p dto refund.refundNumber s.refunds t.refunds
  id : refund.id = s.refunds.next

theorem Refundable.id (h : Refundable x actorId dto asAdmin s p) : p.id = x :=
  (Table.find?_mem h.find).2

theorem writePayment_error {id now : ℕ} {write : PaymentWrite} {e : Failure}
    (hp : s.payments.find? id = some p) (h : writePayment id write now s = .error e) :
    validPayment s.payments (applyWrite now p write) = false := by
  by_contra hvalid
  rw [Bool.not_eq_false] at hvalid
  simp [writePayment, existing, hp, check, demand, hvalid, bind, Except.bind, pure, Except.pure] at h

theorem writePayment_ok {id now : ℕ} {write : PaymentWrite} {q : Payment} {u : Shop}
    (hp : s.payments.find? id = some p) (h : writePayment id write now s = .ok (q, u)) :
    validPayment s.payments (applyWrite now p write) = true ∧ u = { s with
      payments := s.payments.update id (applyWrite now · write) (key_applyWrite now write) } := by
  simp only [writePayment, bind_eq_ok, existing_eq_ok, check_eq_ok, pure_eq_ok, Prod.mk.injEq] at h
  obtain ⟨p', hp', -, hvalid, -, rfl⟩ := h
  obtain rfl := Option.some.inj (hp.symm.trans hp')
  exact ⟨hvalid, rfl⟩

theorem sent_record {u : Shop} {number : DocumentNumber} {answer : GatewayStatus}
    (hp : Refundable x actorId dto asAdmin s p) (hgid : truthy p.gatewayPaymentId = some gid)
    (hpos : 0 < dto.amount) (hrow : RowAdded p dto number s.refunds u.refunds)
    (hans : MayAnswer ok answer) (hpay : u.payments = s.payments)
    (hlog : u.gatewayLog = s.gatewayLog ++ [⟨.refund gid dto.amount number, some answer⟩]) :
    Alone ok (fun r t' => RefundSent ok x actorId dto asAdmin s r (books t') ∧ Frame u t')
      (recordRefund p actorId dto.amount) u := by
  have hfind : u.payments.find? p.id = some p := by rw [hpay, hp.id, hp.find]
  refine Alone.atomicBind (fun i b v _ _ hv => ?_) fun i e ho he => ?_
  · obtain ⟨hvalid, rfl⟩ := writePayment_ok hfind hv
    rw [hpay] at hvalid
    have hdone : ∀ r t', Passed ok (fun _ => true) s.refunds.next { u with
        payments := u.payments.update p.id (applyWrite i.now · (recordOf p dto.amount))
          (key_applyWrite i.now _) } r t' →
        RefundSent ok x actorId dto asAdmin s r (books t') ∧ Frame u t' := by
      rintro r t' ⟨ha, hr⟩
      refine ⟨?_, ha.frame.rmaRequests, ha.frame.orderItems, ha.frame.locks⟩
      have hbooks : books t' = ⟨s.payments.update x (applyWrite i.now · (recordOf p dto.amount))
          (key_applyWrite i.now _), t'.refunds,
          s.gatewayLog ++ [⟨.refund gid dto.amount number, some answer⟩]⟩ := by
        rw [books, ha.payments, ha.log, hlog, ← hp.id]
        simp only [hpay]
      rw [hbooks]
      exact .recorded hp hgid hpos (ha.refunds _ _ _ _ rfl hrow) hans hvalid hr
    refine Alone.bind (passed_audit rfl) (fun _ t ht => ?_) fun e t ht => hdone _ t ht
    refine Alone.mono (fun r t' ht' => hdone r t' ⟨ht.1.trans ht'.1, ht'.2⟩) (passed_createEvent rfl)
  · have hbooks : books u = ⟨s.payments, u.refunds,
        s.gatewayLog ++ [⟨.refund gid dto.amount number, some answer⟩]⟩ := by
      rw [books, hpay, hlog]
    refine ⟨?_, .refl u⟩
    rw [hbooks]
    refine .unrecorded hp hgid hpos hrow (fun _ h => Option.some.inj h ▸ hans)
      (.inr (he.imp (fun hf => ?_) fun he => ⟨i.now, ?_⟩))
    · exact ⟨_, i, u, ho, rfl, hf⟩
    · rw [← hpay]
      exact writePayment_error hfind he

theorem sent_refundWithGateway (h : Asking x actorId dto asAdmin s t p gid refund) :
    Alone ok (fun r t' => RefundSent ok x actorId dto asAdmin s r (books t') ∧ Frame t t')
      (refundWithGateway p gid refund actorId dto.amount) t := by
  have hunrecorded : ∀ e answer u, u.payments = s.payments →
      u.gatewayLog = s.gatewayLog ++ [⟨.refund gid dto.amount refund.refundNumber, answer⟩] →
      RowAdded p dto refund.refundNumber s.refunds u.refunds →
      (∀ status, answer = some status → MayAnswer ok status) →
      (answer = none ∧ MayThrow ok ∨ MayFail ok recording) →
      RefundSent ok x actorId dto asAdmin s (.error e) (books u) := by
    intro e answer u hpay hlog hrow hans hwhy
    have hbooks : books u = ⟨s.payments, u.refunds,
        s.gatewayLog ++ [⟨.refund gid dto.amount refund.refundNumber, answer⟩]⟩ := by
      rw [books, hpay, hlog]
    rw [hbooks]
    exact .unrecorded h.refundable h.gid h.positive hrow hans (hwhy.imp_right .inl)
  refine Alone.callBind fun i ho => ?_
  cases hthrown : i.reply.thrown with
  | some error =>
    refine ⟨fun b hb => (nomatch hb), fun e _ => ⟨?_, rfl, rfl, rfl⟩⟩
    refine hunrecorded e none _ h.payments (by rw [← h.log]) h.row
      (fun _ h => (nomatch h)) (.inl ⟨rfl, _, i, t, ho, ?_⟩)
    rw [hthrown]
    exact Option.some_ne_none _
  | none =>
    refine ⟨fun gw hgw => ?_, fun e he => (nomatch he)⟩
    cases hgw
    have hans : MayAnswer ok i.reply.status := ⟨_, _, _, i, t, ho, hthrown, rfl⟩
    have hans' : ∀ status, some i.reply.status = some status → MayAnswer ok status :=
      fun _ h => Option.some.inj h ▸ hans
    obtain ⟨row, hfind⟩ := h.row.find
    rw [h.id]
    have hlog : ∀ u n, Aside n { t with gatewayLog := t.gatewayLog ++
        [⟨.refund gid dto.amount refund.refundNumber, some i.reply.status⟩] } u →
        u.gatewayLog = s.gatewayLog ++
          [⟨.refund gid dto.amount refund.refundNumber, some i.reply.status⟩] := fun u n ha => by
      rw [ha.log, ← h.log]
    refine Alone.bind (passed_updateRefund (n := s.refunds.next) (S := recording) ?_ hfind) ?_ ?_
    · split <;> rfl
    · rintro _ u ⟨ha, -⟩
      refine Alone.bind (passed_createTransaction (n := s.refunds.next) (S := recording) rfl) ?_ ?_
      · rintro _ v ⟨ha', -⟩
        have ha'' := ha.trans ha'
        refine Alone.mono (fun r t' ht' => ⟨ht'.1, ?_⟩) (sent_record h.refundable h.gid h.positive
          (ha''.refunds _ _ _ _ rfl h.row) hans (ha''.payments.trans h.payments) (hlog v _ ha''))
        exact Frame.trans ⟨ha''.rmaRequests, ha''.orderItems, ha''.locks⟩ ht'.2
      · rintro e v ⟨ha', hwhy⟩
        have ha'' := ha.trans ha'
        refine ⟨?_, ha''.rmaRequests, ha''.orderItems, ha''.locks⟩
        exact hunrecorded e _ v (ha''.payments.trans h.payments) (hlog v _ ha'')
          (ha''.refunds _ _ _ _ rfl h.row) hans' (.inr (hwhy.resolve_left fun h => nomatch h))
    · rintro e u ⟨ha, hwhy⟩
      refine ⟨?_, ha.rmaRequests, ha.orderItems, ha.locks⟩
      exact hunrecorded e _ u (ha.payments.trans h.payments) (hlog u _ ha)
        (ha.refunds _ _ _ _ rfl h.row) hans' (.inr (hwhy.resolve_left fun h => nomatch h))

/-! ### The whole call -/

theorem insertRefund_ok {now random : ℕ} {r : Refund} {u : Shop}
    (h : insertRefund p actorId dto now random t = .ok (r, u)) :
    r = newRefund p actorId dto ⟨now, random % 1000⟩ t.refunds.next ∧ 0 < dto.amount ∧
      u = { t with refunds := t.refunds.insert (newRefund p actorId dto ⟨now, random % 1000⟩) } := by
  simp only [insertRefund, bind_eq_ok, check_eq_ok, pure_eq_ok, Prod.mk.injEq, Bool.and_eq_true,
    decide_eq_true_eq] at h
  obtain ⟨-, -, -, ⟨-, hpos⟩, rfl, rfl⟩ := h
  exact ⟨rfl, hpos, rfl⟩

theorem insertRefund_error {i : ShopInput} {e : Failure}
    (h : insertRefund p actorId dto i.now i.reply.random t = .error e) :
    refundNumberFree t i = false ∨ (fitsNumeric14 dto.amount && decide (0 < dto.amount)) = false := by
  by_contra hnot
  rw [not_or, Bool.not_eq_false, Bool.not_eq_false] at hnot
  obtain ⟨hfree, hamount⟩ := hnot
  rw [refundNumberFree] at hfree
  simp [insertRefund, check, demand, hfree, hamount, bind, Except.bind, pure, Except.pure] at h

theorem rowAdded_insert {number : DocumentNumber} {T : Table Refund} :
    RowAdded p dto number T (T.insert (newRefund p actorId dto number) fun _ => rfl) := by
  have hmk : ∀ n, key (newRefund p actorId dto number n) = n := fun _ => rfl
  refine ⟨fun r hr => ?_, _, (Table.mem_insert hmk).mpr (.inr rfl), rfl, rfl, rfl, rfl, rfl⟩
  rcases (Table.mem_insert hmk).mp hr with hr | rfl
  · exact .inl hr
  · exact .inr ⟨rfl, rfl⟩

theorem insertRefundItems_cases (refundId : ℕ) (items : List RefundItemDto) (t : Shop) :
    (∃ T, insertRefundItems refundId items t = .ok { t with refundItems := T }) ∨
      (∃ e, insertRefundItems refundId items t = .error e) ∧
        items.all (acceptsItem t.orderItems) = false := by
  induction items generalizing t with
  | nil => exact .inl ⟨_, rfl⟩
  | cons item items ih =>
    cases hitem : acceptsItem t.orderItems item with
    | false =>
      refine .inr ⟨⟨.constraint "refund_items", ?_⟩, by simp [hitem]⟩
      rw [acceptsItem] at hitem
      simp only [insertRefundItems, check, demand, hitem, Bool.false_eq_true, if_false, bind, Except.bind]
    | true =>
      have hstep : insertRefundItems refundId (item :: items) t =
          insertRefundItems refundId items { t with refundItems := t.refundItems.insert fun n =>
            ⟨n, refundId, item.orderItemId, item.amount, item.quantity⟩ } := by
        rw [acceptsItem] at hitem
        simp only [insertRefundItems, check, demand, hitem, if_true, bind, Except.bind]
      rw [hstep, List.all_cons, hitem, Bool.true_and]
      exact ih _

theorem passed_createRefundItems {n refundId : ℕ} (items : List RefundItemDto) :
    Alone ok (fun r t' => Aside n t t' ∧ (r = .ok () ∨ MayFail ok itemizing ∨
      items.all (acceptsItem t.orderItems) = false)) (createRefundItems refundId items) t := by
  unfold createRefundItems
  split
  · exact Alone.done ⟨.refl n t, .inl rfl⟩
  rcases insertRefundItems_cases refundId items t with ⟨T, hT⟩ | ⟨⟨e', he'⟩, hno⟩
  · refine Alone.atomic (fun i b u _ _ hu => ?_) fun i e ho he => ⟨.refl n t, .inr (.inl ?_)⟩
    · simp only [hT, bind_eq_ok, Except.ok.injEq, pure_eq_ok, Prod.mk.injEq, exists_eq_left'] at hu
      obtain ⟨-, rfl⟩ := hu
      exact ⟨⟨rfl, rfl, fun _ _ _ _ _ h => h, rfl, rfl, rfl⟩, .inl rfl⟩
    · refine ⟨_, i, t, ho, rfl, he.resolve_right fun he => ?_⟩
      simp [hT, bind, Except.bind, pure, Except.pure] at he
  · refine Alone.atomic (fun i b u _ _ hu => ?_) fun i e _ _ => ⟨.refl n t, .inr (.inr hno)⟩
    simp [he', bind, Except.bind] at hu

theorem outcome_refundPayment (hp : Refundable x actorId dto asAdmin s p) (hb : books t = books s)
    (hitems : t.orderItems = s.orderItems) :
    Alone ok (fun r t' => RefundOutcome ok x actorId dto asAdmin s r (books t') ∧ Frame t t')
      (refundPayment p actorId dto) t := by
  have hpay : t.payments = s.payments := congrArg Books.payments hb
  have hrefunds : t.refunds = s.refunds := congrArg Books.refunds hb
  have hlog : t.gatewayLog = s.gatewayLog := congrArg Books.log hb
  refine Alone.atomicBind (fun i refund u _ _ hu => ?_) fun i e ho he => ?_
  · obtain ⟨rfl, hpos, rfl⟩ := insertRefund_ok hu
    let number : DocumentNumber := ⟨i.now, i.reply.random % 1000⟩
    have hrow : RowAdded p dto number s.refunds
        (t.refunds.insert (newRefund p actorId dto number)) := by
      rw [hrefunds]
      exact rowAdded_insert
    have hunsent : ∀ e t', Aside s.refunds.next { t with
        refunds := t.refunds.insert (newRefund p actorId dto number) } t' →
        (truthy p.gatewayPaymentId = none ∨ MayFail ok itemizing ∨
          dto.items.all (acceptsItem s.orderItems) = false) →
        RefundOutcome ok x actorId dto asAdmin s (.error e) (books t') ∧ Frame t t' := by
      intro e t' ha hwhy
      refine ⟨?_, ha.rmaRequests, ha.orderItems, ha.locks⟩
      have hbooks : books t' = ⟨s.payments, t'.refunds, s.gatewayLog⟩ := by
        rw [books, ha.payments, ha.log, ← hpay, ← hlog]
      rw [hbooks]
      exact .unsent hp (ha.refunds _ _ _ _ rfl hrow) hwhy
    refine Alone.bind (passed_createRefundItems (n := s.refunds.next) dto.items) ?_ ?_
    · rintro _ v ⟨ha, -⟩
      refine Alone.orThrowBind (fun gid hgid => ?_) fun hnone => hunsent _ v ha (.inl hnone)
      have hask : Asking x actorId dto asAdmin s v p gid
          (newRefund p actorId dto number t.refunds.next) :=
        ⟨hp, hgid, hpos, ha.payments.trans hpay, ha.log.trans hlog, ha.refunds _ _ _ _ rfl hrow,
          congrArg Table.next hrefunds⟩
      have hframe : Frame t v := ⟨ha.rmaRequests, ha.orderItems, ha.locks⟩
      refine Alone.tryCatch (sent_refundWithGateway hask)
        (fun _ t' h => ⟨.sent h.1, hframe.trans h.2⟩) fun e t' h => ?_
      obtain ⟨row, hrow'⟩ := h.1.find
      have hid : (newRefund p actorId dto number t.refunds.next).id = s.refunds.next :=
        congrArg Table.next hrefunds
      have hend : ∀ e' t'', Aside s.refunds.next t' t'' →
          RefundOutcome ok x actorId dto asAdmin s (.error e') (books t'') ∧ Frame t t'' :=
        fun e' t'' ha' => ⟨.sent (h.1.aside ha'), hframe.trans (h.2.trans ha'.frame)⟩
      rw [hid]
      refine Alone.bind (passed_updateRefund (n := s.refunds.next) (S := fun _ => true) rfl hrow')
        (fun _ t'' ht'' => ?_) fun e' t'' ht'' => hend e' t'' ht''.1
      refine Alone.bind (passed_enqueue (n := s.refunds.next) (S := fun _ => true) rfl)
        (fun _ t₃ ht₃ => Alone.done (hend e t₃ (ht''.1.trans ht₃.1))) fun e' t₃ ht₃ => ?_
      exact hend e' t₃ (ht''.1.trans ht₃.1)
    · rintro e v ⟨ha, hwhy⟩
      exact hunsent e v ha (.inr (hitems ▸ hwhy.resolve_left fun h => nomatch h))
  · refine ⟨?_, .refl t⟩
    rw [hb]
    refine .refused fun _ _ => ?_
    rcases he with hf | he
    · exact .inl ⟨_, i, t, ho, rfl, hf⟩
    · rcases insertRefund_error he with hclash | hbad
      · exact .inr (.inl ⟨_, _, i, t, ho, hclash⟩)
      · exact .inr (.inr (.inr hbad))

theorem RefundOutcome.rejected {r : Except Failure Unit} {b : Books} {e : Failure}
    (h : RefundOutcome ok x actorId dto asAdmin s r b) (hfail : MayFail ok fun _ => true) :
    RefundOutcome ok x actorId dto asAdmin s (.error e) b := by
  cases h with
  | refused hwhy => exact .refused hwhy
  | unsent hp hrow hwhy => exact .unsent hp hrow hwhy
  | sent h =>
    cases h with
    | unrecorded hp hgid hpos hrow hans hwhy =>
      exact .sent (.unrecorded hp hgid hpos hrow hans hwhy)
    | recorded hp hgid hpos hrow hans hvalid _ =>
      exact .sent (.recorded hp hgid hpos hrow hans hvalid (.inr hfail))

theorem outcome_section (hb : books t = books s) (hitems : t.orderItems = s.orderItems) :
    Alone ok (fun r t' => RefundOutcome ok x actorId dto asAdmin s r (books t') ∧ Frame t t') (do
      let payment ← requirePayment (some .refund) x
      assertCanAccess asAdmin payment.customerId actorId
      Prog.ensure (payment.status = .captured ∨ payment.status = .partiallyRefunded)
        (.throwApp .conflict "Only captured payments can be refunded" 409)
      Prog.ensure (dto.amount ≤ remaining payment + tolerance) (refundExceeds payment)
      refundPayment payment actorId dto) t := by
  have hpay : t.payments = s.payments := congrArg Books.payments hb
  have hrefused : ∀ e, (∀ p, Refundable x actorId dto asAdmin s p → MayFail ok fun _ => true) →
      RefundOutcome ok x actorId dto asAdmin s (.error e) (books t) ∧ Frame t t := by
    intro e hwhy
    rw [hb]
    exact ⟨.refused fun p hp => .inl (hwhy p hp), .refl t⟩
  simp only [requirePayment, findById, Prog.bind_eq, Prog.bind_assoc]
  refine Alone.queryBind (fun i _ _ => ?_) fun i ho hf => hrefused _ fun _ _ => ⟨_, i, t, ho, rfl, hf⟩
  have hfilter : ∀ p, Refundable x actorId dto asAdmin s p →
      (t.payments.find? x).filter (fun p => !p.deleted) = some p := by
    intro p hp
    rw [hpay, hp.find]
    simp [hp.live]
  refine Alone.orThrowBind (fun payment hfind => ?_) fun hnone => hrefused _ fun p hp => ?_
  · have hsame : ∀ p, Refundable x actorId dto asAdmin s p → p = payment := fun p hp =>
      Option.some.inj ((hfilter p hp).symm.trans hfind)
    obtain ⟨hf, hlive⟩ := Option.filter_eq_some_iff.mp hfind
    refine Alone.ensureBind (fun haccess => ?_) fun hno => hrefused _ fun p hp =>
      (hno (hsame p hp ▸ hp.access)).elim
    refine Alone.ensureBind (fun hstatus => ?_) fun hno => hrefused _ fun p hp =>
      (hno (hsame p hp ▸ hp.status)).elim
    refine Alone.ensureBind (fun hamount => ?_) fun hno => hrefused _ fun p hp =>
      (hno (hsame p hp ▸ hp.amount)).elim
    exact outcome_refundPayment ⟨hpay ▸ hf, by simpa using hlive, haccess, hstatus, hamount⟩ hb hitems
  · rw [hfilter p hp] at hnone
    cases hnone

theorem outcome_refund (token x actorId : ℕ) (dto : RefundPaymentDto) (asAdmin : Bool) (s : Shop) :
    Alone ok (fun r t => RefundOutcome ok x actorId dto asAdmin s r (books t) ∧
        t.rmaRequests = s.rmaRequests ∧ t.orderItems = s.orderItems ∧
        (t.locks = s.locks ∨ MayFail ok fun _ => true))
      (Payments.refund token x actorId dto asAdmin) s := by
  let lock : ShopLock := .payment .refund x
  let taken : LockStore ShopLock := Function.update s.locks lock (some token)
  refine Alone.withLock (R := fun r t => RefundOutcome ok x actorId dto asAdmin s r (books t) ∧
    t.rmaRequests = s.rmaRequests ∧ t.orderItems = s.orderItems ∧
    s.locks lock = none ∧ t.locks = taken) ?_ ?_ ?_ ?_
  · intro e i ho hbusy
    refine ⟨.refused fun _ _ => ?_, rfl, rfl, .inl rfl⟩
    rcases hbusy with hf | hlocked
    · exact .inl ⟨_, i, s, ho, rfl, hf⟩
    · exact .inr (.inr (.inl hlocked))
  · intro hfree
    refine Alone.mono (fun r t ht => ?_)
      (outcome_section (s := s) (t := { s with locks := taken }) rfl rfl)
    exact ⟨ht.1, ht.2.rmaRequests, ht.2.orderItems, hfree, ht.2.locks⟩
  · rintro r t ⟨hout, hrma, hitems, hfree, hlocks⟩
    have hdrop : LockService.drop ShopCall lock token t = { t with locks := s.locks } := by
      have hback : Function.update taken lock none = s.locks := by
        rw [Function.update_idem, ← hfree, Function.update_eq_self]
      have hown : t.locks lock = some token := by
        rw [hlocks]
        exact Function.update_self lock (some token) s.locks
      simp only [LockService.drop, Lockable.locks, hown, if_true, Lockable.setLocks]
      rw [hlocks, hback]
    rw [hdrop]
    exact ⟨hout, hrma, hitems, .inl rfl⟩
  · rintro r i t ⟨hout, hrma, hitems, -, -⟩ ho hf
    have hfail : MayFail ok fun _ => true := ⟨_, i, t, ho, rfl, hf⟩
    exact ⟨hout.rejected hfail, hrma, hitems, .inr hfail⟩

end Gateway

end ElectronicsCart.Payments
