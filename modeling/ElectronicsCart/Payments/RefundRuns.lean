import ElectronicsCart.Payments.Refunds
import Mathlib.Algebra.Order.BigOperators.Group.List
import Mathlib.Algebra.Order.Field.Rat
import Mathlib.Tactic.Linarith

/-!
# Sequences of refunds

Refund calls on one payment, each finished before the next.  The amounts of the API have two
decimals, so the tolerance of the comparisons never decides one of them.
-/

namespace ElectronicsCart.Payments

open Interleaving Relational

structure RefundRequest where
  token : ℕ
  actorId : ℕ
  dto : RefundPaymentDto
  asAdmin : Bool
deriving DecidableEq, Repr

def RefundRequest.prog (x : ℕ) (q : RefundRequest) : ShopProg Unit :=
  refund q.token x q.actorId q.dto q.asAdmin

/-! ### Amounts with two decimals -/

def Cents (a : ℚ) : Prop := ∃ n : ℤ, a * 100 = n

theorem Cents.add {a b : ℚ} (ha : Cents a) (hb : Cents b) : Cents (a + b) := by
  obtain ⟨m, hm⟩ := ha
  obtain ⟨n, hn⟩ := hb
  refine ⟨m + n, ?_⟩
  push_cast
  linarith

theorem Cents.le {a b : ℚ} (ha : Cents a) (hb : Cents b) (h : a ≤ b + tolerance) : a ≤ b := by
  obtain ⟨m, hm⟩ := ha
  obtain ⟨n, hn⟩ := hb
  have htol : tolerance = 1 / 1000 := rfl
  have hlt : (m : ℚ) < n + 1 := by linarith
  have hle : m ≤ n := by
    have : m < n + 1 := by exact_mod_cast hlt
    omega
  have hle' : (m : ℚ) ≤ n := by exact_mod_cast hle
  linarith

/-! ### The payment between two refunds -/

/-- The payment after refunds: only the refunded amount and the status have changed. -/
def refundedTo (p : Payment) (a : ℚ) (status : PaymentStatus) : Payment :=
  { p with refundedAmount := a, status := status }

/-- Payment `x` is `p` with `a` refunded, and keeps the constraints of its table. -/
structure Account (x : ℕ) (p : Payment) (a : ℚ) (status : PaymentStatus) (s : Shop) : Prop where
  find : s.payments.find? x = some (refundedTo p a status)
  valid : validPayment s.payments (refundedTo p a status) = true
  cents : Cents a

section Account

variable {x now : ℕ} {p : Payment} {a b : ℚ} {status : PaymentStatus} {s t : Shop}

theorem Account.le_amount (h : Account x p a status s) : 0 ≤ a ∧ a ≤ p.amount := by
  have hvalid := h.valid
  simp only [validPayment, refundedTo, Bool.and_eq_true] at hvalid
  exact ⟨of_decide_eq_true hvalid.1.2, of_decide_eq_true hvalid.2⟩

theorem Account.same (h : Account x p a status s) (hp : t.payments = s.payments) :
    Account x p a status t :=
  ⟨hp ▸ h.find, hp ▸ h.valid, h.cents⟩

theorem Account.accepts (h : Account x p a status s) (hb : 0 ≤ b) (hle : a + b ≤ p.amount) :
    validPayment s.payments
      (applyWrite now (refundedTo p a status) (recordOf (refundedTo p a status) b)) = true := by
  have hvalid := h.valid
  obtain ⟨ha, -⟩ := h.le_amount
  simp only [validPayment, refundedTo, recordOf, applyWrite, Bool.and_eq_true] at hvalid ⊢
  exact ⟨⟨hvalid.1.1, decide_eq_true (add_nonneg ha hb)⟩, decide_eq_true hle⟩

theorem valid_update {T : Table Payment} {write : PaymentWrite} {q : Payment}
    (hq : T.find? x = some q) (h : validPayment T (applyWrite now q write) = true) :
    validPayment (T.update x (applyWrite now · write) (key_applyWrite now write))
      (applyWrite now q write) = true := by
  have hid : key (applyWrite now q write) = x := by
    rw [key_applyWrite]
    exact (Table.find?_mem hq).2
  simp only [validPayment, Bool.and_eq_true, Bool.or_eq_true, List.all_eq_true] at h ⊢
  refine ⟨⟨h.1.1.imp_right fun hall r hr => ?_, h.1.2⟩, h.2⟩
  obtain ⟨c, hc, rfl⟩ := (Table.mem_update (key_applyWrite now write)).mp hr
  split
  next hkey =>
    have hsame : key (applyWrite now c write) = key (applyWrite now q write) := by
      rw [key_applyWrite, hkey, hid]
    exact .inl (.inl (beq_iff_eq.mpr hsame))
  · exact hall c hc

theorem Account.record (h : Account x p a status s) (hb : Cents b)
    (hvalid : validPayment s.payments
      (applyWrite now (refundedTo p a status) (recordOf (refundedTo p a status) b)) = true)
    (hp : t.payments = s.payments.update x
      (applyWrite now · (recordOf (refundedTo p a status) b)) (key_applyWrite now _)) :
    Account x p (a + b) (refundedStatus (refundedTo p a status) b) t := by
  refine ⟨?_, ?_, h.cents.add hb⟩
  · rw [hp]
    exact Table.find?_update_self (r := refundedTo p a status) (key_applyWrite now _) h.find
  · rw [hp]
    exact valid_update (q := refundedTo p a status) h.find hvalid

end Account

/-! ### The gateway's total -/

/-- What one exchange refunded, unless the gateway reported it as failed. -/
def exchanged (gid : String) (e : GatewayExchange) : ℚ :=
  match e.request, e.answer with
  | .refund id amount _, some status => if id = gid ∧ status ≠ .failed then amount else 0
  | _, _ => 0

def gatewayRefunded (gid : String) (s : Shop) : ℚ := (s.gatewayLog.map (exchanged gid)).sum

theorem gatewayRefunded_append {gid : String} {s t : Shop} {e : GatewayExchange}
    (h : t.gatewayLog = s.gatewayLog ++ [e]) :
    gatewayRefunded gid t = gatewayRefunded gid s + exchanged gid e := by
  simp [gatewayRefunded, h]

/-! ### No more than the amount -/

/-- No call between the answer of the gateway and the record of the refund fails, and none that
stores the items of a refund. -/
def Reliable (l : ShopCall) (i : ShopInput) (_ : Shop) : Prop :=
  (recording l || itemizing l) = true → i.fails = false

instance (l : ShopCall) (i : ShopInput) (s : Shop) : Decidable (Reliable l i s) :=
  inferInstanceAs (Decidable ((recording l || itemizing l) = true → i.fails = false))

theorem reliable_mayFail {S : ShopCall → Bool} (hS : ∀ l, S l = true → (recording l || itemizing l) = true)
    (h : MayFail Reliable S) : False := by
  obtain ⟨l, i, t, hok, hl, hf⟩ := h
  rw [hok (hS l hl)] at hf
  cases hf

/-- The request has two decimals, and the database takes its items. -/
def WellFormed (s : Shop) (q : RefundRequest) : Prop :=
  Cents q.dto.amount ∧ q.dto.items.all (acceptsItem s.orderItems) = true

def Asked (gid : String) (s : Shop) (row : Refund) : Prop :=
  ∃ amount answer, ⟨.refund gid amount row.refundNumber, answer⟩ ∈ s.gatewayLog

structure Tracked (x : ℕ) (p : Payment) (gid : String) (s t : Shop) : Prop where
  account : ∃ a status, Account x p a status t ∧ gatewayRefunded gid t ≤ a
  orderItems : t.orderItems = s.orderItems
  asked : ∀ row ∈ t.refunds.rows, row ∈ s.refunds.rows ∨ Asked gid t row

theorem Asked.append {gid : String} {s t : Shop} {row : Refund} {e : List GatewayExchange}
    (h : Asked gid s row) (hlog : t.gatewayLog = s.gatewayLog ++ e) : Asked gid t row := by
  obtain ⟨amount, answer, hmem⟩ := h
  exact ⟨amount, answer, hlog ▸ List.mem_append_left e hmem⟩

section Tracked

variable {x : ℕ} {p : Payment} {gid : String} {s t u : Shop} {q : RefundRequest}
  {r : Except Failure Unit}

theorem tracked_rows {number : DocumentNumber} {payment : Payment} {dto : RefundPaymentDto}
    {answer : Option GatewayStatus} (h : Tracked x p gid s t)
    (hrow : RowAdded payment dto number t.refunds u.refunds)
    (hlog : u.gatewayLog = t.gatewayLog ++ [⟨.refund gid dto.amount number, answer⟩]) :
    ∀ row ∈ u.refunds.rows, row ∈ s.refunds.rows ∨ Asked gid u row := by
  intro row hmem
  rcases hrow.rows row hmem with hold | ⟨hnum, -⟩
  · exact (h.asked row hold).imp_right fun ha => ha.append hlog
  · refine .inr ⟨dto.amount, answer, ?_⟩
    rw [hlog, hnum]
    exact List.mem_append_right _ (List.mem_singleton.mpr rfl)

theorem exchanged_le {number : DocumentNumber} {amount : ℚ} {answer : Option GatewayStatus}
    (h : 0 ≤ amount) : exchanged gid ⟨.refund gid amount number, answer⟩ ≤ amount := by
  cases answer with
  | none => exact h
  | some status =>
    simp only [exchanged, true_and]
    split
    · exact le_refl _
    · exact h

theorem Tracked.step (hp : truthy p.gatewayPaymentId = some gid) (hcents : Cents p.amount)
    (hq : WellFormed s q) (h : Tracked x p gid s t) (hr : Pool.Ran Reliable (q.prog x) t r u) :
    Tracked x p gid s u := by
  obtain ⟨a, status, hacc, hle⟩ := h.account
  obtain ⟨hout, -, hitems, -⟩ := ran_alone (outcome_refund _ _ _ _ _ t) hr
  obtain ⟨b, hb⟩ : ∃ b, books u = b := ⟨_, rfl⟩
  have hpay : u.payments = b.payments := congrArg Books.payments hb
  have hrefunds : u.refunds = b.refunds := congrArg Books.refunds hb
  have hlog : u.gatewayLog = b.log := congrArg Books.log hb
  have hone : ∀ p', Refundable x q.actorId q.dto q.asAdmin t p' → p' = refundedTo p a status :=
    fun p' hp' => Option.some.inj (hp'.find.symm.trans hacc.find)
  rw [hb] at hout
  cases hout with
  | refused _ =>
    refine ⟨⟨a, status, hacc.same hpay, ?_⟩, hitems.trans h.orderItems, fun row hmem => ?_⟩
    · rw [gatewayRefunded, hlog]
      exact hle
    · rw [hrefunds] at hmem
      refine (h.asked row hmem).imp_right fun ha => ha.append (e := []) ?_
      rw [hlog, List.append_nil]
      rfl
  | unsent hp' hrow hwhy =>
    obtain rfl := hone _ hp'
    rcases hwhy with hnone | hfail | hrefused
    · exact absurd (hnone.symm.trans hp) (by simp)
    · exact (reliable_mayFail (fun l hl => by simp [hl]) hfail).elim
    · rw [h.orderItems, hq.2] at hrefused
      cases hrefused
  | sent hsent =>
    cases hsent with
    | unrecorded hp' hgid hpos hrow _ hwhy =>
      obtain rfl := hone _ hp'
      obtain rfl := Option.some.inj (hp.symm.trans hgid)
      have hfits : a + q.dto.amount ≤ p.amount := by
        refine (hacc.cents.add hq.1).le hcents ?_
        have hamount := hp'.amount
        simp only [remaining, refundedTo] at hamount
        linarith
      rcases hwhy with ⟨rfl, -⟩ | hfail | ⟨now, hinvalid⟩
      · refine ⟨⟨a, status, hacc.same hpay, ?_⟩, hitems.trans h.orderItems, ?_⟩
        · rw [gatewayRefunded_append hlog]
          simpa [exchanged] using hle
        · exact tracked_rows h (by rw [hrefunds]; exact hrow) hlog
      · exact (reliable_mayFail (fun l hl => by simp [hl]) hfail).elim
      · rw [hacc.accepts hpos.le hfits] at hinvalid
        cases hinvalid
    | recorded hp' hgid hpos hrow _ hvalid _ =>
      obtain rfl := hone _ hp'
      obtain rfl := Option.some.inj (hp.symm.trans hgid)
      refine ⟨⟨_, _, hacc.record hq.1 hvalid hpay, ?_⟩, hitems.trans h.orderItems, ?_⟩
      · rw [gatewayRefunded_append hlog]
        exact add_le_add hle (exchanged_le hpos.le)
      · exact tracked_rows h (by rw [hrefunds]; exact hrow) hlog

end Tracked

/-- In every sequence of refunds in which the calls are reliable, the gateway refunds no more than
the amount of the payment, and every row that is left in processing was asked for. -/
theorem refunds_tracked (x : ℕ) (p : Payment) (gid : String) (s s' : Shop)
    (calls : List (RefundRequest × Except Failure Unit)) (hp : s.payments.find? x = some p)
    (hvalid : validPayment s.payments p = true) (hgid : truthy p.gatewayPaymentId = some gid)
    (hcents : Cents p.amount ∧ Cents p.refundedAmount) (hpast : gatewayRefunded gid s ≤ p.refundedAmount)
    (hcalls : ∀ c ∈ calls, WellFormed s c.1)
    (h : Pool.History Reliable (RefundRequest.prog x) s calls s') :
    gatewayRefunded gid s' ≤ p.amount ∧
      ∀ row ∈ s'.refunds.rows, row ∉ s.refunds.rows → row.status = .processing → Asked gid s' row := by
  have hstart : Tracked x p gid s s :=
    ⟨⟨p.refundedAmount, p.status, ⟨hp, hvalid, hcents.2⟩, hpast⟩, rfl, fun _ h => .inl h⟩
  have hend : Tracked x p gid s s' := by
    refine h.invariant (P := fun calls t => (∀ c ∈ calls, WellFormed s c.1) → Tracked x p gid s t)
      (fun _ => hstart) ?_ hcalls
    intro calls t q r u ih hr hwf
    refine Tracked.step hgid hcents.1 (hwf (q, r) (by simp)) (ih fun c hc => ?_) hr
    exact hwf c (List.mem_append_left _ hc)
  obtain ⟨a, status, hacc, hle⟩ := hend.account
  exact ⟨hle.trans hacc.le_amount.2, fun row hmem hnew _ => (hend.asked row hmem).resolve_left hnew⟩

def captured100 : Shop where
  payments := Table.empty.insert fun n =>
    { id := n, orderId := 0, customerId := some 1, gatewayId := 0, gatewayPaymentId := some "pay_1",
      amount := 100, status := .captured }

def refundOf (amount : ℚ) : RefundRequest := ⟨0, 2, { amount }, true⟩

/-- `n` calls of a refund at that time, with a gateway that answers so. -/
def refunding (now n : ℕ) (status : GatewayStatus) : List ShopInput :=
  List.replicate n { now, reply := { status, gatewayRefundId := "rfnd_1" } }

theorem cents_natCast (n : ℕ) : Cents n := ⟨n * 100, by push_cast; rfl⟩

theorem wellFormed_refundOf (s : Shop) (n : ℕ) : WellFormed s (refundOf n) := ⟨cents_natCast n, rfl⟩

theorem wellFormed_pair (s : Shop) (m n : ℕ) (r r' : Except Failure Unit) :
    ∀ c ∈ [(refundOf m, r)] ++ [(refundOf n, r')], WellFormed s c.1 := by
  simp only [List.cons_append, List.nil_append, List.forall_mem_cons]
  exact ⟨wellFormed_refundOf s m, wellFormed_refundOf s n, fun _ h => (nomatch h)⟩

def afterRefund (q : RefundRequest) (inputs : List ShopInput) (s : Shop) : Shop :=
  (Pool.solo (q.prog 0) s inputs).state

theorem history_snoc {ok : ShopCall → ShopInput → Shop → Prop} {s t : Shop}
    {calls : List (RefundRequest × Except Failure Unit)} (q : RefundRequest)
    (r : Except Failure Unit) (inputs : List ShopInput)
    (h : Pool.History ok (RefundRequest.prog 0) s calls t)
    (hok : Pool.SoloAdmits ok (q.prog 0) t inputs)
    (hr : (Pool.solo (q.prog 0) t inputs).result? = some r) :
    Pool.History ok (RefundRequest.prog 0) s (calls ++ [(q, r)]) (afterRefund q inputs t) :=
  h.snoc ⟨inputs, hok, hr, rfl⟩

/-- Refunds of 40 and of 60. -/
theorem refunds_tracked_two :
    gatewayRefunded "pay_1" (afterRefund (refundOf (60 : ℕ)) (refunding 2 10 .processed)
        (afterRefund (refundOf (40 : ℕ)) (refunding 1 10 .processed) captured100)) = 100 ∧
      gatewayRefunded "pay_1" (afterRefund (refundOf (60 : ℕ)) (refunding 2 10 .processed)
        (afterRefund (refundOf (40 : ℕ)) (refunding 1 10 .processed) captured100)) ≤ 100 := by
  refine ⟨by decide +kernel, ?_⟩
  have hfirst : Pool.History Reliable (RefundRequest.prog 0) captured100 [(refundOf (40 : ℕ), .ok ())]
      (afterRefund (refundOf (40 : ℕ)) (refunding 1 10 .processed) captured100) :=
    history_snoc _ _ _ .nil (by decide +kernel) (by decide +kernel)
  have hboth := history_snoc (refundOf (60 : ℕ)) (.ok ()) (refunding 2 10 .processed) hfirst
    (by decide +kernel) (by decide +kernel)
  refine (refunds_tracked 0 _ "pay_1" captured100 _ _ rfl (by decide +kernel) (by decide +kernel)
    ⟨cents_natCast 100, cents_natCast 0⟩ (by decide +kernel) (wellFormed_pair _ 40 60 _ _) hboth).1

/-- The gateway answers, and the next write of the database is lost. -/
def lostRecord : List ShopInput :=
  refunding 1 4 .processed ++ [{ fails := true, reply := {} }] ++ refunding 1 3 .processed

/-- After a lost record the same 100 are refunded again. -/
theorem refunded_twice_after_failure :
    ¬ ∀ calls s', (∀ c ∈ calls, WellFormed captured100 c.1) →
      Pool.History (fun _ _ _ => True) (RefundRequest.prog 0) captured100 calls s' →
      gatewayRefunded "pay_1" s' ≤ 100 ∧ ∀ row ∈ s'.refunds.rows, row ∉ captured100.refunds.rows →
        row.status = .processing → Asked "pay_1" s' row := by
  intro h
  have hfirst : Pool.History (fun _ _ _ => True) (RefundRequest.prog 0) captured100
      [(refundOf (100 : ℕ), .error .database)] (afterRefund (refundOf (100 : ℕ)) lostRecord captured100) :=
    history_snoc _ _ _ .nil (by decide +kernel) (by decide +kernel)
  have hboth := history_snoc (refundOf (100 : ℕ)) (.ok ()) (refunding 2 10 .processed) hfirst
    (by decide +kernel) (by decide +kernel)
  have htotal : gatewayRefunded "pay_1" (afterRefund (refundOf (100 : ℕ)) (refunding 2 10 .processed)
      (afterRefund (refundOf (100 : ℕ)) lostRecord captured100)) = 200 := by decide +kernel
  obtain ⟨hle, -⟩ := h _ _ (wellFormed_pair _ 100 100 _ _) hboth
  rw [htotal] at hle
  exact absurd hle (by decide +kernel)

/-! ### Refunds without a failure -/

/-- No call fails, the gateway does not throw, and no refund number is drawn twice. -/
def Faultless (l : ShopCall) (i : ShopInput) (t : Shop) : Prop :=
  i.fails = false ∧ i.reply.thrown = none ∧
    match l with
    | .payment (.createRefund _ _) => refundNumberFree t i = true
    | _ => True

instance (l : ShopCall) (i : ShopInput) (t : Shop) : Decidable (Faultless l i t) := by
  unfold Faultless
  refine @instDecidableAnd _ _ _ (@instDecidableAnd _ _ _ ?_)
  split <;> infer_instance

theorem faultless_mayFail {S : ShopCall → Bool} (h : MayFail Faultless S) : False := by
  obtain ⟨l, i, t, hok, -, hf⟩ := h
  rw [hok.1] at hf
  cases hf

theorem faultless_mayThrow (h : MayThrow Faultless) : False := by
  obtain ⟨l, i, t, hok, hthrown⟩ := h
  exact hthrown hok.2.1

theorem faultless_mayClash (h : MayClash Faultless) : False := by
  obtain ⟨id, amount, i, t, hok, hclash⟩ := h
  rw [hok.2.2] at hclash
  cases hclash

def statusFor (total a : ℚ) : PaymentStatus :=
  if a = 0 then .captured else if a = total then .refunded else .partiallyRefunded

def acceptedTotal (calls : List (RefundRequest × Except Failure Unit)) : ℚ :=
  (calls.map fun c => match c.2 with
    | .ok _ => c.1.dto.amount
    | .error _ => 0).sum

/-- A request of an actor who may make it, for at least 0.01. -/
structure Permitted (s : Shop) (p : Payment) (q : RefundRequest) : Prop where
  wellFormed : WellFormed s q
  amount : 1 / 100 ≤ q.dto.amount
  access : q.asAdmin = true ∨ p.customerId.all (· == q.actorId) = true

/-- A payment that was captured through the gateway and not refunded yet. -/
structure Capture (x : ℕ) (p : Payment) (s : Shop) : Prop where
  find : s.payments.find? x = some p
  live : p.deleted = false
  status : p.status = .captured
  refunded : p.refundedAmount = 0
  valid : validPayment s.payments p = true
  gid : truthy p.gatewayPaymentId ≠ none
  positive : 0 < p.amount
  cents : Cents p.amount
  fits : fitsNumeric14 p.amount = true
  free : s.locks (.payment .refund x) = none

/-- The state after the calls: what was accepted is recorded. -/
structure Exact (x : ℕ) (p : Payment) (s : Shop) (a : ℚ) (t : Shop) : Prop where
  account : Account x p a (statusFor p.amount a) t
  orderItems : t.orderItems = s.orderItems
  locks : t.locks = s.locks

section Exact

variable {x : ℕ} {p : Payment} {s t u : Shop} {q : RefundRequest} {r : Except Failure Unit} {a : ℚ}

theorem tolerance_nonneg : 0 ≤ tolerance := by
  unfold tolerance
  positivity

theorem status_of_lt (h : a < p.amount) :
    statusFor p.amount a = .captured ∨ statusFor p.amount a = .partiallyRefunded := by
  unfold statusFor
  split
  · exact .inl rfl
  · rw [if_neg h.ne]
    exact .inr rfl

theorem Exact.refundable (hp : Capture x p s) (h : Exact x p s a t) (hq : Permitted s p q)
    (hfits : a + q.dto.amount ≤ p.amount) :
    Refundable x q.actorId q.dto q.asAdmin t (refundedTo p a (statusFor p.amount a)) := by
  have hamount := hq.amount
  have htol := tolerance_nonneg
  refine ⟨h.account.find, hp.live, hq.access, status_of_lt (by linarith), ?_⟩
  change q.dto.amount ≤ p.amount - a + tolerance
  linarith

theorem fitsNumeric14_of_le {a b : ℚ} (h : fitsNumeric14 b = true) (ha : 0 < a) (hle : a ≤ b) :
    (fitsNumeric14 a && decide (0 < a)) = true := by
  have hb := of_decide_eq_true h
  rw [Bool.and_eq_true]
  refine ⟨decide_eq_true ⟨?_, ?_⟩, decide_eq_true ha⟩
  · exact lt_trans (by norm_num) ha
  · exact lt_of_le_of_lt hle hb.2

theorem statusFor_record (hp : Capture x p s) (h : Exact x p s a t) (hq : Permitted s p q)
    (hfits : a + q.dto.amount ≤ p.amount) :
    refundedStatus (refundedTo p a (statusFor p.amount a)) q.dto.amount =
      statusFor p.amount (a + q.dto.amount) := by
  have hamount := hq.amount
  obtain ⟨ha, -⟩ := h.account.le_amount
  have hne : a + q.dto.amount ≠ 0 := by linarith
  have htol := tolerance_nonneg
  have hstatus : statusFor p.amount (a + q.dto.amount) =
      if a + q.dto.amount = p.amount then .refunded else .partiallyRefunded := if_neg hne
  rw [hstatus, refundedStatus]
  by_cases hfull : a + q.dto.amount = p.amount
  · rw [if_pos hfull, if_pos]
    change p.amount - tolerance ≤ a + q.dto.amount
    linarith
  · rw [if_neg hfull, if_neg]
    intro hle
    have hle' : p.amount - tolerance ≤ a + q.dto.amount := hle
    exact hfull (le_antisymm hfits
      (hp.cents.le (h.account.cents.add hq.wellFormed.1) (by linarith)))

theorem Exact.step (hp : Capture x p s) (h : Exact x p s a t) (hq : Permitted s p q)
    (hr : Pool.Ran Faultless (q.prog x) t r u) :
    (a + q.dto.amount ≤ p.amount ∧ r = .ok () ∧ Exact x p s (a + q.dto.amount) u ∧
        ∃ number, RowAdded (refundedTo p a (statusFor p.amount a)) q.dto number t.refunds u.refunds) ∨
      (p.amount < a + q.dto.amount ∧ (∃ e, r = .error e) ∧ Exact x p s a u) := by
  obtain ⟨hout, -, hitems, hlocks⟩ := ran_alone (outcome_refund _ _ _ _ _ t) hr
  have hlocks' : u.locks = s.locks := (hlocks.resolve_right faultless_mayFail).trans h.locks
  have hitems' : u.orderItems = s.orderItems := hitems.trans h.orderItems
  obtain ⟨b, hb⟩ : ∃ b, books u = b := ⟨_, rfl⟩
  have hpay : u.payments = b.payments := congrArg Books.payments hb
  have hrefunds : u.refunds = b.refunds := congrArg Books.refunds hb
  have hpos : 0 < q.dto.amount := lt_of_lt_of_le (by norm_num) hq.amount
  obtain ⟨ha, -⟩ := h.account.le_amount
  have hone : ∀ p', Refundable x q.actorId q.dto q.asAdmin t p' →
      p' = refundedTo p a (statusFor p.amount a) :=
    fun p' hp' => Option.some.inj (hp'.find.symm.trans h.account.find)
  have hfits : ∀ p', Refundable x q.actorId q.dto q.asAdmin t p' → a + q.dto.amount ≤ p.amount := by
    intro p' hp'
    obtain rfl := hone p' hp'
    refine (h.account.cents.add hq.wellFormed.1).le hp.cents ?_
    have hamount : q.dto.amount ≤ p.amount - a + tolerance := hp'.amount
    linarith
  rw [hb] at hout
  cases hout with
  | refused hwhy =>
    refine .inr ⟨?_, ⟨_, rfl⟩, h.account.same hpay, hitems', hlocks'⟩
    by_contra hle
    rw [not_lt] at hle
    rcases hwhy _ (h.refundable hp hq hle) with hfail | hclash | hlocked | hbad
    · exact faultless_mayFail hfail
    · exact faultless_mayClash hclash
    · rw [h.locks] at hlocked
      exact hlocked hp.free
    · rw [fitsNumeric14_of_le hp.fits hpos (by linarith)] at hbad
      cases hbad
  | unsent hp' _ hwhy =>
    obtain rfl := hone _ hp'
    rcases hwhy with hnone | hfail | hrefused
    · exact (hp.gid hnone).elim
    · exact (faultless_mayFail hfail).elim
    · rw [h.orderItems, hq.wellFormed.2] at hrefused
      cases hrefused
  | sent hsent =>
    cases hsent with
    | unrecorded hp' _ _ _ _ hwhy =>
      have hle := hfits _ hp'
      obtain rfl := hone _ hp'
      rcases hwhy with ⟨-, hthrow⟩ | hfail | ⟨now, hinvalid⟩
      · exact (faultless_mayThrow hthrow).elim
      · exact (faultless_mayFail hfail).elim
      · rw [h.account.accepts hpos.le hle] at hinvalid
        cases hinvalid
    | recorded hp' _ _ hrow _ hvalid hres =>
      have hle := hfits _ hp'
      obtain rfl := hone _ hp'
      have hacc := h.account.record hq.wellFormed.1 hvalid hpay
      rw [statusFor_record hp h hq hle] at hacc
      refine .inl ⟨hle, hres.resolve_right faultless_mayFail, ⟨hacc, hitems', hlocks'⟩, ?_⟩
      rw [hrefunds]
      exact ⟨_, hrow⟩

theorem statusFor_refunded (hp : 0 < p.amount) :
    statusFor p.amount a = .refunded ↔ a = p.amount := by
  unfold statusFor
  split
  next h => exact ⟨fun h => (nomatch h), fun ha => absurd (h.symm.trans ha) hp.ne⟩
  next =>
    split
    next h => exact ⟨fun _ => h, fun _ => rfl⟩
    next h => exact ⟨fun h => (nomatch h), fun ha => (h ha).elim⟩

theorem statusFor_partiallyRefunded (h : 0 ≤ a ∧ a ≤ p.amount) :
    statusFor p.amount a = .partiallyRefunded ↔ 0 < a ∧ a < p.amount := by
  unfold statusFor
  split
  next hzero => exact ⟨fun h => (nomatch h), fun ha => (ha.1.ne' hzero).elim⟩
  next hzero =>
    split
    next hfull => exact ⟨fun h => (nomatch h), fun ha => (ha.2.ne hfull).elim⟩
    next hfull =>
      exact ⟨fun _ => ⟨lt_of_le_of_ne h.1 (Ne.symm hzero), lt_of_le_of_ne h.2 hfull⟩, fun _ => rfl⟩

theorem refundType_full (hp : Capture x p s) (h : Exact x p s a t) (hq : Permitted s p q)
    (hfits : a + q.dto.amount ≤ p.amount) :
    (if remaining (refundedTo p a (statusFor p.amount a)) - tolerance ≤ q.dto.amount then
      RefundType.full else .partially) = .full ↔ a + q.dto.amount = p.amount := by
  have htol := tolerance_nonneg
  have hremaining : remaining (refundedTo p a (statusFor p.amount a)) = p.amount - a := rfl
  rw [hremaining]
  constructor
  · intro htype
    refine le_antisymm hfits (hp.cents.le (h.account.cents.add hq.wellFormed.1) ?_)
    split at htype
    next hle => linarith
    next => cases htype
  · intro hfull
    rw [if_pos]
    linarith

theorem exact_of_history {calls : List (RefundRequest × Except Failure Unit)} (hp : Capture x p s)
    (h : Pool.History Faultless (RefundRequest.prog x) s calls t)
    (hcalls : ∀ c ∈ calls, Permitted s p c.1) : Exact x p s (acceptedTotal calls) t := by
  refine h.invariant
    (P := fun calls t => (∀ c ∈ calls, Permitted s p c.1) → Exact x p s (acceptedTotal calls) t)
    (fun _ => ?_) ?_ hcalls
  · have hstart : refundedTo p 0 (statusFor p.amount 0) = p := by
      rw [statusFor, if_pos rfl, ← hp.status, ← hp.refunded]
      rfl
    refine ⟨⟨?_, ?_, ⟨0, by simp [acceptedTotal]⟩⟩, rfl, rfl⟩
    · exact hp.find.trans (congrArg some hstart.symm)
    · change validPayment s.payments (refundedTo p 0 (statusFor p.amount 0)) = true
      rw [hstart]
      exact hp.valid
  · intro calls t q r u ih hr hall
    have hex := ih fun c hc => hall c (List.mem_append_left _ hc)
    have htotal : acceptedTotal (calls ++ [(q, r)]) = acceptedTotal calls + acceptedTotal [(q, r)] := by
      simp [acceptedTotal]
    rcases hex.step hp (hall (q, r) (by simp)) hr with ⟨-, rfl, hnext, -⟩ | ⟨-, ⟨e, rfl⟩, hnext⟩
    · have hone : acceptedTotal [(q, .ok ())] = q.dto.amount := by simp [acceptedTotal]
      rw [htotal, hone]
      exact hnext
    · have hzero : acceptedTotal [(q, .error e)] = 0 := by simp [acceptedTotal]
      rw [htotal, hzero, add_zero]
      exact hnext

end Exact

/-- After every sequence of refunds without a failure the payment records what was accepted, its
status follows the total, and the next refund is accepted exactly when it fits. -/
theorem refunds_exact (x : ℕ) (p : Payment) (s s' : Shop)
    (calls : List (RefundRequest × Except Failure Unit)) (hp : Capture x p s)
    (hcalls : ∀ c ∈ calls, Permitted s p c.1)
    (h : Pool.History Faultless (RefundRequest.prog x) s calls s') :
    ∃ p', s'.payments.find? x = some p' ∧ p'.amount = p.amount ∧
      p'.refundedAmount = acceptedTotal calls ∧ p'.refundedAmount ≤ p.amount ∧
      (p'.status = .refunded ↔ p'.refundedAmount = p.amount) ∧
      (p'.status = .partiallyRefunded ↔ 0 < p'.refundedAmount ∧ p'.refundedAmount < p.amount) ∧
      ∀ q r u, Permitted s p q → Pool.Ran Faultless (q.prog x) s' r u →
        ((∃ e, r = .error e) ↔ p.amount < p'.refundedAmount + q.dto.amount) ∧
        (r = .ok () → ∃ row ∈ u.refunds.rows, row.id = s'.refunds.next ∧ row.paymentId = x ∧
          row.amount = q.dto.amount ∧
          (row.refundType = .full ↔ p'.refundedAmount + q.dto.amount = p.amount)) := by
  have hex := exact_of_history hp h hcalls
  refine ⟨_, hex.account.find, rfl, rfl, hex.account.le_amount.2, statusFor_refunded hp.positive,
    statusFor_partiallyRefunded hex.account.le_amount, fun q r u hq hr => ?_⟩
  rcases hex.step hp hq hr with ⟨hle, rfl, -, number, hrow⟩ | ⟨hlt, ⟨e, rfl⟩, -⟩
  · refine ⟨⟨?_, fun hlt => absurd hle (not_le.mpr hlt)⟩, fun _ => ?_⟩
    · rintro ⟨e, he⟩
      cases he
    · obtain ⟨row, hmem, hid, -, hpay, hamount, htype⟩ := hrow.row
      refine ⟨row, hmem, hid, hpay.trans (Table.find?_mem hp.find).2, hamount, ?_⟩
      rw [htype]
      exact refundType_full hp hex hq hle
  · exact ⟨⟨fun _ => hlt, fun _ => ⟨e, rfl⟩⟩, fun hr => (nomatch hr)⟩

theorem permitted_refundOf (s : Shop) (p : Payment) {n : ℕ} (h : 0 < n) :
    Permitted s p (refundOf n) := by
  refine ⟨wellFormed_refundOf s n, ?_, .inl rfl⟩
  have hone : (1 : ℚ) ≤ n := by exact_mod_cast h
  exact le_trans (by norm_num) hone

theorem capture_captured100 : ∃ p, Capture 0 p captured100 ∧ p.amount = 100 :=
  ⟨_, ⟨rfl, rfl, rfl, rfl, by decide +kernel, by decide +kernel, by decide +kernel,
    cents_natCast 100, by decide +kernel, rfl⟩, rfl⟩

/-- After 40 are refunded, 60 more make the refund full. -/
theorem refunds_exact_two : ∃ p', (afterRefund (refundOf (40 : ℕ)) (refunding 1 10 .processed)
      captured100).payments.find? 0 = some p' ∧ p'.refundedAmount = 40 ∧
      p'.status = .partiallyRefunded ∧
      ∃ row ∈ (afterRefund (refundOf (60 : ℕ)) (refunding 2 10 .pending) (afterRefund
        (refundOf (40 : ℕ)) (refunding 1 10 .processed) captured100)).refunds.rows,
        row.amount = 60 ∧ row.refundType = .full := by
  obtain ⟨p, hp, hamount⟩ := capture_captured100
  have hfirst : Pool.History Faultless (RefundRequest.prog 0) captured100 [(refundOf (40 : ℕ), .ok ())]
      (afterRefund (refundOf (40 : ℕ)) (refunding 1 10 .processed) captured100) :=
    history_snoc _ _ _ .nil (by decide +kernel) (by decide +kernel)
  obtain ⟨p', hfind, -, htotal, -, -, hpartial, hnext⟩ := refunds_exact 0 p captured100 _ _ hp
    (by simpa using permitted_refundOf captured100 p (n := 40) (by decide)) hfirst
  have h40 : p'.refundedAmount = 40 := htotal.trans (by decide +kernel)
  have hran : Pool.Ran Faultless ((refundOf (60 : ℕ)).prog 0)
      (afterRefund (refundOf (40 : ℕ)) (refunding 1 10 .processed) captured100) (.ok ())
      (afterRefund (refundOf (60 : ℕ)) (refunding 2 10 .pending) (afterRefund
        (refundOf (40 : ℕ)) (refunding 1 10 .processed) captured100)) :=
    ⟨refunding 2 10 .pending, by decide +kernel, by decide +kernel, rfl⟩
  obtain ⟨row, hmem, -, -, hrow, htype⟩ :=
    (hnext _ _ _ (permitted_refundOf captured100 p (by decide)) hran).2 rfl
  refine ⟨p', hfind, h40, hpartial.mpr ?_, row, hmem, hrow, htype.mpr ?_⟩
  · rw [h40, hamount]
    norm_num
  · rw [h40, hamount]
    norm_num [refundOf]

/-! ### Answers of the gateway -/

/-- The result of `RazorpayProvider.refund` for the status that Razorpay reports. -/
def RazorpayProvider.refundStatus (status : String) : GatewayStatus :=
  if status = "processed" ∨ status = "completed" then .processed
  else if status = "failed" then .failed
  else .pending

/-- Every refund that is answered is answered with such a report; the rest is free. -/
def Reported (fine : String → Prop) (l : ShopCall) (i : ShopInput) (_ : Shop) : Prop :=
  match l with
  | .payment (.gateway (.refund _ _ _)) =>
    i.reply.thrown = none → ∃ status, fine status ∧ i.reply.status = RazorpayProvider.refundStatus status
  | _ => True

theorem refundStatus_failed {status : String} :
    RazorpayProvider.refundStatus status = .failed ↔ status = "failed" := by
  unfold RazorpayProvider.refundStatus
  split
  next h =>
    rcases h with rfl | rfl <;> simp
  next =>
    split
    next h => simp [h]
    next h => simp [h]

theorem reported_mayAnswer {fine : String → Prop} (hfine : ¬ fine "failed")
    (h : MayAnswer (Reported fine) .failed) : False := by
  obtain ⟨gid, amount, number, i, t, hok, hthrown, hstatus⟩ := h
  obtain ⟨status, hs, hreply⟩ := hok hthrown
  rw [refundStatus_failed.mp (hreply.symm.trans hstatus)] at hs
  exact hfine hs

/-- Between the two states a refund that the gateway reported as failed ended so, and left the
status of the payment. -/
def FailedVoid (x : ℕ) (s t : Shop) : Prop :=
  ∀ gid amount number, ⟨.refund gid amount number, some .failed⟩ ∈ t.gatewayLog.drop s.gatewayLog.length →
    (∀ row ∈ t.refunds.rows, row.refundNumber = number → row.status = .failed) ∧
      (t.payments.find? x).map (·.status) = (s.payments.find? x).map (·.status)

/-- The payment `p`, with no more recorded since `s` than the gateway has refunded. -/
structure Counted (x : ℕ) (p : Payment) (s t : Shop) : Prop where
  account : ∃ a status, t.payments.find? x = some (refundedTo p a status) ∧
    a - p.refundedAmount ≤ gatewayRefunded (p.gatewayPaymentId.getD "") t -
      gatewayRefunded (p.gatewayPaymentId.getD "") s

section Counted

variable {x : ℕ} {p : Payment} {s t u : Shop} {q : RefundRequest} {r : Except Failure Unit}

theorem getD_of_truthy {gid : String} {o : Option String} (h : truthy o = some gid) :
    o.getD "" = gid := by
  cases o with
  | none => cases h
  | some id =>
    unfold truthy at h
    exact (Option.filter_eq_some_iff.mp h).1 ▸ rfl

theorem gatewayRefunded_grows {gid gid' : String} {number : DocumentNumber} {amount : ℚ}
    {answer : Option GatewayStatus} (h : 0 ≤ amount)
    (hlog : u.gatewayLog = t.gatewayLog ++ [⟨.refund gid' amount number, answer⟩]) :
    gatewayRefunded gid t ≤ gatewayRefunded gid u := by
  rw [gatewayRefunded_append hlog]
  refine le_add_of_nonneg_right ?_
  unfold exchanged
  split
  next heq _ =>
    cases heq
    split
    · exact h
    · exact le_refl _
  · exact le_refl _

theorem gatewayRefunded_counts {gid : String} {number : DocumentNumber} {amount : ℚ}
    {answer : GatewayStatus} (h : answer ≠ .failed)
    (hlog : u.gatewayLog = t.gatewayLog ++ [⟨.refund gid amount number, some answer⟩]) :
    gatewayRefunded gid u = gatewayRefunded gid t + amount := by
  rw [gatewayRefunded_append hlog]
  simp [exchanged, h]

theorem Counted.step {fine : String → Prop} (hfine : ¬ fine "failed") (h : Counted x p s t)
    (hr : Pool.Ran (Reported fine) (q.prog x) t r u) : Counted x p s u ∧ FailedVoid x t u := by
  obtain ⟨a, status, hfind, hle⟩ := h.account
  obtain ⟨hout, -⟩ := ran_alone (outcome_refund _ _ _ _ _ t) hr
  obtain ⟨b, hb⟩ : ∃ b, books u = b := ⟨_, rfl⟩
  have hpay : u.payments = b.payments := congrArg Books.payments hb
  have hlog : u.gatewayLog = b.log := congrArg Books.log hb
  have hquiet : u.gatewayLog = t.gatewayLog → FailedVoid x t u := by
    intro heq gid amount number hmem
    rw [heq, List.drop_length] at hmem
    cases hmem
  have hsame : u.payments = t.payments → u.gatewayLog = t.gatewayLog → Counted x p s u := by
    intro hp hl
    refine ⟨a, status, hp ▸ hfind, ?_⟩
    rw [gatewayRefunded, hl]
    exact hle
  have hfailed : ∀ gid number answer,
      u.gatewayLog = t.gatewayLog ++ [⟨.refund gid q.dto.amount number, answer⟩] →
      (∀ status, answer = some status → MayAnswer (Reported fine) status) → FailedVoid x t u := by
    intro gid number answer heq hans gid' amount number' hmem
    rw [heq, List.drop_left, List.mem_singleton] at hmem
    cases hmem
    exact (reported_mayAnswer hfine (hans _ rfl)).elim
  rw [hb] at hout
  cases hout with
  | refused _ => exact ⟨hsame hpay hlog, hquiet hlog⟩
  | unsent _ _ _ => exact ⟨hsame hpay hlog, hquiet hlog⟩
  | sent hsent =>
    cases hsent with
    | unrecorded _ _ hpos _ hans _ =>
      refine ⟨⟨a, status, hpay ▸ hfind, ?_⟩, hfailed _ _ _ hlog hans⟩
      exact hle.trans (sub_le_sub_right (gatewayRefunded_grows hpos.le hlog) _)
    | recorded hp' hgid hpos _ hans _ _ =>
      obtain rfl := Option.some.inj (hp'.find.symm.trans hfind)
      refine ⟨⟨a + q.dto.amount, refundedStatus (refundedTo p a status) q.dto.amount, ?_, ?_⟩,
        hfailed _ _ _ hlog fun _ h => Option.some.inj h ▸ hans⟩
      · rw [hpay]
        exact Table.find?_update_self (r := refundedTo p a status) (key_applyWrite _ _) hfind
      · have hne : ∀ answer, MayAnswer (Reported fine) answer → answer ≠ .failed := by
          rintro _ hans rfl
          exact reported_mayAnswer hfine hans
        rw [getD_of_truthy (o := p.gatewayPaymentId) hgid] at hle ⊢
        rw [gatewayRefunded_counts (hne _ hans) hlog]
        linarith

end Counted

/-- In every sequence of refunds in which Razorpay reports none as failed, the payment counts only
what the gateway has refunded, whatever else fails, and so does every further call. -/
theorem refunds_counted (x : ℕ) (p : Payment) (s s' : Shop)
    (calls : List (RefundRequest × Except Failure Unit)) (hp : s.payments.find? x = some p)
    (h : Pool.History (Reported (· ≠ "failed")) (RefundRequest.prog x) s calls s') :
    (∃ p', s'.payments.find? x = some p' ∧ p'.refundedAmount - p.refundedAmount ≤
      gatewayRefunded (p.gatewayPaymentId.getD "") s' -
        gatewayRefunded (p.gatewayPaymentId.getD "") s) ∧
      ∀ q r u, Pool.Ran (Reported (· ≠ "failed")) (RefundRequest.prog x q) s' r u →
        FailedVoid x s' u := by
  have hend : Counted x p s s' := by
    refine h.invariant (P := fun _ t => Counted x p s t) ⟨p.refundedAmount, p.status, hp, ?_⟩ ?_
    · rw [sub_self, sub_self]
    · exact fun _ _ _ _ _ ih hr => (ih.step (fun h => h rfl) hr).1
  obtain ⟨a, status, hfind, hle⟩ := hend.account
  exact ⟨⟨_, hfind, hle⟩, fun q r u hr => (hend.step (fun h => h rfl) hr).2⟩

theorem reported_of_status {fine : String → Prop} (report : String) (hfine : fine report)
    {i : ShopInput} (hi : i.reply.status = RazorpayProvider.refundStatus report) (l : ShopCall)
    (t : Shop) : Reported fine l i t := by
  unfold Reported
  split
  · exact fun _ => ⟨report, hfine, hi⟩
  · trivial

/-- A refund of 40 that Razorpay has created. -/
theorem refunds_counted_one : ∃ p', (afterRefund (refundOf (40 : ℕ))
      (refunding 1 10 (RazorpayProvider.refundStatus "created")) captured100).payments.find? 0 = some p' ∧
    p'.refundedAmount = 40 ∧ p'.refundedAmount - 0 ≤ gatewayRefunded "pay_1" (afterRefund
      (refundOf (40 : ℕ)) (refunding 1 10 (RazorpayProvider.refundStatus "created")) captured100) -
        gatewayRefunded "pay_1" captured100 := by
  have hok : Pool.SoloAdmits (Reported (· ≠ "failed")) ((refundOf (40 : ℕ)).prog 0) captured100
      (refunding 1 10 (RazorpayProvider.refundStatus "created")) := by
    refine Pool.soloAdmits_of_forall fun i hi l t => ?_
    rw [refunding, List.mem_replicate] at hi
    rw [hi.2]
    exact reported_of_status "created" (by decide) rfl l t
  have hrun := history_snoc (refundOf (40 : ℕ)) (.ok ())
    (refunding 1 10 (RazorpayProvider.refundStatus "created")) .nil hok (by decide +kernel)
  obtain ⟨⟨p', hfind, hle⟩, -⟩ := refunds_counted 0 _ captured100 _ _ rfl hrun
  refine ⟨p', hfind, ?_, hle⟩
  have hvalue : ((afterRefund (refundOf (40 : ℕ)) (refunding 1 10
      (RazorpayProvider.refundStatus "created")) captured100).payments.find? 0).map
      (·.refundedAmount) = some 40 := by decide +kernel
  rw [hfind] at hvalue
  exact Option.some.inj hvalue

/-- A refund of 40 that Razorpay reports as failed is recorded as refunded. -/
theorem failed_refund_counted :
    ¬ ∀ calls s', Pool.History (Reported fun _ => True) (RefundRequest.prog 0) captured100 calls s' →
      (∃ p', s'.payments.find? 0 = some p' ∧ p'.refundedAmount - 0 ≤
        gatewayRefunded "pay_1" s' - gatewayRefunded "pay_1" captured100) ∧
      ∀ q r u, Pool.Ran (Reported fun _ => True) (RefundRequest.prog 0 q) s' r u →
        FailedVoid 0 s' u := by
  intro h
  have hok : Pool.SoloAdmits (Reported fun _ => True) ((refundOf (40 : ℕ)).prog 0) captured100
      (refunding 1 10 (RazorpayProvider.refundStatus "failed")) := by
    refine Pool.soloAdmits_of_forall fun i hi l t => ?_
    rw [refunding, List.mem_replicate] at hi
    rw [hi.2]
    exact reported_of_status "failed" trivial rfl l t
  have hrun := history_snoc (refundOf (40 : ℕ)) (.ok ())
    (refunding 1 10 (RazorpayProvider.refundStatus "failed")) .nil hok (by decide +kernel)
  obtain ⟨⟨p', hfind, hle⟩, -⟩ := h _ _ hrun
  have hvalue : ((afterRefund (refundOf (40 : ℕ)) (refunding 1 10
      (RazorpayProvider.refundStatus "failed")) captured100).payments.find? 0).map
      (·.refundedAmount) = some 40 := by decide +kernel
  rw [hfind] at hvalue
  have hgateway : gatewayRefunded "pay_1" (afterRefund (refundOf (40 : ℕ)) (refunding 1 10
      (RazorpayProvider.refundStatus "failed")) captured100) -
        gatewayRefunded "pay_1" captured100 = 0 := by decide +kernel
  have h40 : p'.refundedAmount = 40 := Option.some.inj hvalue
  rw [h40, hgateway] at hle
  exact absurd hle (by decide +kernel)

end ElectronicsCart.Payments
