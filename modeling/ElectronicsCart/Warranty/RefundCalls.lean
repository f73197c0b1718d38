import ElectronicsCart.Payments.RefundRuns
import ElectronicsCart.Warranty.Rma

/-!
# Sequences of refund requests for a return

`requestRefund` called again and again on one return.  The refund is not undone when the second
step fails, so a call may throw after the gateway was asked; with a database and a gateway that
answer in time this happens only where the table has no edge to `completed`.
-/

namespace ElectronicsCart.Warranty

open Interleaving Relational Payments

structure RmaRefundCall where
  token : ℕ
  actorId : ℕ
  dto : RmaRefundDto
deriving DecidableEq, Repr

def RmaRefundCall.prog (rmaId : ℕ) (q : RmaRefundCall) : ShopProg Unit :=
  requestRefund q.token q.actorId rmaId q.dto

def isRefund (e : GatewayExchange) : Bool :=
  match e.request with
  | .refund _ _ _ => true
  | _ => false

def refundRequests (s : Shop) : ℕ := s.gatewayLog.countP isRefund

/-- The constraints of `payments` hold for its rows. -/
def SoundPayments (s : Shop) : Prop := ∀ p ∈ s.payments.rows, validPayment s.payments p = true

instance (s : Shop) : Decidable (SoundPayments s) :=
  inferInstanceAs (Decidable (∀ p ∈ s.payments.rows, _))

def isDeadline : ShopCall → Bool
  | .deadline _ => true
  | _ => false

/-- Database and gateway do not fail, and the call that begins at `start` is not timed out. -/
def Prompt (start : ℕ) (l : ShopCall) (i : ShopInput) (_ : Shop) : Prop :=
  i.fails = false ∧ i.reply.thrown = none ∧ i.timer = false ∧
    (isDeadline l = true → start ≤ i.now ∧ i.now ≤ start + 30000)

instance (start : ℕ) (l : ShopCall) (i : ShopInput) (s : Shop) : Decidable (Prompt start l i s) :=
  inferInstanceAs (Decidable (_ ∧ _ ∧ _ ∧ (_ → _ ∧ _)))

/-- What a call leaves that found the payments sound and the return not approved. -/
def CallOutcome (rmaId : ℕ) (s : Shop) (r : Except Failure Unit) (t : Shop) : Prop :=
  SoundPayments t ∧
    ((∃ e, r = .error e) ∧ refundRequests t = refundRequests s ∧ t.rmaRequests = s.rmaRequests ∨
      r = .ok () ∧ refundRequests t = refundRequests s + 1 ∧
        ∃ rma, t.rmaRequests.find? rmaId = some rma ∧ rma.status = .completed)

section Calls

variable {start : ℕ} {s t : Shop}

theorem prompt_mayFail {S : ShopCall → Bool} (h : MayFail (Prompt start) S) : False := by
  obtain ⟨l, i, t, hok, -, hf⟩ := h
  rw [hok.1] at hf
  cases hf

theorem prompt_mayThrow (h : MayThrow (Prompt start)) : False := by
  obtain ⟨l, i, t, hok, hthrown⟩ := h
  exact hthrown hok.2.1

variable {α β : Type} {Q : Except Failure α → Shop → Prop}

theorem prompt_queryBind {l : ShopCall} {f : ShopInput → Shop → β} {k : β → ShopProg α}
    (h : ∀ i, Alone (Prompt start) Q (k (f i s)) s) :
    Alone (Prompt start) Q ((query l f).bind k) s := by
  refine Alone.queryBind (fun i _ _ => h i) fun i ho hf => ?_
  rw [ho.1] at hf
  cases hf

theorem prompt_atomicBind {l : ShopCall} {f : ShopInput → Shop → Except Failure (β × Shop)}
    {k : β → ShopProg α}
    (h : ∀ i, ∃ b u, f i s = .ok (b, u) ∧ Alone (Prompt start) Q (k b) u) :
    Alone (Prompt start) Q ((atomic l f).bind k) s := by
  refine Alone.atomicBind (fun i b u _ _ hu => ?_) fun i e ho he => ?_
  · obtain ⟨b', u', hu', hk⟩ := h i
    rw [hu] at hu'
    cases hu'
    exact hk
  · obtain ⟨b', u', hu', -⟩ := h i
    rcases he with hf | he
    · rw [ho.1] at hf
      cases hf
    · rw [he] at hu'
      cases hu'

/-! ### The refund -/

theorem accepts_record {T : Table Payment} {p : Payment} {amount : ℚ} {now : ℕ}
    (hvalid : validPayment T p = true) (hpos : 0 < amount) (hle : amount ≤ remaining p) :
    validPayment T (applyWrite now p (recordOf p amount)) = true := by
  simp only [validPayment, recordOf, applyWrite, Bool.and_eq_true] at hvalid ⊢
  obtain ⟨⟨hgid, hnonneg⟩, -⟩ := hvalid
  have hrefunded : 0 ≤ p.refundedAmount := of_decide_eq_true hnonneg
  have hsum : p.refundedAmount + amount ≤ p.amount := by
    rw [remaining] at hle
    linarith
  exact ⟨⟨hgid, decide_eq_true (by linarith)⟩, decide_eq_true hsum⟩

theorem SoundPayments.record {x now : ℕ} {p : Payment} {total : ℚ} {status : PaymentStatus}
    (h : SoundPayments s) (hp : s.payments.find? x = some p)
    (hvalid : validPayment s.payments (applyWrite now p (.refund total status)) = true)
    (ht : t.payments = s.payments.update x (applyWrite now · (.refund total status))
      (key_applyWrite now _)) :
    SoundPayments t := by
  intro r hr
  rw [ht] at hr ⊢
  have hkey := key_applyWrite now (.refund total status)
  obtain ⟨a, ha, rfl⟩ := (Table.mem_update hkey).mp hr
  split
  next hax =>
    obtain rfl := Table.eq_of_find?_eq hp ha hax
    exact valid_update hp hvalid
  next hax =>
    have hold := h a ha
    simp only [validPayment, Bool.and_eq_true, Bool.or_eq_true, List.all_eq_true] at hold ⊢
    refine ⟨⟨hold.1.1.imp_right fun hall c hc => ?_, hold.1.2⟩, hold.2⟩
    obtain ⟨d, hd, rfl⟩ := (Table.mem_update hkey).mp hc
    have hfree := hall d hd
    split <;> exact hfree

theorem refund_alone {token x actorId : ℕ} {dto : RefundPaymentDto} (hs : SoundPayments s)
    (hcovered : ∀ p, s.payments.find? x = some p → dto.amount ≤ remaining p) :
    Alone (Prompt start) (fun r t => SoundPayments t ∧ t.rmaRequests = s.rmaRequests ∧
      ((∃ e, r = .error e) ∧ refundRequests t = refundRequests s ∨
        r = .ok () ∧ refundRequests t = refundRequests s + 1))
      (Payments.refund token x actorId dto true) s := by
  refine Alone.mono ?_ (outcome_refund token x actorId dto true s)
  rintro r t ⟨hout, hrma, -, -⟩
  obtain ⟨b, hb⟩ : ∃ b, books t = b := ⟨_, rfl⟩
  have hpay : t.payments = b.payments := congrArg Books.payments hb
  have hlog : t.gatewayLog = b.log := congrArg Books.log hb
  have hsame : t.payments = s.payments → SoundPayments t := by
    intro h
    rw [SoundPayments, h]
    exact hs
  rw [hb] at hout
  cases hout with
  | refused _ =>
    exact ⟨hsame hpay, hrma, .inl ⟨⟨_, rfl⟩, by rw [refundRequests, hlog]; rfl⟩⟩
  | unsent _ _ _ =>
    exact ⟨hsame hpay, hrma, .inl ⟨⟨_, rfl⟩, by rw [refundRequests, hlog]; rfl⟩⟩
  | sent hsent =>
    cases hsent with
    | unrecorded hp _ hpos _ _ hwhy =>
      rcases hwhy with ⟨-, hthrow⟩ | hfail | ⟨now, hinvalid⟩
      · exact (prompt_mayThrow hthrow).elim
      · exact (prompt_mayFail hfail).elim
      · have hmem := (Table.find?_mem hp.find).1
        rw [accepts_record (hs _ hmem) hpos (hcovered _ hp.find)] at hinvalid
        cases hinvalid
    | recorded hp _ hpos _ _ hvalid hwhy =>
      obtain rfl := hwhy.resolve_right fun h => prompt_mayFail h
      refine ⟨hs.record hp.find hvalid hpay, hrma, .inr ⟨rfl, ?_⟩⟩
      simp [refundRequests, hlog, List.countP_append, isRefund]

/-! ### The status of the return -/

theorem transition_alone {id actorId : ℕ} {reason : String} {rma : RmaRequest}
    (hrma : s.rmaRequests.find? id = some rma) (hlive : rma.deleted = false)
    (hst : rma.status = .received) :
    Alone (Prompt start) (fun r t => r = .ok () ∧ t.payments = s.payments ∧
      t.gatewayLog = s.gatewayLog ∧
      ∃ rma', t.rmaRequests.find? id = some rma' ∧ rma'.status = .completed)
      (transition id actorId .completed reason) s := by
  have hread : (s.rmaRequests.find? id).filter (fun r => !r.deleted) = some rma := by
    simp [hrma, hlive]
  have hne : rma.status ≠ .completed := by
    rw [hst]
    decide
  simp only [transition, requireCase, load, saveStatus, Prog.bind_eq, Prog.bind_assoc]
  refine prompt_queryBind fun i => Alone.orThrowBind (fun current hcur => ?_) fun hnone => ?_
  swap
  · rw [hread] at hnone
    cases hnone
  obtain rfl := Option.some.inj (hread.symm.trans hcur)
  refine Alone.ensureBind (fun _ => ?_) fun hno => (hno ?_).elim
  swap
  · rw [hst]
    rfl
  rw [if_neg hne]
  refine prompt_queryBind fun i => Alone.orThrowBind (fun row hrow => ?_) fun hnone => ?_
  swap
  · rw [hrma] at hnone
    cases hnone
  refine prompt_atomicBind fun i => ⟨(), { s with
    rmaRequests := s.rmaRequests.update id (closeAs .completed i.now) (key_closeAs _ _) }, ?_, ?_⟩
  · simp [writeStatus, existing, hrma, bind, Except.bind, pure, Except.pure]
  have hclosed := Table.find?_update_self (key_closeAs .completed i.now) hrma
  refine prompt_atomicBind fun _ => ⟨_, _, rfl, prompt_queryBind fun _ => ?_⟩
  refine prompt_atomicBind fun _ => ⟨_, _, rfl, ?_⟩
  simp only [hclosed, Option.filter_some, closeAs, hlive]
  exact Alone.done ⟨rfl, rfl, rfl, _, hclosed, rfl⟩

/-! ### One call -/

theorem withTimeout_alone {name : String} {p : ShopProg α} (h : Alone (Prompt start) Q p s) :
    Alone (Prompt start) Q (SagaCoordinator.withTimeout name p) s :=
  Holds.race_unfired (fun _ _ _ ho => ⟨trivial, ho.2.2.1⟩) h

theorem clock_alone {name : String} {k : ℕ → ShopProg α}
    (h : ∀ now, start ≤ now → now ≤ start + 30000 → Alone (Prompt start) Q (k now) s) :
    Alone (Prompt start) Q ((SagaCoordinator.clock name).bind k) s := by
  refine Alone.callBind fun i ho => ⟨fun now hnow => ?_, fun e he => nomatch he⟩
  cases hnow
  have htime := ho.2.2.2 rfl
  exact h i.now htime.1 htime.2

/-- What the workflow leaves: the refund and the closed return, or nothing. -/
def WorkflowOutcome (rmaId : ℕ) (s : Shop)
    (r : Except Failure (WorkflowInstance RmaCloseCtx)) (t : Shop) : Prop :=
  SoundPayments t ∧ ∃ w, r = .ok w ∧
    (w.status ≠ .completed ∧ refundRequests t = refundRequests s ∧ t.rmaRequests = s.rmaRequests ∨
      w.status = .completed ∧ refundRequests t = refundRequests s + 1 ∧
        ∃ rma, t.rmaRequests.find? rmaId = some rma ∧ rma.status = .completed)

theorem workflow_alone {token rmaId : ℕ} {rma : RmaRequest} {ctx : RmaCloseCtx}
    (hs : SoundPayments s) (hctx : ctx.rmaId = rmaId)
    (hcovered : ∀ p, s.payments.find? ctx.paymentId = some p → ctx.refundAmount ≤ remaining p)
    (hrma : s.rmaRequests.find? rmaId = some rma) (hlive : rma.deleted = false)
    (hst : rma.status = .received ∨ rma.status = .completed) :
    Alone (Prompt start) (WorkflowOutcome rmaId s)
      (SagaCoordinator.run (refundDefinition token rma) ctx) s := by
  simp only [SagaCoordinator.run, refundDefinition, Prog.bind_eq]
  refine clock_alone fun first hfirst _ => ?_
  simp only [SagaCoordinator.runSteps, Prog.bind_eq]
  refine clock_alone fun second _ hsecond => ?_
  rw [if_neg (by omega)]
  have hrefund := @refund_alone start s token ctx.paymentId ctx.actorId
    { amount := ctx.refundAmount } hs hcovered
  have hfirst : Alone (Prompt start) (fun r t => SoundPayments t ∧ t.rmaRequests = s.rmaRequests ∧
      ((∃ e, r = .error e) ∧ refundRequests t = refundRequests s ∨
        r = .ok id ∧ refundRequests t = refundRequests s + 1)) (refundViaPayments token ctx) s := by
    refine Alone.bind hrefund (fun _ t ht => Alone.done ⟨ht.1, ht.2.1, ?_⟩) fun e t ht =>
      ⟨ht.1, ht.2.1, ?_⟩
    · rcases ht.2.2 with ⟨⟨e, he⟩, -⟩ | ⟨-, hcount⟩
      · cases he
      · exact .inr ⟨rfl, hcount⟩
    · rcases ht.2.2 with ⟨-, hcount⟩ | ⟨he, -⟩
      · exact .inl ⟨⟨e, rfl⟩, hcount⟩
      · cases he
  refine Alone.attemptBind (withTimeout_alone hfirst) ?_
  rintro r t ⟨hsound, hsame, ⟨⟨e, rfl⟩, hcount⟩ | ⟨rfl, hcount⟩⟩
  · exact Alone.done ⟨hsound, _, rfl, .inl ⟨by simp, hcount, hsame⟩⟩
  · refine clock_alone fun third _ hthird => ?_
    rw [if_neg (by omega)]
    have hfind : t.rmaRequests.find? rmaId = some rma := by rw [hsame, hrma]
    have hclose : Alone (Prompt start) (fun r u => r = .ok id ∧ SoundPayments u ∧
        u.gatewayLog = t.gatewayLog ∧
        ∃ rma', u.rmaRequests.find? rmaId = some rma' ∧ rma'.status = .completed)
        (completeRma rma ctx) t := by
      unfold completeRma
      split
      next hopen =>
        rw [hctx]
        refine Alone.bind (transition_alone hfind hlive (hst.resolve_right hopen)) ?_ ?_
        · rintro _ u ⟨-, hpay, hlog, hclosed⟩
          refine Alone.done ⟨rfl, ?_, hlog, hclosed⟩
          rw [SoundPayments, hpay]
          exact hsound
        · rintro e u ⟨he, -⟩
          cases he
      next hdone =>
        exact Alone.done ⟨rfl, hsound, rfl, rma, hfind, not_not.mp hdone⟩
    refine Alone.attemptBind (withTimeout_alone hclose) ?_
    rintro r u ⟨rfl, hsound', hlog, hclosed⟩
    refine Alone.done ⟨hsound', _, rfl, .inr ⟨rfl, ?_, hclosed⟩⟩
    rw [refundRequests, hlog]
    exact hcount

theorem requestRefund_alone {rmaId : ℕ} (q : RmaRefundCall) (hs : SoundPayments s)
    (hcovered : ∀ p, s.payments.find? q.dto.paymentId = some p → q.dto.amount ≤ remaining p)
    (hst : ∀ rma, s.rmaRequests.find? rmaId = some rma → rma.status ≠ .approved) :
    Alone (Prompt start) (CallOutcome rmaId s) (q.prog rmaId) s := by
  have hrefused : ∀ e, CallOutcome rmaId s (.error e) s := fun e => ⟨hs, .inl ⟨⟨e, rfl⟩, rfl, rfl⟩⟩
  simp only [RmaRefundCall.prog, requestRefund, Prog.bind_eq]
  refine prompt_queryBind fun i => Alone.orThrowBind (fun rma hread => ?_) fun _ => hrefused _
  obtain ⟨hrma, hdeleted⟩ := Option.filter_eq_some_iff.mp hread
  have hlive : rma.deleted = false := by simpa using hdeleted
  refine Alone.ensureBind (fun helig => ?_) fun _ => hrefused _
  have hstatus : rma.status = .received ∨ rma.status = .completed := by
    have hne := hst rma hrma
    cases hr : rma.status <;> simp_all [eligible]
  refine Alone.bind (workflow_alone hs rfl hcovered hrma hlive hstatus) ?_ ?_
  · rintro w t ⟨hsound, w', hw, hw'⟩
    cases hw
    refine Alone.ensureBind (fun hdone => ?_) fun hfailed => ⟨hsound, .inl ⟨⟨_, rfl⟩, ?_⟩⟩
    · obtain ⟨-, hcount, hclosed⟩ := hw'.resolve_left fun h => h.1 hdone
      refine Alone.atomic (fun i b u _ _ hu => ?_) fun i e ho he => ?_
      · cases hu
        exact ⟨hsound, .inr ⟨rfl, hcount, hclosed⟩⟩
      · rcases he with hf | he
        · rw [ho.1] at hf
          cases hf
        · cases he
    · exact (hw'.resolve_right fun h => hfailed h.1).2
  · rintro e t ⟨-, w, hw, -⟩
    cases hw

end Calls

/-! ### Sequences of calls -/

/-- Calls on one return, each finished before the next, on payments with enough left to refund. -/
inductive RefundCalls (rmaId : ℕ) (s : Shop) : List (RmaRefundCall × Except Failure Unit) → Shop → Prop
  | nil : RefundCalls rmaId s [] s
  | snoc {calls : List (RmaRefundCall × Except Failure Unit)} {t u : Shop} {q : RmaRefundCall}
      {r : Except Failure Unit} {start : ℕ} : RefundCalls rmaId s calls t →
      (∀ p, t.payments.find? q.dto.paymentId = some p → q.dto.amount ≤ remaining p) →
      Pool.Ran (Prompt start) (q.prog rmaId) t r u → RefundCalls rmaId s (calls ++ [(q, r)]) u

def succeeded (calls : List (RmaRefundCall × Except Failure Unit)) : ℕ :=
  calls.countP fun c => c.2.isOk

/-- The return is not approved and the payments are sound, after any calls. -/
structure Refundable (rmaId : ℕ) (s : Shop) : Prop where
  sound : SoundPayments s
  status : ∀ rma, s.rmaRequests.find? rmaId = some rma → rma.status ≠ .approved

theorem Refundable.call {rmaId : ℕ} {s t : Shop} {r : Except Failure Unit} (h : Refundable rmaId s)
    (hout : CallOutcome rmaId s r t) : Refundable rmaId t := by
  refine ⟨hout.1, fun rma hrma => ?_⟩
  rcases hout.2 with ⟨-, -, hsame⟩ | ⟨-, -, rma', hrma', hdone⟩
  · rw [hsame] at hrma
    exact h.status rma hrma
  · obtain rfl := Option.some.inj (hrma.symm.trans hrma')
    rw [hdone]
    decide

theorem requests_of_calls {rmaId : ℕ} {s t : Shop} {calls : List (RmaRefundCall × Except Failure Unit)}
    (hs : Refundable rmaId s) (h : RefundCalls rmaId s calls t) :
    Refundable rmaId t ∧ refundRequests t = refundRequests s + succeeded calls := by
  induction h with
  | nil => exact ⟨hs, rfl⟩
  | snoc _ hcovered hr ih =>
    obtain ⟨hrefundable, hcount⟩ := ih
    have hout := ran_alone (requestRefund_alone _ hrefundable.sound hcovered hrefundable.status) hr
    refine ⟨hrefundable.call hout, ?_⟩
    rw [succeeded, List.countP_append]
    rcases hout.2 with ⟨⟨e, rfl⟩, hsame, -⟩ | ⟨rfl, hone, -⟩
    · rw [hsame, hcount]
      rfl
    · rw [hone, hcount]
      rfl

/-- On a return that is not approved, in every sequence of calls: one that throws has asked the
gateway for nothing, and one that returns has asked for one refund and completed the return. -/
theorem refund_requested_once (rmaId start : ℕ) (s t u : Shop)
    (calls : List (RmaRefundCall × Except Failure Unit)) (q : RmaRefundCall)
    (r : Except Failure Unit) (hs : SoundPayments s)
    (hstatus : ∀ rma, s.rmaRequests.find? rmaId = some rma → rma.status ≠ .approved)
    (h : RefundCalls rmaId s calls t)
    (hcovered : ∀ p, t.payments.find? q.dto.paymentId = some p → q.dto.amount ≤ remaining p)
    (hr : Pool.Ran (Prompt start) (q.prog rmaId) t r u) :
    refundRequests u = refundRequests s + succeeded (calls ++ [(q, r)]) ∧
      ((∃ e, r = .error e) → refundRequests u = refundRequests t) ∧
      (r = .ok () → refundRequests u = refundRequests t + 1 ∧
        ∃ rma, u.rmaRequests.find? rmaId = some rma ∧ rma.status = .completed) := by
  obtain ⟨hrefundable, -⟩ := requests_of_calls ⟨hs, hstatus⟩ h
  obtain ⟨-, hcount⟩ := requests_of_calls ⟨hs, hstatus⟩ (h.snoc hcovered hr)
  have hout := ran_alone (requestRefund_alone _ hrefundable.sound hcovered hrefundable.status) hr
  refine ⟨hcount, ?_, ?_⟩
  · rintro ⟨e, rfl⟩
    rcases hout.2 with ⟨-, hsame, -⟩ | ⟨hok, -⟩
    · exact hsame
    · cases hok
  · rintro rfl
    rcases hout.2 with ⟨⟨e, he⟩, -⟩ | ⟨-, hone⟩
    · cases he
    · exact hone

def receivedReturn : Shop := { captured100 with
  rmaRequests := Table.empty.insert fun n => { id := n, status := .received } }

def refundCall (amount : ℚ) : RmaRefundCall := ⟨0, 2, ⟨0, amount⟩⟩

/-- A call by itself that is answered at `now`. -/
def afterCall (amount : ℚ) (now : ℕ) (s : Shop) : Shop :=
  (Pool.solo ((refundCall amount).prog 0) s (refunding now 40 .processed)).state

theorem refund_requested_once_received :
    refundRequests (afterCall 40 1 receivedReturn) = 1 := by
  have hsound : SoundPayments receivedReturn := by decide +kernel
  have hstatus : ∀ rma, receivedReturn.rmaRequests.find? 0 = some rma → rma.status ≠ .approved := by
    decide +kernel
  have hcovered : ∀ p, receivedReturn.payments.find? 0 = some p → (40 : ℚ) ≤ remaining p := by
    decide +kernel
  have hran : Pool.Ran (Prompt 1) ((refundCall 40).prog 0) receivedReturn (.ok ())
      (afterCall 40 1 receivedReturn) :=
    ⟨refunding 1 40 .processed, by decide +kernel, by decide +kernel, rfl⟩
  exact ((refund_requested_once 0 1 receivedReturn receivedReturn _ [] (refundCall 40) (.ok ())
    hsound hstatus .nil hcovered hran).2.2 rfl).1

def slowGateway : List ShopInput := refunding 1 12 .processed ++ refunding 60000 20 .processed

/-- A completed return is refunded again; and a call whose time is up after the gateway has
refunded throws. -/
theorem refunded_beside_return :
    (∃ u, RefundCalls 0 receivedReturn [(refundCall 40, .ok ()), (refundCall 40, .ok ())] u ∧
      refundRequests u = 2) ∧
    ∃ e u, Pool.Ran (fun _ i _ => i.fails = false ∧ i.reply.thrown = none)
      ((refundCall 40).prog 0) receivedReturn (.error e) u ∧ refundRequests u = 1 := by
  refine ⟨⟨afterCall 40 2 (afterCall 40 1 receivedReturn), ?_, by decide +kernel⟩, ?_⟩
  · have hcovered : ∀ p, receivedReturn.payments.find? 0 = some p → (40 : ℚ) ≤ remaining p := by
      decide +kernel
    have hcovered' : ∀ p, (afterCall 40 1 receivedReturn).payments.find? 0 = some p →
        (40 : ℚ) ≤ remaining p := by decide +kernel
    have hfirst : Pool.Ran (Prompt 1) ((refundCall 40).prog 0) receivedReturn (.ok ())
        (afterCall 40 1 receivedReturn) :=
      ⟨refunding 1 40 .processed, by decide +kernel, by decide +kernel, rfl⟩
    have hsecond : Pool.Ran (Prompt 2) ((refundCall 40).prog 0) (afterCall 40 1 receivedReturn)
        (.ok ()) (afterCall 40 2 (afterCall 40 1 receivedReturn)) :=
      ⟨refunding 2 40 .processed, by decide +kernel, by decide +kernel, rfl⟩
    exact (RefundCalls.snoc .nil hcovered hfirst).snoc hcovered' hsecond
  · exact ⟨.throwApp .conflict "Workflow timed out" 409, _,
      ⟨slowGateway, by decide +kernel, by decide +kernel, rfl⟩, by decide +kernel⟩

end ElectronicsCart.Warranty
