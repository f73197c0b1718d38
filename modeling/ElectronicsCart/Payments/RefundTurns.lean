import ElectronicsCart.Core.LockTurns
import ElectronicsCart.Payments.RefundRuns

/-!
# Refunds of one payment at once

The refunds of a payment run under one lock, so any number of them at once come to what some order of
them gives on an account that pays out as long as enough is left.
-/

namespace ElectronicsCart.Payments

open Interleaving Relational LockService

/-! ### A refund under its lock -/

theorem inner_gatewayCall (request : GatewayRequest) : Inner (gatewayCall request) := by
  apply Inner.call
  intro i s
  split <;> rfl

theorem inner_insert {l : ShopCall} {f : ShopInput → Shop → Except Failure (Unit × Shop)}
    (h : ∀ i s, ∃ u, f i s = .ok ((), u) ∧ u.locks = s.locks) : Inner (atomic l f) := by
  apply Inner.atomic
  intro i s b s' hf
  obtain ⟨u, hu, hlocks⟩ := h i s
  rw [hu] at hf
  cases hf
  exact hlocks

theorem inner_updateRefund (id : ℕ) (status : RefundStatus) (gatewayRefundId reason : Option String) :
    Inner (updateRefund id status gatewayRefundId reason) := by
  apply Inner.atomic
  intro i s b s' h
  simp only [writeRefund, bind_eq_ok, existing_eq_ok, pure_eq_ok, Prod.mk.injEq] at h
  obtain ⟨-, -, -, rfl⟩ := h
  rfl

theorem inner_recordRefund (payment : Payment) (actorId : ℕ) (amount : ℚ) :
    Inner (recordRefund payment actorId amount) := by
  refine Inner.bind (Inner.atomic ?_) fun _ => Inner.bind ?_ fun _ => ?_
  · intro i s b s' h
    obtain ⟨-, -, -, rfl⟩ := writePayment_cases h
    rfl
  · exact inner_insert fun _ _ => ⟨_, rfl, rfl⟩
  · exact inner_insert fun _ _ => ⟨_, rfl, rfl⟩

theorem inner_refundWithGateway (payment : Payment) (gatewayPaymentId : String) (refund : Refund)
    (actorId : ℕ) (amount : ℚ) :
    Inner (refundWithGateway payment gatewayPaymentId refund actorId amount) := by
  refine (inner_gatewayCall _).bind fun gw => (inner_updateRefund _ _ _ _).bind fun _ => ?_
  refine Inner.bind ?_ fun _ => inner_recordRefund _ _ _
  exact inner_insert fun _ _ => ⟨_, rfl, rfl⟩

theorem insertRefundItems_locks {refundId : ℕ} {items : List RefundItemDto} {s s' : Shop}
    (h : insertRefundItems refundId items s = .ok s') : s'.locks = s.locks := by
  rcases insertRefundItems_cases refundId items s with ⟨T, hT⟩ | ⟨⟨e, he⟩, -⟩
  · rw [hT] at h
    cases h
    rfl
  · rw [he] at h
    cases h

theorem inner_refundPayment (payment : Payment) (actorId : ℕ) (dto : RefundPaymentDto) :
    Inner (refundPayment payment actorId dto) := by
  refine Inner.bind (Inner.atomic ?_) fun refund => ?_
  · intro i s b s' h
    obtain ⟨-, -, rfl⟩ := insertRefund_ok h
    rfl
  refine Inner.bind ?_ fun _ => (Inner.orThrow _ _).bind fun gid => ?_
  · unfold createRefundItems
    split
    · exact Inner.done _
    · apply Inner.atomic
      intro i s b s' h
      simp only [bind_eq_ok, pure_eq_ok, Prod.mk.injEq] at h
      obtain ⟨t, ht, -, rfl⟩ := h
      exact insertRefundItems_locks ht
  · refine (inner_refundWithGateway _ _ _ _ _).tryCatch fun e => ?_
    refine (inner_updateRefund _ _ _ _).bind fun _ => Inner.bind ?_ fun _ => Inner.done _
    exact inner_insert fun _ s => ⟨s, rfl, rfl⟩

theorem enters_refund {ok : ShopCall → ShopInput → Shop → Prop} (x : ℕ) (q : RefundRequest) :
    (q.prog x).Enters ok (Held ShopCall (ShopLock.payment .refund x)) := by
  apply enters_withLock
  refine Inner.bind ((Inner.query _ _).bind fun _ => Inner.orThrow _ _) fun payment => ?_
  refine (Inner.ensure _ _).bind fun _ => (Inner.ensure _ _).bind fun _ => ?_
  exact (Inner.ensure _ _).bind fun _ => inner_refundPayment _ _ _

/-! ### The account -/

/-- One payout of an account with that total: made when what is left covers it. -/
def payout (total : ℚ) (paid : List Bool × ℚ) (amount : ℚ) : List Bool × ℚ :=
  if paid.2 + amount ≤ total then (paid.1 ++ [true], paid.2 + amount) else (paid.1 ++ [false], paid.2)

/-- Which of the payouts are made one after another, and what they come to. -/
def payouts (total : ℚ) (amounts : List ℚ) : List Bool × ℚ := amounts.foldl (payout total) ([], 0)

theorem payouts_snoc (total : ℚ) (amounts : List ℚ) (amount : ℚ) :
    payouts total (amounts ++ [amount]) = payout total (payouts total amounts) amount := by
  simp [payouts, List.foldl_append]

def succeeded : Except Failure Unit → Bool
  | .ok _ => true
  | .error _ => false

def accepted (pool : ShopPool Unit) (j : ℕ) : Bool :=
  match pool.threads[j]? with
  | some (.done r) => succeeded r
  | _ => false

theorem accepted_of_done {pool : ShopPool Unit} {j : ℕ} {r : Except Failure Unit}
    (h : pool.threads[j]? = some (.done r)) : accepted pool j = succeeded r := by
  rw [accepted, h]

def refundPool (x : ℕ) (requests : List RefundRequest) (s : Shop) : ShopPool Unit :=
  ⟨requests.map (RefundRequest.prog x), s⟩

section Turns

variable {x : ℕ} {p : Payment} {s t : Shop} {requests : List RefundRequest}
  {calls : List (Fin requests.length × Except Failure Unit)}

theorem exact_of_turns (hp : Capture x p s) (hreq : ∀ q ∈ requests, Permitted s p q)
    (h : Pool.History Faultless (fun j => RefundRequest.prog x (requests.get j)) s calls t) :
    ∃ a, Exact x p s a t ∧
      payouts p.amount (calls.map fun c => (requests.get c.1).dto.amount) =
        (calls.map fun c => succeeded c.2, a) := by
  refine h.invariant (P := fun calls t => ∃ a, Exact x p s a t ∧
    payouts p.amount (calls.map fun c => (requests.get c.1).dto.amount) =
      (calls.map fun c => succeeded c.2, a)) ?_ ?_
  · have hstart : Exact x p s 0 s := exact_of_history hp Pool.History.nil fun _ hc => (List.not_mem_nil hc).elim
    exact ⟨0, hstart, rfl⟩
  · rintro calls t j r u ⟨a, hex, hpaid⟩ hr
    have hq : Permitted s p (requests.get j) := hreq _ (List.get_mem requests j)
    rw [List.map_append, List.map_append, List.map_singleton, List.map_singleton, payouts_snoc, hpaid]
    rcases hex.step hp hq hr with ⟨hle, rfl, hnext, -⟩ | ⟨hlt, ⟨e, rfl⟩, hnext⟩
    · exact ⟨_, hnext, if_pos hle⟩
    · exact ⟨_, hnext, if_neg (not_le.mpr hlt)⟩

end Turns

/-- Whenever no refund of the payment holds the lock, the refunds that had it have gone, in some order,
as on an account with the amount of the payment; every other one waits or was refused the lock. -/
theorem refunds_serialized (x : ℕ) (p : Payment) (s : Shop) (requests : List RefundRequest)
    (sched : List (ℕ × ShopInput)) (hp : Capture x p s) (hreq : ∀ q ∈ requests, Permitted s p q)
    (ha : (refundPool x requests s).Admits Faultless sched)
    (hfree : ((refundPool x requests s).run sched).state.locks (.payment .refund x) = none) :
    ∃ (order : List (Fin requests.length)) (p' : Payment), order.Nodup ∧
      (∀ j ∈ order, ∃ r, ((refundPool x requests s).run sched).threads[j.val]? = some (.done r)) ∧
      (∀ j, j ∉ order →
        ((refundPool x requests s).run sched).threads[j.val]? = some ((requests.get j).prog x) ∨
        ((refundPool x requests s).run sched).threads[j.val]? =
          some (.done (.error (notAcquired ShopCall Shop (.payment .refund x))))) ∧
      ((refundPool x requests s).run sched).state.payments.find? x = some p' ∧ p'.amount = p.amount ∧
      payouts p.amount (order.map fun j => (requests.get j).dto.amount) =
        (order.map fun j => accepted ((refundPool x requests s).run sched) j.val, p'.refundedAmount) ∧
      p'.refundedAmount ≤ p.amount ∧ (p'.status = .refunded ↔ p'.refundedAmount = p.amount) ∧
      (p'.status = .partiallyRefunded ↔ 0 < p'.refundedAmount ∧ p'.refundedAmount < p.amount) := by
  have hopen : ¬ Held ShopCall (ShopLock.payment .refund x) ((refundPool x requests s).run sched).state :=
    not_not.mpr hfree
  obtain ⟨calls, h⟩ : ∃ calls, Pool.Serialized Faultless (Held ShopCall (ShopLock.payment .refund x))
      (RefundRequest.prog x) requests s ((refundPool x requests s).run sched) calls :=
    Pool.serialized (fun q _ => enters_refund x q) ha hopen
  obtain ⟨a, hex, hpaid⟩ := exact_of_turns hp hreq h.history
  refine ⟨calls.map Prod.fst, _, h.nodup, ?_, ?_, hex.account.find, rfl, ?_, hex.account.le_amount.2,
    statusFor_refunded hp.positive, statusFor_partiallyRefunded hex.account.le_amount⟩
  · intro j hj
    obtain ⟨c, hc, rfl⟩ := List.mem_map.mp hj
    exact ⟨c.2, h.done c hc⟩
  · intro j hj
    rcases h.outside j hj with hwaits | ⟨r, hr, hrefused⟩
    · exact .inl hwaits
    · right
      rcases refuses_withLock hrefused with rfl | ⟨i, t, hok, hf⟩
      · exact hr
      · rw [hok.1] at hf
        cases hf
  · rw [List.map_map, List.map_map]
    have hends : calls.map (fun c => succeeded c.2) = calls.map
        ((fun j : Fin requests.length => accepted ((refundPool x requests s).run sched) j.val) ∘ Prod.fst) := by
      apply List.map_congr_left
      intro c hc
      exact (accepted_of_done (h.done c hc)).symm
    rw [hends] at hpaid
    exact hpaid

/-- Refunds of 60, 60, 60 and 40 of a payment of 100. -/
def fourRefunds : List RefundRequest :=
  [refundOf (60 : ℕ), refundOf (60 : ℕ), refundOf (60 : ℕ), refundOf (40 : ℕ)]

/-- The second one finds the lock taken, the third too little left. -/
def refundTurns : List (ℕ × ShopInput) :=
  ([0, 1] ++ List.replicate 9 0 ++ List.replicate 3 2).map (fun j =>
    (j, { now := 1, reply := { status := .processed, gatewayRefundId := "rfnd_1" } })) ++
  (List.replicate 10 3).map fun j =>
    (j, { now := 2, reply := { status := .processed, gatewayRefundId := "rfnd_2" } })

theorem permitted_fourRefunds (p : Payment) : ∀ q ∈ fourRefunds, Permitted captured100 p q := by
  have h60 := permitted_refundOf captured100 p (n := 60) (by decide)
  have h40 := permitted_refundOf captured100 p (n := 40) (by decide)
  simp only [fourRefunds, List.forall_mem_cons]
  exact ⟨h60, h60, h60, h40, fun _ h => (List.not_mem_nil h).elim⟩

theorem refunds_serialized_four :
    (List.range 4).map (accepted ((refundPool 0 fourRefunds captured100).run refundTurns)) =
        [true, false, false, true] ∧
      ∃ (order : List (Fin fourRefunds.length)) (p' : Payment),
        ((refundPool 0 fourRefunds captured100).run refundTurns).state.payments.find? 0 = some p' ∧
        payouts 100 (order.map fun j => (fourRefunds.get j).dto.amount) =
          (order.map fun j => accepted ((refundPool 0 fourRefunds captured100).run refundTurns) j.val,
            p'.refundedAmount) := by
  refine ⟨by decide +kernel, ?_⟩
  obtain ⟨p, hp, hamount⟩ := capture_captured100
  obtain ⟨order, p', -, -, -, hfind, -, hpaid, -⟩ := refunds_serialized 0 p captured100 fourRefunds
    refundTurns hp (permitted_fourRefunds p) (by decide +kernel) (by decide +kernel)
  rw [hamount] at hpaid
  exact ⟨order, p', hfind, hpaid⟩

end ElectronicsCart.Payments
