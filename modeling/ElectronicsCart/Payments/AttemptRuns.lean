import ElectronicsCart.Payments.Service
import ElectronicsCart.Core.Journal

/-!
# Attempts of an authorization

`authorize` reads the next attempt number and writes the attempt on each of its branches, or in its
`catch` block.  No attempt is written when the number cannot be read, when the gateway refuses (the
promise of `markFailed` is not awaited inside the `try`), and when the write itself fails.
-/

namespace ElectronicsCart.Payments

open Interleaving Relational

/-- The attempts of a payment that are not deleted. -/
def attemptsOf (id : ℕ) (s : Shop) : List PaymentAttempt :=
  s.attempts.rows.filter fun a => a.paymentId == id && !a.deleted

def DistinctNumbers (id : ℕ) (s : Shop) : Prop :=
  ((attemptsOf id s).map PaymentAttempt.attemptNumber).Nodup

/-- The call reads the next attempt number; `authorize` makes it once its transition is allowed. -/
def readsNumber (c : Entry ShopCall ShopInput Shop) : Bool :=
  match c.label with
  | .payment (.nextAttemptNumber _) => true
  | _ => false

def writesAttempt (c : Entry ShopCall ShopInput Shop) : Bool :=
  match c.label with
  | .payment (.createAttempt _ _) => true
  | _ => false

/-- The gateway answers that the authorization failed, or without a payment id. -/
def refuses (c : Entry ShopCall ShopInput Shop) : Bool :=
  match c.label with
  | .payment (.gateway _) => c.input.reply.thrown.isNone && (c.input.reply.status == .failed ||
      c.input.reply.status != .pending && c.input.reply.gatewayPaymentId == "")
  | _ => false

/-- The next number is read, the gateway does not refuse, and a write of the attempt goes through. -/
structure Answered (calls : List (Entry ShopCall ShopInput Shop)) : Prop where
  number : ∀ c ∈ calls, readsNumber c = true → c.input.fails = false
  gateway : ∀ c ∈ calls, refuses c = false
  attempt : ¬ ∀ c ∈ calls, writesAttempt c = true → c.input.fails = true

variable {s s' : Shop} {id k : ℕ} {status : PaymentStatus} {message : Option String}

/-! ### The attempt -/

theorem attemptsOf_of_eq (h : s'.attempts = s.attempts) : attemptsOf id s' = attemptsOf id s := by
  rw [attemptsOf, attemptsOf, h]

theorem insertAttempt_eq_ok {u : Unit} (h : insertAttempt id k status message s = .ok (u, s')) :
    (∀ a ∈ attemptsOf id s, a.attemptNumber ≠ k) ∧ ∃ a : PaymentAttempt, a.attemptNumber = k ∧
      attemptsOf id s' = attemptsOf id s ++ [a] := by
  simp only [insertAttempt, bind_eq_ok, check_eq_ok, pure_eq_ok, Prod.mk.injEq, true_and,
    Bool.and_eq_true, List.all_eq_true, Bool.or_eq_true, bne_iff_ne] at h
  obtain ⟨-, ⟨-, hfree⟩, rfl⟩ := h
  refine ⟨fun a ha => ?_, ⟨s.attempts.next, id, k, status, message, false⟩, rfl, ?_⟩
  · obtain ⟨hm, hp⟩ := List.mem_filter.mp ha
    simp only [Bool.and_eq_true, beq_iff_eq, Bool.not_eq_true'] at hp
    rcases hfree a hm with (hd | hne) | hne
    · rw [hp.2] at hd
      cases hd
    · exact absurd hp.1 hne
    · exact hne
  · simp [attemptsOf, Table.insert, List.filter_append]

theorem lt_nextNumber {a : PaymentAttempt} (ha : a ∈ attemptsOf id s) :
    a.attemptNumber < ((attemptsOf id s).map PaymentAttempt.attemptNumber).foldr max 0 + 1 := by
  generalize attemptsOf id s = l at ha
  induction l with
  | nil => cases ha
  | cons b l ih =>
    simp only [List.map_cons, List.foldr_cons]
    rcases List.mem_cons.mp ha with rfl | ha
    · have hle := le_max_left a.attemptNumber ((l.map PaymentAttempt.attemptNumber).foldr max 0)
      omega
    · have hlt := ih ha
      have hle := le_max_right b.attemptNumber ((l.map PaymentAttempt.attemptNumber).foldr max 0)
      omega

theorem insertAttempt_accepted {number : ℕ} {e : Failure}
    (hfree : ∀ a ∈ attemptsOf id s, a.attemptNumber < number) (hpos : 0 < number) :
    insertAttempt id number status message s ≠ .error e := by
  have hcheck : (decide (0 < number) && s.attempts.rows.all fun a =>
      a.deleted || a.paymentId != id || a.attemptNumber != number) = true := by
    simp only [Bool.and_eq_true, decide_eq_true_eq, List.all_eq_true, Bool.or_eq_true, bne_iff_ne]
    refine ⟨hpos, fun a ha => ?_⟩
    by_cases hp : a.paymentId = id ∧ a.deleted = false
    · have hlt := hfree a (List.mem_filter.mpr ⟨ha, by simp [hp]⟩)
      exact .inr (by omega)
    · by_cases hd : a.deleted = true
      · exact .inl (.inl hd)
      · exact .inl (.inr fun hid => hp ⟨hid, by simpa using hd⟩)
  intro h
  rw [insertAttempt, hcheck] at h
  cases h

/-! ### What the calls say of the attempt -/

def plainCall : ShopCall → Bool
  | .payment (.nextAttemptNumber _) => false
  | .payment (.createAttempt _ _) => false
  | .payment (.gateway _) => false
  | _ => true

variable {l : ShopCall} {i : ShopInput} {c : Entry ShopCall ShopInput Shop}

theorem readsNumber_of_plain (h : plainCall c.label = true) : readsNumber c = false := by
  unfold readsNumber
  split
  next hl =>
    rw [hl] at h
    cases h
  next => rfl

theorem writesAttempt_of_plain (h : plainCall c.label = true) : writesAttempt c = false := by
  unfold writesAttempt
  split
  next hl =>
    rw [hl] at h
    cases h
  next => rfl

theorem refuses_of_plain (h : plainCall c.label = true) : refuses c = false := by
  unfold refuses
  split
  next hl =>
    rw [hl] at h
    cases h
  next => rfl

variable {before : List PaymentAttempt} {number : ℕ} {t : Journaled ShopCall ShopInput Shop}

structure Unattempted (id : ℕ) (before : List PaymentAttempt)
    (t : Journaled ShopCall ShopInput Shop) : Prop where
  attempts : attemptsOf id t.state = before
  number : ∀ c ∈ t.journal, readsNumber c = true → c.input.fails = false
  gateway : ∀ c ∈ t.journal, refuses c = false
  attempt : ∀ c ∈ t.journal, writesAttempt c = true → c.input.fails = true

structure Attempted (id number : ℕ) (before : List PaymentAttempt)
    (t : Journaled ShopCall ShopInput Shop) : Prop where
  attempts : ∃ a : PaymentAttempt, a.attemptNumber = number ∧ attemptsOf id t.state = before ++ [a]
  answered : Answered t.journal

structure Refused (id : ℕ) (before : List PaymentAttempt)
    (t : Journaled ShopCall ShopInput Shop) : Prop where
  attempts : attemptsOf id t.state = before
  gateway : ∃ c ∈ t.journal, refuses c = true

structure Unasked (id : ℕ) (before : List PaymentAttempt)
    (t : Journaled ShopCall ShopInput Shop) : Prop where
  attempts : attemptsOf id t.state = before
  calls : ∀ c ∈ t.journal, plainCall c.label = true

/-- At most one attempt was added, with a number of its own; exactly one if the number was asked for
and the calls were answered. -/
structure Accounted (id : ℕ) (before : List PaymentAttempt)
    (t : Journaled ShopCall ShopInput Shop) : Prop where
  grows : attemptsOf id t.state = before ∨ ∃ a : PaymentAttempt,
    (∀ b ∈ before, b.attemptNumber < a.attemptNumber) ∧ attemptsOf id t.state = before ++ [a]
  account : t.journal.any readsNumber = true →
    ((∃ a, attemptsOf id t.state = before ++ [a]) ↔ Answered t.journal)

theorem not_added (h : attemptsOf id t.state = before) : ¬ ∃ a, attemptsOf id t.state = before ++ [a] := by
  rintro ⟨a, ha⟩
  rw [h] at ha
  simp at ha

theorem Unattempted.accounted (h : Unattempted id before t) : Accounted id before t :=
  ⟨.inl h.attempts, fun _ => iff_of_false (not_added h.attempts) fun hans => hans.attempt h.attempt⟩

theorem Attempted.accounted (hfree : ∀ b ∈ before, b.attemptNumber < number)
    (h : Attempted id number before t) : Accounted id before t := by
  obtain ⟨a, rfl, ha⟩ := h.attempts
  exact ⟨.inr ⟨a, hfree, ha⟩, fun _ => iff_of_true ⟨a, ha⟩ h.answered⟩

theorem Refused.accounted (h : Refused id before t) : Accounted id before t := by
  refine ⟨.inl h.attempts, fun _ => iff_of_false (not_added h.attempts) fun hans => ?_⟩
  obtain ⟨c, hc, hr⟩ := h.gateway
  rw [hans.gateway c hc] at hr
  cases hr

theorem Unasked.accounted (h : Unasked id before t) : Accounted id before t := by
  refine ⟨.inl h.attempts, fun hany => ?_⟩
  obtain ⟨c, hc, hr⟩ := List.any_eq_true.mp hany
  rw [readsNumber_of_plain (h.calls c hc)] at hr
  cases hr

theorem Accounted.distinct (h : Accounted id before t)
    (hb : (before.map PaymentAttempt.attemptNumber).Nodup) : DistinctNumbers id t.state := by
  unfold DistinctNumbers
  rcases h.grows with hsame | ⟨a, hfree, hadd⟩
  · rw [hsame]
    exact hb
  · rw [hadd, List.map_append, List.map_cons, List.map_nil]
    refine List.Nodup.append hb (List.nodup_singleton _) ?_
    intro x hx hx'
    obtain ⟨b, hm, rfl⟩ := List.mem_map.mp hx
    have hlt := hfree b hm
    have heq := List.mem_singleton.mp hx'
    omega

/-! A call that is none of the three keeps what is known. -/

theorem Unasked.record (h : Unasked id before t) (hl : plainCall l = true)
    (hs : attemptsOf id s' = attemptsOf id t.state) : Unasked id before (t.record 0 l i s') := by
  refine ⟨hs.trans h.attempts, ?_⟩
  rw [Journaled.journal_record, List.forall_mem_cons]
  exact ⟨hl, h.calls⟩

theorem Unattempted.enter (h : Unattempted id before t) (hs : attemptsOf id s' = attemptsOf id t.state)
    (hn : readsNumber ⟨0, l, i, t.state⟩ = true → i.fails = false)
    (hg : refuses ⟨0, l, i, t.state⟩ = false)
    (hw : writesAttempt ⟨0, l, i, t.state⟩ = true → i.fails = true) :
    Unattempted id before (t.record 0 l i s') := by
  refine ⟨hs.trans h.attempts, ?_, ?_, ?_⟩ <;> rw [Journaled.journal_record, List.forall_mem_cons]
  · exact ⟨hn, h.number⟩
  · exact ⟨hg, h.gateway⟩
  · exact ⟨hw, h.attempt⟩

theorem Unattempted.record (h : Unattempted id before t) (hl : plainCall l = true)
    (hs : attemptsOf id s' = attemptsOf id t.state) : Unattempted id before (t.record 0 l i s') := by
  refine h.enter hs (fun hr => ?_) (refuses_of_plain hl) fun hw => ?_
  · rw [readsNumber_of_plain hl] at hr
    cases hr
  · rw [writesAttempt_of_plain hl] at hw
    cases hw

theorem Answered.enter {calls : List (Entry ShopCall ShopInput Shop)} (h : Answered calls)
    (hn : readsNumber c = false) (hg : refuses c = false) : Answered (c :: calls) := by
  refine ⟨?_, ?_, fun hall => ?_⟩
  · rw [List.forall_mem_cons]
    refine ⟨fun hr => ?_, h.number⟩
    rw [hn] at hr
    cases hr
  · rw [List.forall_mem_cons]
    exact ⟨hg, h.gateway⟩
  · exact h.attempt fun c hc => hall c (List.mem_cons_of_mem _ hc)

theorem Attempted.record (h : Attempted id number before t) (hl : plainCall l = true)
    (hs : attemptsOf id s' = attemptsOf id t.state) : Attempted id number before (t.record 0 l i s') := by
  obtain ⟨a, ha, hrows⟩ := h.attempts
  exact ⟨⟨a, ha, hs.trans hrows⟩,
    h.answered.enter (readsNumber_of_plain hl) (refuses_of_plain hl)⟩

theorem Refused.record (h : Refused id before t) (hs : attemptsOf id s' = attemptsOf id t.state) :
    Refused id before (t.record 0 l i s') := by
  obtain ⟨c, hc, hr⟩ := h.gateway
  exact ⟨hs.trans h.attempts, c, List.mem_cons_of_mem _ hc, hr⟩

theorem Accounted.record (h : Accounted id before t) (hl : plainCall l = true)
    (hs : attemptsOf id s' = attemptsOf id t.state) : Accounted id before (t.record 0 l i s') := by
  have hanswered : Answered (t.record 0 l i s').journal ↔ Answered t.journal := by
    constructor
    · intro ha
      refine ⟨fun c hc => ha.number c (List.mem_cons_of_mem _ hc),
        fun c hc => ha.gateway c (List.mem_cons_of_mem _ hc), fun hall => ha.attempt ?_⟩
      rw [Journaled.journal_record, List.forall_mem_cons]
      refine ⟨fun hw => ?_, hall⟩
      rw [writesAttempt_of_plain hl] at hw
      cases hw
    · exact fun ha => ha.enter (readsNumber_of_plain hl) (refuses_of_plain hl)
  refine ⟨?_, fun hany => ?_⟩
  · rw [Journaled.state_record, hs]
    exact h.grows
  · rw [Journaled.journal_record, List.any_cons, readsNumber_of_plain hl, Bool.false_or] at hany
    rw [hanswered, Journaled.state_record, hs]
    exact h.account hany

/-! ### The branches -/

abbrev Authorizing {α : Type} (Q : Except Failure α → Journaled ShopCall ShopInput Shop → Prop)
    (p : ShopProg α) (t : Journaled ShopCall ShopInput Shop) : Prop :=
  Traced (fun _ _ _ => True) Q p t

/-- A call that leaves the attempts alone. -/
def Minor {α : Type} (p : ShopProg α) : Prop :=
  p.Every (fun _ _ _ => True) fun l _ s s' => plainCall l = true ∧ s'.attempts = s.attempts

theorem minor_atomic {α : Type} {f : ShopInput → Shop → Except Failure (α × Shop)}
    (hl : plainCall l = true) (h : ∀ i s b s', f i s = .ok (b, s') → s'.attempts = s.attempts) :
    Minor (atomic l f) :=
  every_atomic (fun _ _ _ => ⟨hl, rfl⟩) fun i s b s' _ _ hs => ⟨hl, h i s b s' hs⟩

theorem minor_updatePayment {read : PaymentStatus} {write : PaymentWrite} :
    Minor (updatePayment id read write) := by
  refine minor_atomic rfl fun i s b s' h => ?_
  simp only [writePayment, bind_eq_ok, check_eq_ok, pure_eq_ok] at h
  obtain ⟨_, -, -, -, h⟩ := h
  obtain ⟨-, rfl⟩ := Prod.mk.inj h
  rfl

theorem minor_createTransaction {txType : PaymentTxType} {amount : ℚ} {reference : Option String} :
    Minor (createTransaction id txType amount reference) := by
  refine minor_atomic rfl fun i s b s' h => ?_
  obtain ⟨-, rfl⟩ := Prod.mk.inj (Except.ok.inj h)
  rfl

theorem minor_audit {action : String} {actorId : Option ℕ} {read written : Option PaymentStatus} :
    Minor (audit id action actorId read written) := by
  refine minor_atomic rfl fun i s b s' h => ?_
  obtain ⟨-, rfl⟩ := Prod.mk.inj (Except.ok.inj h)
  rfl

theorem minor_createEvent {event : String} : Minor (createEvent id event) := by
  refine minor_atomic rfl fun i s b s' h => ?_
  obtain ⟨-, rfl⟩ := Prod.mk.inj (Except.ok.inj h)
  rfl

theorem minor_markFailed {payment : Payment} {actorId : ℕ} {reason : String} :
    Minor (markFailed payment actorId reason) := by
  refine Prog.Every.bind minor_updatePayment fun _ => ?_
  exact Prog.Every.bind minor_audit fun _ => trivial

variable {α β : Type} {Q : Except Failure α → Journaled ShopCall ShopInput Shop → Prop}

theorem authorizing_minorBind {P : Journaled ShopCall ShopInput Shop → Prop} {p : ShopProg β}
    {k : β → ShopProg α} (hp : Minor p)
    (hP : ∀ {u l i s'}, P u → plainCall l = true → attemptsOf id s' = attemptsOf id u.state →
      P (u.record 0 l i s'))
    (ht : P t) (hk : ∀ b u, P u → Authorizing Q (k b) u) (herr : ∀ e u, P u → Q (.error e) u) :
    Authorizing Q (p.bind k) t := by
  have hstep : Authorizing (fun _ => P) p t :=
    Traced.of_every hp (fun _ _ _ _ hu h => hP hu h.1 (attemptsOf_of_eq h.2)) ht
  exact Traced.bind hstep (fun b u hu => hk b u hu) fun e u hu => herr e u hu

section Branches

variable {payment : Payment} {actorId : ℕ} (hfree : ∀ a ∈ before, a.attemptNumber < number)
  (hpos : 0 < number)

include hfree hpos in
theorem authorizing_createAttempt {k : Unit → ShopProg α} (ht : Unattempted id before t)
    (hk : ∀ u, Attempted id number before u → Authorizing Q (k ()) u)
    (herr : ∀ e u, Unattempted id before u → Q (.error e) u) :
    Authorizing Q ((createAttempt id number status message).bind k) t := by
  refine Traced.atomicBind (fun i _ s' _ hf hs => hk _ ?_) fun i e _ he => herr e _ ?_
  · obtain ⟨-, a, ha, hrows⟩ := insertAttempt_eq_ok hs
    refine ⟨⟨a, ha, hrows.trans (congrArg (· ++ [a]) ht.attempts)⟩, ?_, ?_, fun hall => ?_⟩
    · rw [Journaled.journal_record, List.forall_mem_cons]
      exact ⟨fun _ => hf, ht.number⟩
    · rw [Journaled.journal_record, List.forall_mem_cons]
      exact ⟨rfl, ht.gateway⟩
    · have hfails := hall _ List.mem_cons_self rfl
      rw [hf] at hfails
      cases hfails
  · -- the number is free, so only the database can have refused
    have hfails : i.fails = true := by
      rcases he with hf | he
      · exact hf
      · exact absurd he (insertAttempt_accepted (ht.attempts.symm ▸ hfree) hpos)
    exact ht.enter rfl (fun h => nomatch h) rfl fun _ => hfails

theorem authorizing_again {k : Unit → ShopProg α} (ht : Attempted id number before t)
    (herr : ∀ e u, Attempted id number before u → Q (.error e) u) :
    Authorizing Q ((createAttempt id number status message).bind k) t := by
  obtain ⟨a, ha, hrows⟩ := ht.attempts
  refine Traced.atomicBind (fun i _ s' _ hf hs => ?_) fun i e _ he => herr e _ ?_
  · obtain ⟨hnew, -⟩ := insertAttempt_eq_ok hs
    exact absurd ha (hnew a (hrows ▸ List.mem_append_right _ List.mem_cons_self))
  · exact ⟨⟨a, ha, hrows⟩, ht.answered.enter rfl rfl⟩

/-- The provider's answer ends the authorization without an attempt. -/
def refusing (r : ShopReply) : Bool :=
  r.status == .failed || r.status != .pending && r.gatewayPaymentId == ""

def GatewayAnswered (id : ℕ) (before : List PaymentAttempt) (r : Except Failure ShopReply)
    (t : Journaled ShopCall ShopInput Shop) : Prop :=
  match r with
  | .ok a => if refusing a = true then Refused id before t else Unattempted id before t
  | .error _ => Unattempted id before t

theorem authorizing_gatewayCall {request : GatewayRequest} (ht : Unattempted id before t) :
    Authorizing (GatewayAnswered id before) (gatewayCall request) t := by
  refine Traced.call fun i _ => ?_
  cases hthrown : i.reply.thrown with
  | some thrown =>
    refine ht.enter rfl (fun h => nomatch h) ?_ fun h => nomatch h
    simp [refuses, hthrown]
  | none =>
    dsimp only
    have hrefuses : refuses ⟨0, .payment (.gateway request), i, t.state⟩ = refusing i.reply := by
      simp [refuses, refusing, hthrown]
    simp only [GatewayAnswered]
    cases hr : refusing i.reply with
    | true => exact ⟨ht.attempts, _, List.mem_cons_self, hrefuses.trans hr⟩
    | false => exact ht.enter rfl (fun h => nomatch h) (hrefuses.trans hr) fun h => nomatch h

theorem authorizing_withRetry {request : GatewayRequest} (left : ℕ) (ht : Unattempted id before t) :
    Authorizing (GatewayAnswered id before) (withRetry (gatewayCall request) left) t := by
  induction left generalizing t with
  | zero => exact authorizing_gatewayCall ht
  | succ left ih =>
    refine Traced.attemptBind (authorizing_gatewayCall ht) fun r u hu => ?_
    cases r with
    | ok a => exact Traced.done hu
    | error e =>
      show Authorizing (GatewayAnswered id before)
        (if retryable e then withRetry (gatewayCall request) left else throw e) u
      split
      · exact ih hu
      · exact Traced.done hu

/-- How the `try` block ends. -/
def Tried (id number : ℕ) (before : List PaymentAttempt) (r : Except Failure (Option Payment))
    (t : Journaled ShopCall ShopInput Shop) : Prop :=
  match r with
  | .ok (some _) => Attempted id number before t
  | .ok none => Refused id before t
  | .error _ => Attempted id number before t ∨ Unattempted id before t

include hfree hpos in
theorem authorizing_gateway (hid : payment.id = id) (ht : Unattempted id before t) :
    Authorizing (Tried id number before) (authorizeWithGateway payment actorId number) t := by
  subst hid
  have hlate : ∀ e u, Attempted payment.id number before u →
      Tried payment.id number before (.error e) u := fun _ _ => .inl
  have hearly : ∀ e u, Unattempted payment.id before u →
      Tried payment.id number before (.error e) u := fun _ _ => .inr
  refine Traced.orThrowBind (fun _ _ => ?_) fun _ => hearly _ _ ht
  refine Traced.bind (authorizing_withRetry 2 ht) (fun result u hu => ?_) fun e u hu => hearly e u hu
  rw [GatewayAnswered] at hu
  split
  next hstatus =>
    rw [if_neg (by simp [refusing, hstatus])] at hu
    exact authorizing_createAttempt hfree hpos hu (fun v hv => Traced.done hv) hearly
  next hstatus =>
    split
    next hfailed =>
      rw [if_pos (by simpa [refusing, hstatus] using hfailed)] at hu
      exact Traced.done hu
    next hfailed =>
      rw [if_neg (by simpa [refusing, hstatus] using hfailed)] at hu
      refine authorizing_minorBind minor_updatePayment Unattempted.record hu (fun updated v hv => ?_)
        hearly
      refine authorizing_minorBind minor_createTransaction Unattempted.record hv (fun _ w hw => ?_)
        hearly
      refine authorizing_createAttempt hfree hpos hw (fun x hx => ?_) hearly
      refine authorizing_minorBind minor_audit Attempted.record hx (fun _ y hy => ?_) hlate
      exact authorizing_minorBind minor_createEvent Attempted.record hy (fun _ z hz => Traced.done hz)
        hlate

end Branches

theorem authorizing_payment {payment : Payment} {actorId : ℕ} (ht : Unasked payment.id before t) :
    Authorizing (fun _ => Accounted payment.id before) (authorizePayment payment actorId) t := by
  have hstart : Unattempted payment.id before t := by
    refine ⟨ht.attempts, fun c hc hr => ?_, fun c hc => refuses_of_plain (ht.calls c hc), fun c hc hw => ?_⟩
    · rw [readsNumber_of_plain (ht.calls c hc)] at hr
      cases hr
    · rw [writesAttempt_of_plain (ht.calls c hc)] at hw
      cases hw
  refine Traced.queryBind (fun i _ hf => ?_) fun i _ hf => ?_
  · have hu : Unattempted payment.id before
        (t.record 0 (.payment (.nextAttemptNumber payment.id)) i t.state) :=
      hstart.enter rfl (fun _ => hf) rfl fun h => nomatch h
    have hfree : ∀ a ∈ before, a.attemptNumber <
        ((attemptsOf payment.id t.state).map PaymentAttempt.attemptNumber).foldr max 0 + 1 := by
      intro a ha
      exact lt_nextNumber (ht.attempts.symm ▸ ha)
    rw [Prog.tryCatch_eq, Prog.bind_eq, Prog.bind_assoc]
    refine Traced.attemptBind (authorizing_gateway hfree (Nat.succ_pos _) rfl hu) fun r v hv => ?_
    match r with
    | .ok (some updated) => exact Traced.done (Attempted.accounted hfree hv)
    | .ok none =>
      refine (Traced.of_every minor_markFailed (P := Refused payment.id before) ?_ hv).mono ?_
      · exact fun _ _ _ _ hw h => hw.record (attemptsOf_of_eq h.2)
      · exact fun _ _ hw => hw.accounted
    | .error e =>
      rw [Prog.orElse_error, Prog.bind_eq, Prog.bind_assoc]
      rcases hv with hv | hv
      · exact authorizing_again hv fun _ _ hw => hw.accounted hfree
      · exact authorizing_createAttempt hfree (Nat.succ_pos _) hv
          (fun w hw => Traced.done (hw.accounted hfree)) fun _ _ hw => hw.accounted
  · refine ⟨.inl ht.attempts, fun _ => ?_⟩
    refine iff_of_false (not_added ht.attempts) fun hans => ?_
    have hanswered := hans.number _ List.mem_cons_self rfl
    rw [hf] at hanswered
    cases hanswered

/-! ### Sequences of calls -/

/-- One call of `authorize` on the payment. -/
structure AuthorizeCall where
  token : ℕ
  actorId : ℕ
  asAdmin : Bool
deriving DecidableEq, Repr

def AuthorizeCall.prog (paymentId : ℕ) (q : AuthorizeCall) : ShopProg Payment :=
  authorize q.token paymentId q.actorId q.asAdmin

theorem authorizing_call (id : ℕ) (q : AuthorizeCall) (s : Shop) :
    Authorizing (fun _ => Accounted id (attemptsOf id s)) (q.prog id) ⟨s, []⟩ := by
  have hstart : Unasked id (attemptsOf id s) ⟨s, []⟩ := ⟨rfl, fun _ h => nomatch h⟩
  refine Traced.withLock_blind (P := Unasked id (attemptsOf id s)) (fun u hu => ?_) ?_ ?_ ?_ ?_ ?_
  · simp only [requirePayment, Prog.bind_eq, Prog.bind_assoc]
    refine Traced.queryBind (fun i _ _ => ?_) fun i _ _ => (hu.record rfl rfl).accounted
    have hv := hu.record (l := .payment (.requirePayment (some .authorize) id)) (i := i) rfl rfl
    refine Traced.orThrowBind (fun payment hp => ?_) fun _ => hv.accounted
    refine Traced.ensureBind (fun _ => ?_) fun _ => hv.accounted
    refine Traced.ensureBind (fun _ => ?_) fun _ => hv.accounted
    have hid : payment.id = id := (Table.find?_mem (Option.filter_eq_some_iff.mp hp).1).2
    subst hid
    exact authorizing_payment hv
  · exact fun i m => hstart.record rfl rfl
  · exact fun e i => (hstart.record rfl rfl).accounted
  · exact fun r i m u hu => hu.record rfl rfl
  · exact fun r i u hu => hu.record rfl rfl
  · exact fun e r i u hu => hu.record rfl rfl

/-- A call of `authorize` that goes past the transition check adds exactly one attempt if and only
if the next number was read, the gateway did not refuse and a write of the attempt went through; the
numbers of the payment are distinct after every sequence of calls. -/
theorem authorize_adds_one_attempt_iff (id : ℕ) (s s' : Shop)
    (sessions : List (Pool.Session AuthorizeCall ShopInput Shop))
    (h : Pool.Sessions (AuthorizeCall.prog id) s sessions s') (hs : DistinctNumbers id s) :
    DistinctNumbers id s' ∧ ∀ x ∈ sessions,
      (x.calls (AuthorizeCall.prog id)).any readsNumber = true →
        ((∃ a, attemptsOf id (x.after (AuthorizeCall.prog id)) = attemptsOf id x.before ++ [a]) ↔
          Answered (x.calls (AuthorizeCall.prog id))) := by
  have hcall : ∀ (q : AuthorizeCall) (t : Shop) (inputs : List ShopInput) (r : Except Failure Payment),
      (Pool.solo (q.prog id) t inputs).result? = some r → Accounted id (attemptsOf id t)
        ⟨(Pool.solo (q.prog id) t inputs).state, Pool.callsOf (q.prog id) t inputs⟩ :=
    fun q t inputs r hr =>
      solo_traced (authorizing_call id q t) (Pool.soloAdmits_of_forall fun _ _ _ _ => trivial) hr
  refine ⟨h.invariant hs fun q t inputs r hr ht => (hcall q t inputs r hr).distinct ht, ?_⟩
  intro x hx hany
  obtain ⟨r, hr⟩ := h.ended hx
  exact (hcall x.request x.before x.inputs r hr).account hany

/-- A pending payment of customer 7, with its gateway order. -/
def pendingPayment : Shop where
  payments := Table.empty.insert fun n =>
    { id := n, orderId := 0, customerId := some 7, gatewayId := 0, gatewayOrderId := some "order_1",
      amount := 100, currency := "INR" }

/-- The answer of the gateway is read by the fourth call. -/
def gatewayReplies (reply : ShopReply) (n : ℕ) : List ShopInput :=
  List.replicate 3 { reply := {} } ++ [{ reply := reply }] ++ List.replicate n { reply := {} }

/-- The payment after a call whose gateway answers so. -/
def afterAuthorize (token : ℕ) (reply : ShopReply) (n : ℕ) (s : Shop) :
    ShopPool Payment :=
  Pool.solo (AuthorizeCall.prog 0 ⟨token, 7, false⟩) s (gatewayReplies reply n)

/-- The gateway first says pending and then authorizes: two attempts. -/
theorem authorize_pending_then_authorized :
    let first := (afterAuthorize 1 {} 2 pendingPayment).state
    let second := (afterAuthorize 2 { status := .authorized, gatewayPaymentId := "pay_1" } 6 first).state
    DistinctNumbers 0 second ∧ ∃ a, attemptsOf 0 second = attemptsOf 0 first ++ [a] := by
  obtain ⟨r, hr⟩ := Option.isSome_iff_exists.mp
    (by decide +kernel : (afterAuthorize 1 {} 2 pendingPayment).result?.isSome = true)
  obtain ⟨r', hr'⟩ := Option.isSome_iff_exists.mp
    (by decide +kernel : (afterAuthorize 2 { status := .authorized, gatewayPaymentId := "pay_1" } 6
      (afterAuthorize 1 {} 2 pendingPayment).state).result?.isSome = true)
  obtain ⟨hdistinct, hadds⟩ := authorize_adds_one_attempt_iff 0 pendingPayment _ _
    (.snoc (.snoc .nil hr) hr') List.nodup_nil
  refine ⟨hdistinct, (hadds _ (List.mem_append_right _ List.mem_cons_self) (by decide +kernel)).mpr ?_⟩
  exact ⟨by decide +kernel, by decide +kernel, by decide +kernel⟩

/-- The gateway refuses: the call passes the transition check and adds no attempt. -/
theorem refused_authorization_unrecorded :
    ¬ ∀ (id : ℕ) (s s' : Shop) (sessions : List (Pool.Session AuthorizeCall ShopInput Shop)),
      Pool.Sessions (AuthorizeCall.prog id) s sessions s' → DistinctNumbers id s →
        ∀ x ∈ sessions, (x.calls (AuthorizeCall.prog id)).any readsNumber = true →
          ∃ a, attemptsOf id (x.after (AuthorizeCall.prog id)) = attemptsOf id x.before ++ [a] := by
  intro h
  obtain ⟨r, hr⟩ := Option.isSome_iff_exists.mp
    (by decide +kernel : (afterAuthorize 1 { status := .failed } 3 pendingPayment).result?.isSome = true)
  obtain ⟨a, ha⟩ := h 0 pendingPayment _ _ (.snoc .nil hr) List.nodup_nil _ List.mem_cons_self
    (by decide +kernel)
  have hnone : (attemptsOf 0 (afterAuthorize 1 { status := .failed } 3 pendingPayment).state).length = 0 := by
    decide +kernel
  have hlength := congrArg List.length ha
  rw [List.length_append, List.length_singleton] at hlength
  exact absurd (hlength.symm.trans hnone) (by omega)

end ElectronicsCart.Payments
