import ElectronicsCart.Core.Journal
import ElectronicsCart.Lib.Trails
import ElectronicsCart.Orders.FailedCheckouts
import ElectronicsCart.Orders.StatusEffects

/-!
# The status of an order and its history

Every write of an order's status is unconditional and records the status that its caller has read
before; a checkout reads none and takes its order for pending.  The history is a faithful trail as
long as that is the stored one; a compensation that passes `pending` for an order whose
confirmation was already written breaks it.  In the same way a cancelled order comes back when a
call that read it before goes on to write.
-/

namespace ElectronicsCart.Orders

open Interleaving Relational Payments Trails

inductive OrderRequest where
  | checkout (cfg : PaymentConfig) (token userId : ℕ) (dto : CheckoutDto)
  | capture (cfg : PaymentConfig) (token id actorId : ℕ) (asAdmin : Bool)
  | cancel (token orderId userId : ℕ) (dto : CancelOrderDto) (isAdmin : Bool)
  | createFulfillment (token orderId : ℕ) (dto : CreateFulfillmentDto)
  /-- the last step of a checkout by itself -/
  | confirmStep (cfg : PaymentConfig) (ctx : CheckoutContext)
  | confirmPendingOrder (orderId : ℕ)

def OrderRequest.prog : OrderRequest → ShopProg Unit
  | .checkout cfg token userId dto => (Orders.checkout cfg token userId dto).bind fun _ => pure ()
  | .capture cfg token id actorId asAdmin =>
    (Payments.capture cfg token id actorId asAdmin).bind fun _ => pure ()
  | .cancel token orderId userId dto isAdmin => Orders.cancel token orderId userId dto isAdmin
  | .createFulfillment token orderId dto =>
    (Orders.createFulfillment token orderId dto).bind fun _ => pure ()
  | .confirmStep cfg ctx => Orders.confirmStep cfg ctx
  | .confirmPendingOrder orderId => confirmPendingOrderAfterCapture orderId

/-- Requests that run side by side from state `s`. -/
def orderPool (requests : List OrderRequest) (s : Shop) : ShopPool Unit :=
  ⟨requests.map OrderRequest.prog, s⟩

/-- No call takes a cancelled order to another status. -/
def leavesLive (l : ShopCall) : Bool :=
  (moveOf l).all fun m => m.after == .cancelled || m.before != .cancelled

theorem leavesLive_of_capturing {l : ShopCall} (h : capturing l = true) : leavesLive l = true := by
  unfold leavesLive moveOf
  split <;> first | rfl | cases h

theorem calls_request (r : OrderRequest) : Calls leavesLive r.prog := by
  have hroutine : ∀ l, routine l = true → leavesLive l = true :=
    fun l h => leavesLive_of_capturing (capturing_of_routine h)
  have hquiet : ∀ l, quiet l = true → leavesLive l = true :=
    fun l h => hroutine l (routine_of_quiet h)
  cases r with
  | checkout cfg token userId dto =>
    exact (calls_checkout (fun _ h => leavesLive_of_capturing (capturing_of_charging h))
      (fun _ => rfl) (fun _ => rfl) cfg token userId dto).bind fun _ => .pure _
  | capture cfg token id actorId asAdmin =>
    exact ((calls_capture cfg token id actorId asAdmin).mono
      fun _ h => leavesLive_of_capturing (capturing_of_settling h)).bind fun _ => .pure _
  | cancel token orderId userId dto isAdmin =>
    exact calls_cancelRequest hquiet (fun _ _ => rfl) token orderId userId dto isAdmin
  | createFulfillment token orderId dto =>
    exact (calls_createFulfillment hquiet (fun _ => rfl) token orderId dto).bind fun _ => .pure _
  | confirmStep cfg ctx =>
    exact calls_confirmStep (fun l h => hroutine l (routine_of_amending h)) (fun _ => rfl) cfg ctx
  | confirmPendingOrder orderId => exact calls_confirmPendingOrder orderId rfl rfl

/-! ### What a request takes a status for -/

abbrev ShopEntry := Entry ShopCall ShopInput Shop

abbrev ShopJournal := Journaled ShopCall ShopInput Shop

def readsOrder (orderId : ℕ) : ShopCall → Bool
  | .order (.findOrderById id) => id == orderId
  | .payment (.findOrder id) => id == orderId
  | _ => false

def storedStatus (orderId : ℕ) (s : Shop) : Option OrderStatus :=
  (s.orders.find? orderId).map Order.status

/-- The status of the order when the last of the calls that read it did; they come newest first. -/
def lastRead (orderId : ℕ) (calls : List ShopEntry) : Option OrderStatus :=
  (calls.find? fun e => readsOrder orderId e.label).bind fun e => storedStatus orderId e.before

/-- The requests that read the order whose status they write. -/
def OrderRequest.reads : OrderRequest → Bool
  | .checkout _ _ _ _ => false
  | .confirmStep _ _ => false
  | _ => true

/-- What request `j` takes the status of the order for: the one that it has read last, or `pending`
when it reads none. -/
def taken (requests : List OrderRequest) (j orderId : ℕ) (t : ShopJournal) : Option OrderStatus :=
  requests[j]?.bind fun r => if r.reads then lastRead orderId (t.own j) else some .pending

/-- What a request may do with the orders: its status writes come from what it takes them for. -/
structure Moves (requests : List OrderRequest) (l : ℕ × ShopCall) (i : ShopInput)
    (t u : ShopJournal) : Prop where
  own : ∀ c, c ≠ l.1 → u.own c = t.own c
  step : OrderStep l.2 i.now t.state u.state
  live : leavesLive l.2 = true
  before : ∀ m, moveOf l.2 = some m → taken requests l.1 m.orderId t = some m.before

def readingOrders (requests : List OrderRequest) (j : ℕ) :
    Discipline (ℕ × ShopCall) ShopInput ShopJournal where
  rely t u := u.own j = t.own j
  guar l i t u := l.1 = j ∧ Moves requests l i t u
  refl _ := rfl
  trans h h' := h'.trans h

/-- A checkout, and the attempts it gave up. -/
def placingOrders (requests : List OrderRequest) : Discipline (ℕ × ShopCall) ShopInput ShopJournal :=
  .free fun l i t u => (requests[l.1]?.any fun r => !r.reads) = true ∧ Moves requests l i t u

def anyWorld : World (ℕ × ShopCall) ShopInput ShopJournal := ⟨fun _ _ _ => True, fun _ => True⟩

section Taking

variable {requests : List OrderRequest} {j : ℕ} {α β : Type} {t u : ShopJournal} {l : ShopCall}
  {i : ShopInput} {s : Shop}

/-- From any state and journal on, every call does what it may. -/
def Taking (requests : List OrderRequest) (j : ℕ) (p : ShopProg α) : Prop :=
  ∀ t, Holds anyWorld (placingOrders requests) (readingOrders requests j) (fun _ _ => True)
    (p.journaled j) t

/-- The labels that write the status of no order. -/
def still (l : ShopCall) : Bool := (moveOf l).isNone

theorem still_of_amending {l : ShopCall} (h : amending l = true) : still l = true := by
  unfold still moveOf
  split <;> first | rfl | cases h

theorem still_of_quiet {l : ShopCall} (h : quiet l = true) : still l = true :=
  still_of_amending (amending_of_quiet h)

theorem Moves.of_still (hl : still l = true) (he : Effect l i.now t.state s) :
    Moves requests (j, l) i t (t.record j l i s) := by
  have hnone : moveOf l = none := Option.isNone_iff_eq_none.mp hl
  refine ⟨fun c hne => Journaled.own_record_of_ne hne, orderStep_of_effect he, ?_, fun m hm => ?_⟩
  · simp [leavesLive, hnone]
  · rw [hnone] at hm
    cases hm

theorem Taking.of_calls {S : ShopCall → Bool} {p : ShopProg α} (hseq : p.Sequential) (h : Calls S p)
    (hS : ∀ l, S l = true → still l = true) : Taking requests j p := by
  refine fun t => Holds.of_sequential (fun _ _ _ h => h) hseq.journaled ?_ trivial
  refine (Prog.Every.journaled h).imp (fun _ _ _ _ => trivial) ?_
  rintro ⟨c, l⟩ i t u - ⟨s, rfl, rfl, hl, he⟩ -
  exact ⟨trivial, ⟨rfl, .of_still (hS l hl) he⟩, trivial⟩

theorem Taking.done (r : Except Failure α) : Taking requests j (.done r) := fun _ _ _ _ => trivial

theorem Taking.bind {p : ShopProg α} {k : α → ShopProg β} (hp : Taking requests j p)
    (hk : ∀ a, Taking requests j (k a)) : Taking requests j (p.bind k) := by
  intro t
  rw [Prog.journaled_bind]
  refine Holds.bind (Holds.mono ?_ (hp t)) trivial
  rintro (e | a) u - -
  · trivial
  · exact hk a u

theorem Taking.attempt {p : ShopProg α} (hp : Taking requests j p) : Taking requests j p.attempt := by
  intro t
  rw [Prog.journaled_attempt]
  exact Holds.attempt (Holds.mono (fun _ _ _ _ => trivial) (hp t))

theorem calls_lock {key : ShopLock} {token : ℕ} :
    Calls quiet (LockService.acquire key token : ShopProg Bool) ∧
      Calls quiet (LockService.release key token : ShopProg Unit) := by
  refine ⟨.atomic rfl fun i s b s' h => .inl ?_, .atomic rfl fun i s b s' h => .inl ?_⟩
  · rcases LockService.take_cases (Except.ok.inj h) with ⟨-, -, rfl⟩ | ⟨-, rfl⟩
    · exact ⟨rfl, rfl, rfl, rfl, rfl⟩
    · exact .refl _
  · obtain ⟨-, rfl⟩ := Prod.mk.inj (Except.ok.inj h)
    rcases LockService.drop_cases (L := ShopCall) key token s with ⟨-, hd⟩ | hd <;> rw [hd]
    · exact ⟨rfl, rfl, rfl, rfl, rfl⟩
    · exact .refl _

theorem Taking.withLock {key : ShopLock} {token : ℕ} {fn : ShopProg α} (hfn : Taking requests j fn) :
    Taking requests j (LockService.withLock key token fn) := by
  have hacq := @Taking.of_calls requests j _ _ _ (sequential_atomic _ _)
    (@calls_lock key token).1 fun _ => still_of_quiet
  have hrel := @Taking.of_calls requests j _ _ _ (sequential_atomic _ _)
    (@calls_lock key token).2 fun _ => still_of_quiet
  refine hacq.bind fun got => Taking.bind (.done _) fun _ => ?_
  exact hfn.attempt.bind fun r => hrel.bind fun _ => .done r

/-! ### Requests that read -/

theorem lastRead_record {orderId : ℕ} (hl : readsOrder orderId l = true) :
    lastRead orderId ((t.record j l i s).own j) = storedStatus orderId t.state := by
  simp [lastRead, hl]

theorem lastRead_record_of_not {orderId : ℕ} (hl : readsOrder orderId l = false) :
    lastRead orderId ((t.record j l i s).own j) = lastRead orderId (t.own j) := by
  simp [lastRead, hl]

def HasRead (j orderId : ℕ) (status : OrderStatus) (t : ShopJournal) : Prop :=
  lastRead orderId (t.own j) = some status

theorem HasRead.stable {orderId : ℕ} {status : OrderStatus} (h : HasRead j orderId status t)
    (hr : (readingOrders requests j).rely t u) : HasRead j orderId status u := by
  have hown : u.own j = t.own j := hr
  rw [HasRead, hown]
  exact h

/-- A read of an order goes on with what it has read. -/
theorem taking_readBind {orderId : ℕ} {f : ShopInput → Shop → β} {k : β → ShopProg α}
    (hl : readsOrder orderId l = true) (hstill : still l = true)
    (hk : ∀ i s t, storedStatus orderId s = lastRead orderId (t.own j) →
      Holds anyWorld (placingOrders requests) (readingOrders requests j) (fun _ _ => True)
        ((k (f i s)).journaled j) t) : Taking requests j ((query l f).bind k) := by
  refine fun t => holds_journaledQuery fun u _ _ i _ => ?_
  refine ⟨trivial, ⟨rfl, .of_still hstill (.inl (.refl _))⟩, fun _ _ _ _ => trivial, fun _ => ?_⟩
  exact hk i u.state _ (lastRead_record hl).symm

theorem moves_record {m : StatusMove} {r : OrderRequest} (hm : moveOf l = some m)
    (hj : requests[j]? = some r) (hreads : r.reads = true)
    (hlive : m.after = .cancelled ∨ m.before ≠ .cancelled) (hread : HasRead j m.orderId m.before t)
    (he : Effect l i.now t.state s) : Moves requests (j, l) i t (t.record j l i s) := by
  refine ⟨fun c hne => Journaled.own_record_of_ne hne, orderStep_of_effect he, ?_, fun m' hm' => ?_⟩
  · simpa [leavesLive, hm] using hlive
  · obtain rfl := Option.some.inj (hm.symm.trans hm')
    rw [taken, hj, Option.bind_some, if_pos hreads]
    exact hread

/-- A status write after a read that agrees with it. -/
theorem holds_move {m : StatusMove} {r : OrderRequest}
    {f : ShopInput → Shop → Except Failure (β × Shop)} (hm : moveOf l = some m)
    (hj : requests[j]? = some r) (hreads : r.reads = true)
    (hlive : m.after = .cancelled ∨ m.before ≠ .cancelled)
    (hf : ∀ i s b s', f i s = .ok (b, s') → Effect l i.now s s')
    (hread : HasRead j m.orderId m.before t) :
    Holds anyWorld (placingOrders requests) (readingOrders requests j) (fun _ _ => True)
      ((atomic l f).journaled j) t := by
  refine holds_journaledWrite fun u hu _ i _ => ?_
  have hread := hread.stable hu
  refine ⟨fun e _ => ⟨trivial, ⟨rfl, ?_⟩, fun _ _ _ => trivial⟩,
    fun b s' _ hs => ⟨trivial, ⟨rfl, ?_⟩, fun _ _ _ => trivial⟩⟩
  · exact moves_record hm hj hreads hlive hread (.inl (.refl _))
  · exact moves_record hm hj hreads hlive hread (hf i _ b s' hs)

theorem taking_confirmPendingOrder {r : OrderRequest} (orderId : ℕ) (hj : requests[j]? = some r)
    (hreads : r.reads = true) : Taking requests j (confirmPendingOrderAfterCapture orderId) := by
  refine taking_readBind (show readsOrder orderId _ = true by simp [readsOrder]) rfl
    fun i s t hread => ?_
  cases ho : (s.orders.find? orderId).filter fun o => !o.deleted with
  | none => exact fun _ _ _ => trivial
  | some order =>
    obtain ⟨hfind, -⟩ := Option.filter_eq_some_iff.mp ho
    dsimp only
    split
    · exact fun _ _ _ => trivial
    next hpending =>
      have hpending : order.status = .pending := not_not.mp hpending
      have hread : HasRead j orderId .pending t := by
        rw [HasRead, ← hread, storedStatus, hfind, Option.map_some, hpending]
      have hmove : Holds anyWorld (placingOrders requests) (readingOrders requests j)
          (fun _ _ => True) ((atomic (.payment (.confirmOrder orderId)) fun i s =>
            confirmOrder order i.now s).journaled j) t := by
        refine holds_move (m := ⟨orderId, .pending, .confirmed⟩) rfl hj hreads (.inr nofun) ?_ hread
        intro i s b s' h
        have hid : order.id = orderId := (Table.find?_mem hfind).2
        exact .inr ⟨order, hid, h⟩
      rw [Prog.bind_eq, Prog.journaled_bind, Prog.journaled_attempt]
      refine Holds.bind (Holds.mono ?_ (Holds.attempt (Q := fun _ _ => True)
        (Holds.mono (fun _ _ _ _ => trivial) hmove))) trivial
      rintro (e | a) u - -
      · trivial
      · exact fun _ _ _ => trivial

theorem taking_recordCapture {r : OrderRequest} (cfg : PaymentConfig) (payment : Payment)
    (actorId : ℕ) (reference : String) (hj : requests[j]? = some r) (hreads : r.reads = true) :
    Taking requests j (recordCapture cfg payment actorId reference) := by
  refine Taking.bind (.of_calls (Prog.sequential_call _ _) (calls_updatePayment (S := still) rfl)
    fun _ h => h) fun _ => ?_
  refine Taking.bind (.of_calls (Prog.sequential_call _ _) (calls_createTransaction _ _ _ _)
    fun _ => still_of_quiet) fun _ => ?_
  refine Taking.bind (.of_calls (Prog.sequential_call _ _) (calls_audit _ _ _ _ _)
    fun _ => still_of_quiet) fun _ => ?_
  refine Taking.bind (.of_calls (Prog.sequential_call _ _) (calls_createEvent _ _)
    fun _ => still_of_quiet) fun _ => ?_
  refine Taking.bind ?_ fun _ => Taking.bind (.of_calls (Prog.sequential_call _ _) calls_enqueue
    fun _ => still_of_quiet) fun _ => .done _
  unfold confirmAfterCapture
  split
  · exact taking_confirmPendingOrder _ hj hreads
  · exact .done _

theorem sequential_withRetry {p : ShopProg α} (hp : p.Sequential) : ∀ n, (withRetry p n).Sequential
  | 0 => hp
  | n + 1 => by
    refine hp.tryCatch fun err => ?_
    split
    · exact sequential_withRetry hp n
    · trivial

theorem taking_capture {r : OrderRequest} (cfg : PaymentConfig) (token id actorId : ℕ)
    (asAdmin : Bool) (hj : requests[j]? = some r) (hreads : r.reads = true) :
    Taking requests j (capture cfg token id actorId asAdmin) := by
  refine .withLock (Taking.bind ?_ fun payment => Taking.bind (.done _) fun _ => ?_)
  · exact .of_calls ((Prog.sequential_call _ _).bind fun _ => Prog.sequential_orThrow _ _)
      (calls_requirePayment _ _) fun _ => still_of_quiet
  split
  · exact .done _
  refine Taking.bind (.done _) fun _ => ?_
  unfold capturePayment
  split
  · split
    · exact .of_calls ((Prog.sequential_call _ _).bind fun _ => (Prog.sequential_call _ _).bind
        fun _ => trivial) (calls_captureZero (S := still) _ _ (fun _ => still_of_quiet) rfl) fun _ h => h
    · exact .done _
  · refine Taking.bind (.of_calls (sequential_withRetry (Prog.sequential_call _ _) _)
      (calls_withRetry (calls_gatewayCall _) _) fun _ => still_of_quiet) fun result => ?_
    split
    · exact .of_calls ((Prog.sequential_call _ _).bind fun _ => (Prog.sequential_call _ _).bind
        fun _ => trivial) (calls_markFailed _ _ _) fun _ => still_of_amending
    · exact taking_recordCapture _ _ _ _ hj hreads

theorem sequential_releaseEach (token : ℕ) (reservations : List StockReservation) :
    (releaseEach token reservations).Sequential := by
  induction reservations with
  | nil => trivial
  | cons r rs ih =>
    refine Prog.Sequential.bind ?_ fun _ => ih
    refine (Prog.sequential_call _ _).bind fun _ => (Prog.sequential_orThrow _ _).bind fun r => ?_
    refine Prog.Sequential.bind trivial fun _ => LockService.sequential_withLock _ _ ?_
    exact (Prog.sequential_call _ _).bind fun _ => (Prog.sequential_call _ _).bind fun _ =>
      Prog.sequential_call _ _

/-- The order that was read, with what the request has read of it. -/
theorem taking_requireOrderBind {orderId : ℕ} {k : Order × List OrderItem → ShopProg α}
    (hk : ∀ order t, order.1.id = orderId → HasRead j orderId order.1.status t →
      Holds anyWorld (placingOrders requests) (readingOrders requests j) (fun _ _ => True)
        ((k order).journaled j) t) : Taking requests j ((requireOrder orderId).bind k) := by
  rw [requireOrder, Prog.bind_eq, Prog.bind_assoc]
  refine taking_readBind (show readsOrder orderId _ = true by simp [readsOrder]) rfl
    fun i s t hread => ?_
  refine holds_journaledOrThrow (fun order ho => ?_) fun _ _ _ _ => trivial
  obtain ⟨o, hfilter, rfl⟩ := Option.map_eq_some_iff.mp ho
  obtain ⟨hfind, -⟩ := Option.filter_eq_some_iff.mp hfilter
  refine hk _ t (Table.find?_mem hfind).2 ?_
  rw [HasRead, ← hread, storedStatus, hfind, Option.map_some]

/-- A call between a read and the write that goes by it. -/
theorem holds_keepBind {orderId : ℕ} {status : OrderStatus}
    {f : ShopInput → Shop → Except Failure (β × Shop)} {k : β → ShopProg α} (hl : still l = true)
    (hr : readsOrder orderId l = false) (hf : ∀ i s b s', f i s = .ok (b, s') → Effect l i.now s s')
    (hread : HasRead j orderId status t)
    (hk : ∀ b t, HasRead j orderId status t →
      Holds anyWorld (placingOrders requests) (readingOrders requests j) (fun _ _ => True)
        ((k b).journaled j) t) :
    Holds anyWorld (placingOrders requests) (readingOrders requests j) (fun _ _ => True)
      (((atomic l f).bind k).journaled j) t := by
  refine holds_journaledAtomic fun u hu _ i _ => ?_
  have hread := hread.stable hu
  refine ⟨fun e _ => ⟨trivial, ⟨rfl, .of_still hl (.inl (.refl _))⟩, fun _ _ _ => trivial⟩,
    fun b s' _ hs => ⟨trivial, ⟨rfl, .of_still hl (hf i _ b s' hs)⟩, hk b _ ?_⟩⟩
  rw [HasRead, lastRead_record_of_not hr]
  exact hread

theorem holds_moveBind {m : StatusMove} {r : OrderRequest}
    {f : ShopInput → Shop → Except Failure (β × Shop)} {k : β → ShopProg α} (hm : moveOf l = some m)
    (hj : requests[j]? = some r) (hreads : r.reads = true)
    (hlive : m.after = .cancelled ∨ m.before ≠ .cancelled)
    (hf : ∀ i s b s', f i s = .ok (b, s') → Effect l i.now s s')
    (hread : HasRead j m.orderId m.before t) (hk : ∀ b, Taking requests j (k b)) :
    Holds anyWorld (placingOrders requests) (readingOrders requests j) (fun _ _ => True)
      (((atomic l f).bind k).journaled j) t := by
  rw [Prog.journaled_bind]
  refine Holds.bind (Holds.mono ?_ (holds_move hm hj hreads hlive hf hread)) trivial
  rintro (e | b) u - -
  · trivial
  · exact hk b u

theorem taking_cancel {r : OrderRequest} (token orderId userId : ℕ) (dto : CancelOrderDto)
    (isAdmin : Bool) (hj : requests[j]? = some r) (hreads : r.reads = true) :
    Taking requests j (cancel token orderId userId dto isAdmin) := by
  refine .withLock (taking_requireOrderBind fun order t hid hread => ?_)
  refine holds_journaledEnsure (fun _ => ?_) fun _ _ _ _ => trivial
  refine holds_journaledEnsure (fun _ => ?_) fun _ _ _ _ => trivial
  refine holds_keepBind rfl rfl (fun i s b s' h => .inl ?_) (hid ▸ hread) fun _ u hread => ?_
  · simp only [bind_eq_ok, existing_eq_ok, check_eq_ok, pure_eq_ok, Prod.mk.injEq] at h
    obtain ⟨-, -, -, -, -, rfl⟩ := h
    exact .refl s
  refine holds_moveBind (m := ⟨order.1.id, order.1.status, .cancelled⟩) rfl hj hreads (.inl rfl)
    (fun i s b s' h => .inr ⟨_, h⟩) hread fun _ => ?_
  exact .of_calls ((Prog.sequential_call _ _).bind fun _ => sequential_releaseEach _ _)
    (Calls.bind (S := quiet) (.query rfl) fun _ => calls_releaseEach _ _) fun _ => still_of_quiet

theorem taking_createFulfillment {r : OrderRequest} (token orderId : ℕ) (dto : CreateFulfillmentDto)
    (hj : requests[j]? = some r) (hreads : r.reads = true) :
    Taking requests j (createFulfillment token orderId dto) := by
  refine .withLock (taking_requireOrderBind fun order t hid hread => ?_)
  refine holds_journaledEnsure (fun _ => ?_) fun _ _ _ _ => trivial
  refine holds_keepBind rfl rfl (fun i s b s' h => .inl (insertFulfillment_same h)) hread
    fun fo u hread => ?_
  split
  next hconfirmed =>
    refine holds_moveBind (m := ⟨orderId, .confirmed, .processing⟩) rfl hj hreads (.inr nofun)
      (fun i s b s' h => .inr ⟨_, h⟩) (hconfirmed ▸ hread) fun _ => .done _
  next => exact fun _ _ _ => trivial

end Taking

theorem OrderRequest.taking {requests : List OrderRequest} {j : ℕ} {r : OrderRequest}
    (hj : requests[j]? = some r) (hreads : r.reads = true) : Taking requests j r.prog := by
  cases r with
  | checkout cfg token userId dto => cases hreads
  | confirmStep cfg ctx => cases hreads
  | capture cfg token id actorId asAdmin =>
    exact (taking_capture cfg token id actorId asAdmin hj hreads).bind fun _ => .done _
  | cancel token orderId userId dto isAdmin => exact taking_cancel token orderId userId dto isAdmin hj hreads
  | createFulfillment token orderId dto =>
    exact (taking_createFulfillment token orderId dto hj hreads).bind fun _ => .done _
  | confirmPendingOrder orderId => exact taking_confirmPendingOrder orderId hj hreads

/-- The labels of a checkout: what they write comes from `pending`. -/
def fromPending (l : ShopCall) : Bool := (moveOf l).all fun m => m.before == .pending

theorem fromPending_of_capturing {l : ShopCall} (h : capturing l = true) : fromPending l = true := by
  unfold fromPending moveOf
  split <;> first | rfl | cases h

theorem calls_placing {r : OrderRequest} (hreads : r.reads = false) : Calls fromPending r.prog := by
  cases r with
  | checkout cfg token userId dto =>
    exact (calls_checkout (fun _ h => fromPending_of_capturing (capturing_of_charging h))
      (fun _ => rfl) (fun _ => rfl) cfg token userId dto).bind fun _ => .pure _
  | confirmStep cfg ctx =>
    exact calls_confirmStep (fun l h => fromPending_of_capturing (capturing_of_routine
      (routine_of_amending h))) (fun _ => rfl) cfg ctx
  | _ => cases hreads

theorem OrderRequest.placing {requests : List OrderRequest} {j : ℕ} {r : OrderRequest}
    (hj : requests[j]? = some r) (hreads : r.reads = false) (t : ShopJournal) :
    Holds anyWorld (placingOrders requests) (placingOrders requests) (fun _ _ => True)
      (r.prog.journaled j) t := by
  refine Holds.of_every_forked ?_ t
  have hcalls := Prog.Every.and (calls_request r) (calls_placing hreads)
  refine (Prog.Every.journaled hcalls).imp (fun _ _ _ _ => trivial) ?_
  rintro ⟨c, l⟩ i t u - ⟨s, rfl, rfl, ⟨hlive, he⟩, hpending, -⟩
  refine ⟨trivial, by simp [hj, hreads], fun c hne => Journaled.own_record_of_ne hne,
    orderStep_of_effect he, hlive, fun m hm => ?_⟩
  have hbefore : m.before = .pending := by simpa [fromPending, hm] using hpending
  simp [taken, hj, hreads, hbefore]

/-- The discipline of each request, and of the attempts that checkouts gave up. -/
def takingOrders (requests : List OrderRequest) (j : ℕ) :
    Discipline (ℕ × ShopCall) ShopInput ShopJournal :=
  if (requests[j]?.any OrderRequest.reads) = true then readingOrders requests j
  else placingOrders requests

theorem guar_takingOrders {requests : List OrderRequest} {j : ℕ} {l : ℕ × ShopCall} {i : ShopInput}
    {t u : ShopJournal} (h : (takingOrders requests j).guar l i t u) : Moves requests l i t u := by
  unfold takingOrders at h
  split at h
  · exact h.2
  · exact h.2

theorem compatible_takingOrders (requests : List OrderRequest) :
    Pool.Compatible anyWorld (placingOrders requests) (takingOrders requests)
      (fun _ (_ : Except Failure Unit) _ => True) requests.length := by
  refine ⟨fun {j j' l i t u} hne _ _ _ hg => ?_, fun {j} hj => ?_, fun _ _ _ => trivial⟩
  · have hown := (guar_takingOrders hg).own j'
    unfold takingOrders at hg ⊢
    split
    next hreads' =>
      refine hown fun hl => ?_
      split at hg
      · exact hne (hg.1.symm.trans hl.symm)
      · have hnot := hg.1
        rw [← hl] at hnot
        cases hr : requests[j']? with
        | none => simp [hr] at hreads'
        | some r => simp_all
    next => trivial
  · rw [takingOrders, List.getElem?_eq_none hj]
    rfl

theorem safe_orders (requests : List OrderRequest) (s : Shop) :
    (orderPool requests s).journaled.Safe anyWorld (placingOrders requests) (takingOrders requests)
      fun _ _ _ => True := by
  refine ⟨trivial, fun j p hp => ?_⟩
  rw [Pool.journaled, List.getElem?_mapIdx] at hp
  obtain ⟨q, hq, rfl⟩ := Option.map_eq_some_iff.mp hp
  rw [orderPool, List.getElem?_map] at hq
  obtain ⟨r, hr, rfl⟩ := Option.map_eq_some_iff.mp hq
  unfold takingOrders
  rw [hr, Option.any_some]
  cases hreads : r.reads with
  | true => exact OrderRequest.taking hr hreads _
  | false => exact OrderRequest.placing hr hreads _

/-- Runs of which some calls are admitted, by what each of these may do with the orders. -/
theorem orders_related {requests : List OrderRequest} {s : Shop} {sched rest : List (ℕ × ShopInput)}
    {ok : ℕ × ShopCall → ShopInput → ShopJournal → Prop} {R : Shop → Shop → Prop} (hrefl : ∀ s, R s s)
    (htrans : ∀ {a b c}, R a b → R b c → R a c)
    (hmove : ∀ l i t u, ok l i t → Moves requests l i t u → R t.state u.state)
    (ha : (orderPool requests s).journaled.Admits ok (sched ++ rest)) :
    R ((orderPool requests s).run sched).state ((orderPool requests s).run (sched ++ rest)).state := by
  obtain ⟨hsched, hrest⟩ := Pool.admits_append.mp ha
  have hlen : requests.length ≤ (orderPool requests s).journaled.threads.length := by
    simp [orderPool, Pool.journaled]
  have hany : ∀ sched, (orderPool requests s).journaled.Admits anyWorld.ok sched := fun sched =>
    Pool.admits_of_forall (fun _ _ _ => trivial) _ sched
  have hsafe := (safe_orders requests s).run (compatible_takingOrders requests) hlen (hany sched)
  have hends := hsafe.related (R := fun t u => R t.state u.state) (compatible_takingOrders requests)
    (fun _ _ _ _ => trivial) (fun _ => hrefl _) htrans
    (fun j l i t u hok hg => hmove l i t u hok (guar_takingOrders hg))
    (hlen.trans (Pool.length_run_ge sched)) hrest
  rw [← Pool.run_append] at hends
  rwa [((orderPool requests s).journaled_run sched).state,
    ((orderPool requests s).journaled_run (sched ++ rest)).state] at hends

/-! ### The history -/

/-- The changes of an order's status that were recorded, oldest first. -/
def trail (orderId : ℕ) (s : Shop) : List (Option OrderStatus × OrderStatus) :=
  (s.orderHistory.rows.filter fun h => h.orderId == orderId).map fun h => (h.fromStatus, h.toStatus)

def HistoriesFaithful (s : Shop) : Prop := ∀ o ∈ s.orders.rows, Faithful (trail o.id s) o.status

instance (s : Shop) : Decidable (HistoriesFaithful s) :=
  inferInstanceAs (Decidable (∀ o ∈ s.orders.rows, _))

def Recorded (s : Shop) : Prop :=
  ∀ h ∈ s.orderHistory.rows, (s.orders.find? h.orderId).isSome

instance (s : Shop) : Decidable (Recorded s) :=
  inferInstanceAs (Decidable (∀ h ∈ s.orderHistory.rows, _))

/-- Every entry belongs to an order, and every order's entries are faithful. -/
structure WellRecorded (s : Shop) : Prop where
  recorded : Recorded s
  faithful : HistoriesFaithful s

section Trail

variable {s s' : Shop}

theorem trail_of_eq {id : ℕ} (h : s'.orderHistory = s.orderHistory) : trail id s' = trail id s := by
  rw [trail, trail, h]

theorem trail_insert {mk : ℕ → OrderStatusHistory} {hmk : ∀ n, key (mk n) = n} (id : ℕ)
    (h : s'.orderHistory = s.orderHistory.insert mk hmk) :
    trail id s' = trail id s ++ if (mk s.orderHistory.next).orderId = id then
      [((mk s.orderHistory.next).fromStatus, (mk s.orderHistory.next).toStatus)] else [] := by
  rw [trail, trail, h, Table.insert, List.filter_append, List.map_append]
  congr 1
  by_cases hid : (mk s.orderHistory.next).orderId = id <;> simp [hid]

/-- An order that does not exist has no history. -/
theorem trail_eq_nil {id : ℕ} (hs : Recorded s) (hid : s.orders.find? id = none) :
    trail id s = [] := by
  rw [trail, List.map_eq_nil_iff, List.filter_eq_nil_iff]
  intro h hh heq
  have hsome := hs h hh
  rw [beq_iff_eq.mp heq, hid] at hsome
  cases hsome

end Trail

section Steps

variable {s s' : Shop} {note : String}

/-- A draft order starts a trail of its own. -/
theorem faithful_create {cart : Cart} {ctx : CheckoutContext} {number : DocumentNumber}
    (horders : s'.orders =
      s.orders.insert (draftOrder cart ctx number) (key_draftOrder cart ctx number))
    (hhistory : s'.orderHistory = s.orderHistory.insert fun n =>
      ⟨n, s.orders.next, none, .pending, some note⟩)
    (hs : WellRecorded s) : WellRecorded s' := by
  have hmk := key_draftOrder cart ctx number
  have hfresh : s.orders.find? s.orders.next = none :=
    Table.find?_eq_none_iff.mpr fun o ho => (s.orders.fresh o ho).ne
  refine ⟨fun e he => ?_, fun o ho => ?_⟩
  · rw [horders]
    rw [hhistory] at he
    rcases (Table.mem_insert _).mp he with he | rfl
    · obtain ⟨o, ho⟩ := Option.isSome_iff_exists.mp (hs.recorded e he)
      exact Option.isSome_of_eq_some (Table.find?_insert_of_some hmk ho)
    · exact Option.isSome_of_eq_some (Table.find?_insert_next hmk)
  · rw [trail_insert o.id hhistory]
    rw [horders] at ho
    rcases (Table.mem_insert hmk).mp ho with ho | rfl
    · have hne : s.orders.next ≠ o.id := (s.orders.fresh o ho).ne'
      rw [if_neg hne, List.append_nil]
      exact hs.faithful o ho
    · have hnil : trail s.orders.next s = [] := trail_eq_nil hs.recorded hfresh
      change Faithful (trail s.orders.next s ++ if s.orders.next = s.orders.next then _ else _) _
      rw [hnil, if_pos rfl, List.nil_append]
      exact Faithful.single _

/-- A move from the stored status continues the trail of its order. -/
theorem faithful_move {m : StatusMove} {now : ℕ} {b : Order}
    (hb : s.orders.find? m.orderId = some b) (hstored : b.status = m.before)
    (horders : s'.orders =
      s.orders.update m.orderId (setStatus m.after now) (key_setStatus m.after now))
    (hhistory : s'.orderHistory = s.orderHistory.insert fun n =>
      ⟨n, m.orderId, some m.before, m.after, some note⟩)
    (hs : WellRecorded s) : WellRecorded s' := by
  refine ⟨fun e he => ?_, fun o ho => ?_⟩
  · rw [horders, Table.find?_update, Option.isSome_map]
    rw [hhistory] at he
    rcases (Table.mem_insert _).mp he with he | rfl
    · exact hs.recorded e he
    · exact Option.isSome_of_eq_some hb
  · rw [trail_insert o.id hhistory]
    rw [horders] at ho
    obtain ⟨a, ha, rfl⟩ := (Table.mem_update _).mp ho
    by_cases hid : m.orderId = a.id
    · obtain rfl : a = b := Table.eq_of_find?_eq hb ha hid.symm
      have hkey : key a = m.orderId := hid.symm
      rw [if_pos hkey]
      change Faithful (trail a.id s ++ if m.orderId = a.id then _ else _) m.after
      rw [if_pos hid, (hs.faithful a ha).snoc_iff, hstored]
      exact ⟨rfl, rfl⟩
    · have hkey : key a ≠ m.orderId := fun h => hid h.symm
      rw [if_neg hkey, if_neg hid, List.append_nil]
      exact hs.faithful a ha

theorem faithful_step {l : ShopCall} {now : ℕ}
    (hstored : ∀ m b, moveOf l = some m → s.orders.find? m.orderId = some b → b.status = m.before)
    (h : OrderStep l now s s') (hs : WellRecorded s) : WellRecorded s' := by
  cases h with
  | same horders hhistory =>
    refine ⟨?_, fun o ho => ?_⟩
    · rw [Recorded, hhistory, horders]
      exact hs.recorded
    · rw [trail_of_eq hhistory]
      exact hs.faithful o (horders ▸ ho)
  | create cart ctx number userId hl horders hhistory => exact faithful_create horders hhistory hs
  | move m note hl hfound horders hhistory =>
    obtain ⟨b, hb⟩ := Option.isSome_iff_exists.mp hfound
    exact faithful_move hb (hstored m b hl hb) horders hhistory hs

end Steps

def asTaken (requests : List OrderRequest) (l : ℕ × ShopCall) (t : ShopJournal) : Bool :=
  (moveOf l.2).all fun m =>
    (storedStatus m.orderId t.state).all fun status => taken requests l.1 m.orderId t == some status

def AsTaken (requests : List OrderRequest) (l : ℕ × ShopCall) (_ : ShopInput) (t : ShopJournal) : Prop :=
  asTaken requests l t = true

instance (requests : List OrderRequest) (l : ℕ × ShopCall) (i : ShopInput) (t : ShopJournal) :
    Decidable (AsTaken requests l i t) :=
  inferInstanceAs (Decidable (_ = _))

/-- A write comes from the stored status when that is the one its request takes it for. -/
theorem Moves.stored {requests : List OrderRequest} {l : ℕ × ShopCall} {i : ShopInput}
    {t u : ShopJournal} {m : StatusMove} {b : Order} (h : Moves requests l i t u)
    (hok : AsTaken requests l i t) (hm : moveOf l.2 = some m)
    (hb : t.state.orders.find? m.orderId = some b) : b.status = m.before := by
  have htaken : taken requests l.1 m.orderId t = some b.status := by
    simpa [AsTaken, asTaken, hm, storedStatus, hb] using hok
  exact Option.some.inj (htaken.symm.trans (h.before m hm))

/-- In every run of the requests where each order whose status is written has the status that the
request has read last, or is pending when the request reads none, the history of every order is a
faithful trail. -/
theorem histories_faithful (requests : List OrderRequest) (s : Shop)
    (sched : List (ℕ × ShopInput)) (hs : WellRecorded s)
    (hok : (orderPool requests s).journaled.Admits (AsTaken requests) sched) :
    HistoriesFaithful ((orderPool requests s).run sched).state := by
  have hrun : WellRecorded s → WellRecorded ((orderPool requests s).run sched).state :=
    @orders_related requests s [] sched _ (fun u v => WellRecorded u → WellRecorded v)
      (fun _ h => h) (fun h h' hw => h' (h hw))
      (fun l i t u hok hmoves => faithful_step (fun m b => hmoves.stored hok) hmoves.step) hok
  exact (hrun hs).faithful

/-- The checkout is compensated before its confirmation. -/
theorem histories_faithful_refused :
    HistoriesFaithful ((orderPool [.checkout serverCapture 0 1 anyWarehouse] oneLine).run
      refusedCapture).state :=
  histories_faithful [.checkout serverCapture 0 1 anyWarehouse] oneLine refusedCapture
    ⟨fun h hh => (nomatch hh), fun o ho => (nomatch ho)⟩ (by decide +kernel)

/-- The confirmation is written before its step fails, and the draft's compensation goes on from
`pending`. -/
theorem history_broken : WellRecorded oneLine ∧
    ¬ HistoriesFaithful ((orderPool [.checkout serverCapture 0 1 anyWarehouse] oneLine).run
      failedConfirmation).state :=
  ⟨⟨fun h hh => (nomatch hh), fun o ho => (nomatch ho)⟩, by decide +kernel⟩

/-! ### Cancelled orders -/

/-- The same for the writes of `confirmed` and `processing`. -/
def LiveAsTaken (requests : List OrderRequest) (l : ℕ × ShopCall) (i : ShopInput) (t : ShopJournal) :
    Prop :=
  (moveOf l.2).all (fun m => m.after == .cancelled) = true ∨ AsTaken requests l i t

instance (requests : List OrderRequest) (l : ℕ × ShopCall) (i : ShopInput) (t : ShopJournal) :
    Decidable (LiveAsTaken requests l i t) :=
  inferInstanceAs (Decidable (_ ∨ _))

theorem cancelled_step {l : ShopCall} {id now : ℕ} {s s' : Shop} (hl : leavesLive l = true)
    (hstored : ∀ m b, moveOf l = some m → m.after ≠ .cancelled → s.orders.find? m.orderId = some b →
      b.status = m.before) (h : OrderStep l now s s') (hs : Cancelled id s) : Cancelled id s' := by
  rw [cancelled_iff] at hs ⊢
  obtain ⟨o, ho, hst⟩ := hs
  cases h with
  | same horders hhistory => exact ⟨o, by rw [horders, ho], hst⟩
  | create cart ctx number userId hl horders hhistory =>
    rw [horders]
    exact ⟨o, Table.find?_insert_of_some _ ho, hst⟩
  | move m note hm hfound horders hhistory =>
    rw [horders]
    by_cases hid : id = m.orderId
    · subst hid
      refine ⟨_, Table.find?_update_self _ ho, ?_⟩
      have hafter : m.after = .cancelled := by
        by_contra hne
        have hbefore : m.before ≠ .cancelled := by simpa [leavesLive, hm, hne] using hl
        exact hbefore ((hstored m o hm hne ho).symm.trans hst)
      exact hafter
    · exact ⟨o, (Table.find?_update_ne _ hid).trans ho, hst⟩

/-- In every run of the requests where each order that is confirmed or put in processing has the
status that the request has read last, or is pending when the request reads none, an order that is
cancelled at some point is cancelled from then on. -/
theorem cancelled_for_good (requests : List OrderRequest) (s : Shop) (id : ℕ)
    (sched rest : List (ℕ × ShopInput))
    (hok : (orderPool requests s).journaled.Admits (LiveAsTaken requests) (sched ++ rest))
    (hs : Cancelled id ((orderPool requests s).run sched).state) :
    Cancelled id ((orderPool requests s).run (sched ++ rest)).state := by
  refine orders_related (R := fun u v => Cancelled id u → Cancelled id v) (fun _ h => h)
    (fun h h' hc => h' (h hc)) (fun l i t u hok hmoves => ?_) hok hs
  refine cancelled_step hmoves.live (fun m b hm hne hb => ?_) hmoves.step
  refine hmoves.stored (hok.resolve_left fun hafter => hne ?_) hm hb
  simpa [hm] using hafter

def placedOrder : Shop where
  users := [1]
  carts := oneCart
  orders := pendingOrder

/-- Request `j` makes `n` calls. -/
def turns (n j : ℕ) : List (ℕ × ShopInput) := List.replicate n (j, { reply := {} })

def cancelIt : OrderRequest := .cancel 0 0 1 {} false

theorem cancelled_for_good_alone :
    Cancelled 0 ((orderPool [cancelIt] placedOrder).run (turns 4 0 ++ turns 2 0)).state :=
  cancelled_for_good [cancelIt] placedOrder 0 (turns 4 0) (turns 2 0) (by decide +kernel)
    (by decide +kernel)

/-- The confirmation after a capture reads the order before it is cancelled. -/
theorem cancelled_order_revived :
    let pool := orderPool [.confirmPendingOrder 0, cancelIt] placedOrder
    Cancelled 0 (pool.run (turns 1 0 ++ turns 6 1)).state ∧
      ¬ Cancelled 0 (pool.run (turns 1 0 ++ turns 6 1 ++ turns 1 0)).state :=
  ⟨by decide +kernel, by decide +kernel⟩

end ElectronicsCart.Orders
