import ElectronicsCart.Orders.CheckoutEffects
import Mathlib.Algebra.Order.BigOperators.Group.List
import Mathlib.Algebra.Order.Ring.Rat
import Mathlib.Tactic.Linarith

/-!
# Orders are confirmed when they are paid

`docs/database/PaymentFlow.md`: an order is paid when its captured payments add up to its grand
total.  An order is confirmed by the last step of a checkout, when the server captures, and by
`capture` itself, when the client does; neither looks at the amounts.  The runs are any
interleavings of checkouts and calls of the payments service, with the attempts that a workflow
gave up.

All threads keep the same facts: a captured payment stays captured, a settled order stays settled
and the captured total of an order does not fall (`Grows`).
-/

namespace ElectronicsCart.Orders

open Interleaving Relational Payments Inventory

/-! ### Facts that last -/

def capturedTotal (orderId : ℕ) (s : Shop) : ℚ :=
  s.payments.total (fun p => p.orderId == orderId && p.status == .captured) Payment.amount

def ConfirmedPaid (s s' : Shop) : Prop :=
  ∀ id o o', s.orders.find? id = some o → o.status = .pending → s'.orders.find? id = some o' →
    o'.status = .confirmed → o.grandTotal ≤ capturedTotal id s'

structure Grows (s s' : Shop) : Prop where
  payments : ∀ id p, s.payments.find? id = some p → ∃ p', s'.payments.find? id = some p' ∧
    p'.orderId = p.orderId ∧ p'.amount = p.amount ∧ (p.status = .captured → p'.status = .captured)
  orders : ∀ id o, s.orders.find? id = some o → ∃ o', s'.orders.find? id = some o' ∧
    o'.grandTotal = o.grandTotal ∧ (o.status ≠ .pending → o'.status ≠ .pending)
  captured : ∀ id, capturedTotal id s ≤ capturedTotal id s'

theorem Grows.refl (s : Shop) : Grows s s :=
  ⟨fun _ p hp => ⟨p, hp, rfl, rfl, fun h => h⟩, fun _ o ho => ⟨o, ho, rfl, fun h => h⟩,
    fun _ => le_refl _⟩

theorem Grows.trans {a b c : Shop} (h : Grows a b) (h' : Grows b c) : Grows a c := by
  refine ⟨fun id p hp => ?_, fun id o ho => ?_, fun id => (h.captured id).trans (h'.captured id)⟩
  · obtain ⟨q, hq, horder, hamount, hst⟩ := h.payments id p hp
    obtain ⟨r, hr, horder', hamount', hst'⟩ := h'.payments id q hq
    exact ⟨r, hr, horder'.trans horder, hamount'.trans hamount, fun hc => hst' (hst hc)⟩
  · obtain ⟨q, hq, htotal, hst⟩ := h.orders id o ho
    obtain ⟨r, hr, htotal', hst'⟩ := h'.orders id q hq
    exact ⟨r, hr, htotal'.trans htotal, fun hc => hst' (hst hc)⟩

def IsCaptured (id : ℕ) (s : Shop) : Prop :=
  ∃ p, s.payments.find? id = some p ∧ p.status = .captured

def PaymentOf (id orderId : ℕ) (amount : ℚ) (s : Shop) : Prop :=
  ∃ p, s.payments.find? id = some p ∧ p.orderId = orderId ∧ p.amount = amount

def OrderOf (id : ℕ) (total : ℚ) (s : Shop) : Prop :=
  ∃ o, s.orders.find? id = some o ∧ o.grandTotal = total

def Covered (id : ℕ) (s : Shop) : Prop :=
  ∃ o, s.orders.find? id = some o ∧ (o.status ≠ .pending ∨ o.grandTotal ≤ capturedTotal id s)

section Facts

variable {s s' : Shop} {id orderId : ℕ} {amount : ℚ}

theorem IsCaptured.grows (hg : Grows s s') (h : IsCaptured id s) : IsCaptured id s' := by
  obtain ⟨p, hp, hst⟩ := h
  obtain ⟨p', hp', -, -, hst'⟩ := hg.payments id p hp
  exact ⟨p', hp', hst' hst⟩

theorem PaymentOf.grows (hg : Grows s s') (h : PaymentOf id orderId amount s) :
    PaymentOf id orderId amount s' := by
  obtain ⟨p, hp, horder, hamount⟩ := h
  obtain ⟨p', hp', horder', hamount', -⟩ := hg.payments id p hp
  exact ⟨p', hp', horder'.trans horder, hamount'.trans hamount⟩

theorem OrderOf.grows (hg : Grows s s') (h : OrderOf id amount s) : OrderOf id amount s' := by
  obtain ⟨o, ho, htotal⟩ := h
  obtain ⟨o', ho', htotal', -⟩ := hg.orders id o ho
  exact ⟨o', ho', htotal'.trans htotal⟩

theorem Covered.grows (hg : Grows s s') (h : Covered id s) : Covered id s' := by
  obtain ⟨o, ho, hc⟩ := h
  obtain ⟨o', ho', htotal, hst⟩ := hg.orders id o ho
  refine ⟨o', ho', hc.imp hst fun hle => ?_⟩
  rw [htotal]
  exact hle.trans (hg.captured id)

end Facts

/-- Payments have an order and an amount that is not negative. -/
structure Ledger (s : Shop) : Prop where
  order : ∀ p ∈ s.payments.rows, ∃ o, s.orders.find? p.orderId = some o
  amount : ∀ p ∈ s.payments.rows, 0 ≤ p.amount

theorem amount_le_capturedTotal {s : Shop} {p : Payment} (hi : Ledger s) (hp : p ∈ s.payments.rows)
    (hst : p.status = .captured) : p.amount ≤ capturedTotal p.orderId s := by
  refine List.single_le_sum ?_ _ (List.mem_map.mpr ⟨p, hp, by simp [hst]⟩)
  intro x hx
  obtain ⟨q, hq, rfl⟩ := List.mem_map.mp hx
  split
  · exact hi.amount q hq
  · exact le_refl _

theorem covered_of_captured {s : Shop} {id orderId : ℕ} {amount : ℚ} (hi : Ledger s)
    (ho : OrderOf orderId amount s) (hp : PaymentOf id orderId amount s) (hc : IsCaptured id s) :
    Covered orderId s := by
  obtain ⟨o, ho, htotal⟩ := ho
  obtain ⟨p, hp, rfl, rfl⟩ := hp
  obtain ⟨p', hp', hst⟩ := hc
  obtain rfl := Option.some.inj (hp.symm.trans hp')
  exact ⟨o, ho, .inr (htotal ▸ amount_le_capturedTotal hi (Table.find?_mem hp).1 hst)⟩

/-! ### What a call does -/

/-- The order of the payment is not pending, or the captured payments of the order reach its total
together with this one. -/
def covers (id : ℕ) (s : Shop) : Bool :=
  (s.payments.find? id).all fun p => (s.orders.find? p.orderId).all fun o =>
    o.status != .pending || decide (o.grandTotal ≤ s.payments.total
      (fun q => q.orderId == p.orderId && (q.id == id || q.status == .captured)) Payment.amount)

/-- A capture that the order is confirmed after completes the total of the order, and no captured
payment is given another status. -/
def PaidInFull (cfg : PaymentConfig) (l : ShopCall) (_ : ShopInput) (s : Shop) : Prop :=
  match l with
  | .payment (.update id _ .capture) =>
    cfg.needsPostCaptureOrderConfirm = true → covers id s = true
  | .payment (.update _ _ .captureZero) => True
  | .payment (.update id _ _) => (s.payments.find? id).all (fun p => p.status != .captured) = true
  | _ => True

def paidInFull (cfg : PaymentConfig) (s : Shop) (id : ℕ) : PaymentWrite → Bool
  | .capture => !cfg.needsPostCaptureOrderConfirm || covers id s
  | .captureZero => true
  | _ => (s.payments.find? id).all fun p => p.status != .captured

theorem onWrites_paidInFull (cfg : PaymentConfig) (l : ShopCall) (i : ShopInput) (s : Shop) :
    OnWrites (fun id _ write => paidInFull cfg s id write = true) l ↔ PaidInFull cfg l i s := by
  unfold OnWrites
  split
  next id read write => cases write <;> simp [paidInFull, PaidInFull, imp_iff_not_or]
  next hl =>
    unfold PaidInFull
    split <;> simp_all

instance (cfg : PaymentConfig) (l : ShopCall) (i : ShopInput) (s : Shop) :
    Decidable (PaidInFull cfg l i s) :=
  decidable_of_iff _ (onWrites_paidInFull cfg l i s)

section Effects

variable {cfg : PaymentConfig} {l : ShopCall} {i : ShopInput} {now : ℕ} {s s' : Shop}

theorem target_captured {id : ℕ} {read : PaymentStatus} {write : PaymentWrite} {p : Payment}
    (hok : PaidInFull cfg (.payment (.update id read write)) i s)
    (hp : s.payments.find? id = some p) (hst : p.status = .captured) : write.target = .captured := by
  have hnot : (s.payments.find? id).all (fun p => p.status != .captured) ≠ true := by
    simp [hp, hst]
  cases write with
  | capture => rfl
  | captureZero => rfl
  | authorize gatewayPaymentId signature => exact (hnot hok).elim
  | cancel => exact (hnot hok).elim
  | fail => exact (hnot hok).elim
  | reopen => exact (hnot hok).elim
  | webhook status gatewayPaymentId => exact (hnot hok).elim
  | refund amount status => exact (hnot hok).elim

theorem grows_of_orders (hp : s'.payments = s.payments)
    (ho : ∀ id o, s.orders.find? id = some o → ∃ o', s'.orders.find? id = some o' ∧
      o'.grandTotal = o.grandTotal ∧ (o.status ≠ .pending → o'.status ≠ .pending)) : Grows s s' := by
  refine ⟨fun id p hf => ⟨p, by rw [hp, hf], rfl, rfl, fun h => h⟩, ho, fun id => ?_⟩
  rw [capturedTotal, capturedTotal, hp]

theorem grows_of_writePayment {id : ℕ} {read : PaymentStatus} {write : PaymentWrite} {r : Payment}
    (hi : Ledger s) (hok : PaidInFull cfg (.payment (.update id read write)) i s)
    (h : writePayment id write now s = .ok (r, s')) : Grows s s' := by
  obtain ⟨q, hq, -, rfl⟩ := writePayment_cases h
  refine ⟨fun j p hp => ?_, fun j o ho => ⟨o, ho, rfl, fun h => h⟩, fun j => ?_⟩
  · by_cases hj : j = id
    · subst hj
      obtain rfl := Option.some.inj (hq.symm.trans hp)
      refine ⟨_, Table.find?_update_self (key_applyWrite now write) hp, by simp, by simp, ?_⟩
      exact fun hst => (status_applyWrite q write).trans (target_captured hok hp hst)
    · exact ⟨p, (Table.find?_update_ne (key_applyWrite now write) hj).trans hp, rfl, rfl, fun h => h⟩
  · have hamount := hi.amount q (Table.find?_mem hq).1
    have htotal := Table.total_update (p := fun p => p.orderId == j && p.status == .captured)
      (f := Payment.amount) (key_applyWrite now write) hq
    have hkeep : q.status = .captured → write.target = .captured := target_captured hok hq
    simp only [orderId_applyWrite, status_applyWrite, amount_applyWrite] at htotal
    rw [capturedTotal, capturedTotal]
    dsimp only
    by_cases horder : q.orderId = j <;> by_cases hst : q.status = .captured <;>
      by_cases hnew : write.target = .captured <;> simp_all

theorem grows_of_insertPayment {order : Order} {actorId gatewayId : ℕ} {gatewayOrderId : String}
    {dto : CreatePaymentDto} {r : Payment}
    (h : insertPayment order actorId gatewayId gatewayOrderId dto s = .ok (r, s')) : Grows s s' := by
  obtain ⟨mk, hmk, hnew, -, -, -, rfl⟩ := insertPayment_cases h
  refine ⟨fun j p hp => ⟨p, Table.find?_insert_of_some hmk hp, rfl, rfl, fun h => h⟩,
    fun j o ho => ⟨o, ho, rfl, fun h => h⟩, fun j => ?_⟩
  change _ ≤ (s.payments.insert mk hmk).total _ _
  rw [Table.total_insert, (hnew _).2.2]
  simp [capturedTotal]

theorem orders_setStatus {id : ℕ} {after : OrderStatus} (hafter : after ≠ .pending)
    (ho : s'.orders = s.orders.update id (setStatus after now) (key_setStatus after now)) :
    ∀ j o, s.orders.find? j = some o → ∃ o', s'.orders.find? j = some o' ∧
      o'.grandTotal = o.grandTotal ∧ (o.status ≠ .pending → o'.status ≠ .pending) := by
  intro j o hj
  rw [ho]
  by_cases hid : j = id
  · subst hid
    exact ⟨_, Table.find?_update_self (key_setStatus _ _) hj, rfl, fun _ => hafter⟩
  · exact ⟨o, (Table.find?_update_ne (key_setStatus _ _) hid).trans hj, rfl, fun h => h⟩

theorem grows_of_effect (hi : Ledger s) (hok : PaidInFull cfg l i s) (hl : placing l = true)
    (he : Effect l now s s') : Grows s s' := by
  have hsame : s'.payments = s.payments → s'.orders = s.orders → Grows s s' := fun hp ho =>
    grows_of_orders hp fun id o h => ⟨o, by rw [ho, h], rfl, fun h => h⟩
  rcases he with h | h
  · exact hsame h.payments h.orders
  unfold Writes at h
  split at h
  · obtain ⟨p, h⟩ := h
    exact grows_of_writePayment hi hok h
  · obtain ⟨order, actorId, gatewayId, gatewayOrderId, dto, p, -, -, h⟩ := h
    exact grows_of_insertPayment h
  · obtain ⟨order, -, h⟩ := h
    obtain ⟨-, hp, ho, -⟩ := confirmOrder_cases h
    exact grows_of_orders hp (orders_setStatus (by decide) ho)
  · obtain ⟨cart, items, ctx, random, order, -, h⟩ := h
    obtain ⟨-, ho, hp, -⟩ := insertOrder_cases h
    refine grows_of_orders hp fun id o hf => ⟨o, ?_, rfl, fun h => h⟩
    rw [ho]
    exact Table.find?_insert_of_some _ hf
  next orderId before after =>
    obtain ⟨note, h⟩ := h
    obtain ⟨-, hp, -, ho⟩ := transitionOrder_cases h
    refine grows_of_orders hp (orders_setStatus ?_ ho)
    rintro rfl
    cases hl
  · obtain ⟨hp, ho, -⟩ := convertCart_cases h
    exact hsame hp ho
  · exact h.elim

theorem Ledger.effect (hi : Ledger s) (hg : Grows s s') (he : Effect l now s s') : Ledger s' := by
  have horder : ∀ p ∈ s.payments.rows, ∃ o, s'.orders.find? p.orderId = some o := by
    intro p hp
    obtain ⟨o, ho⟩ := hi.order p hp
    obtain ⟨o', ho', -⟩ := hg.orders _ o ho
    exact ⟨o', ho'⟩
  have hsame : s'.payments = s.payments → Ledger s' := fun h =>
    ⟨fun p hp => horder p (h ▸ hp), fun p hp => hi.amount p (h ▸ hp)⟩
  cases he.paymentStep with
  | same hpayments => exact hsame hpayments
  | write id read write q hlabel hq hpayments =>
    constructor <;> rw [hpayments]
    · exact Table.forall_update _ (fun a ha _ => by simpa using horder a ha) fun a ha _ => horder a ha
    · exact Table.forall_update _ (fun a ha _ => by simpa using hi.amount a ha)
        fun a ha _ => hi.amount a ha
  | create orderId amount mk hmk hlabel hnew hfound hamount hpayments =>
    have hmade := hnew s.payments.next
    have hcreated : ∃ o, s'.orders.find? orderId = some o := by
      obtain ⟨o, ho⟩ := Option.isSome_iff_exists.mp hfound
      obtain ⟨o', ho', -⟩ := hg.orders _ o ho
      exact ⟨o', ho'⟩
    constructor <;> rw [hpayments] <;> intro r hr <;>
      rcases (Table.mem_insert hmk).mp hr with hr | rfl
    · exact horder r hr
    · rw [hmade.1]
      exact hcreated
    · exact hi.amount r hr
    · rw [hmade.2.1]
      exact hamount

theorem ConfirmedPaid.refl (s : Shop) : ConfirmedPaid s s := by
  intro id o o' ho hst ho' hst'
  obtain rfl := Option.some.inj (ho.symm.trans ho')
  rw [hst] at hst'
  cases hst'

theorem confirmedPaid_of_orders
    (h : ∀ id o o', s.orders.find? id = some o → s'.orders.find? id = some o' →
      o'.status = o.status ∨ o'.status ≠ .confirmed) : ConfirmedPaid s s' := by
  intro id o o' ho hst ho' hst'
  rcases h id o o' ho ho' with heq | hne
  · rw [heq, hst] at hst'
    cases hst'
  · exact (hne hst').elim

theorem confirmedPaid_of_steady (hl : steady l = true) (he : Effect l now s s') :
    ConfirmedPaid s s' := by
  have hsame : s'.orders = s.orders → ConfirmedPaid s s' := fun horders =>
    confirmedPaid_of_orders fun id o o' ho ho' => by
      rw [horders] at ho'
      exact .inl (by rw [Option.some.inj (ho.symm.trans ho')])
  rcases he with h | h
  · exact hsame h.orders
  unfold Writes at h
  split at h
  · obtain ⟨p, h⟩ := h
    obtain ⟨q, -, -, rfl⟩ := writePayment_cases h
    exact hsame rfl
  · obtain ⟨order, actorId, gatewayId, gatewayOrderId, dto, p, -, -, h⟩ := h
    obtain ⟨mk, hmk, -, -, -, -, rfl⟩ := insertPayment_cases h
    exact hsame rfl
  · cases hl
  · obtain ⟨cart, items, ctx, random, order, -, h⟩ := h
    obtain ⟨-, horders, -, -⟩ := insertOrder_cases h
    refine confirmedPaid_of_orders fun id o o' ho ho' => ?_
    rw [horders] at ho'
    exact .inl (by rw [Option.some.inj (ho'.symm.trans (Table.find?_insert_of_some _ ho))])
  next orderId before after =>
    obtain ⟨note, h⟩ := h
    obtain ⟨-, -, -, horders⟩ := transitionOrder_cases h
    refine confirmedPaid_of_orders fun id o o' ho ho' => ?_
    rw [horders] at ho'
    by_cases hid : id = orderId
    · subst hid
      rw [Table.find?_update_self (key_setStatus _ _) ho] at ho'
      obtain rfl := Option.some.inj ho'
      refine .inr ?_
      change after ≠ .confirmed
      rintro rfl
      cases hl
    · rw [Table.find?_update_ne (key_setStatus _ _) hid] at ho'
      exact .inl (by rw [Option.some.inj (ho.symm.trans ho')])
  · exact hsame (convertCart_cases h).2.1
  · exact h.elim

theorem confirmedPaid_of_covered {id : ℕ} (hc : Covered id s) (hp : s'.payments = s.payments)
    (ho : s'.orders = s.orders.update id (setStatus .confirmed now) (key_setStatus .confirmed now)) :
    ConfirmedPaid s s' := by
  intro j o o' hj hst hj' hst'
  rw [ho] at hj'
  by_cases hid : j = id
  · subst hid
    obtain ⟨o₁, ho₁, hpaid⟩ := hc
    obtain rfl := Option.some.inj (hj.symm.trans ho₁)
    rw [capturedTotal, hp]
    exact hpaid.resolve_left fun h => h hst
  · rw [Table.find?_update_ne (key_setStatus _ _) hid] at hj'
    obtain rfl := Option.some.inj (hj.symm.trans hj')
    rw [hst] at hst'
    cases hst'

end Effects

/-! ### The threads -/

def world (cfg : PaymentConfig) : World ShopCall ShopInput Shop := ⟨PaidInFull cfg, Ledger⟩

/-- Requests and abandoned attempts keep the same guarantee. -/
def settlements : Discipline ShopCall ShopInput Shop where
  rely := Grows
  guar _ _ s s' := Grows s s' ∧ ConfirmedPaid s s'
  refl := Grows.refl
  trans := Grows.trans

theorem settlements_rely (l : ShopCall) (i : ShopInput) (s s' : Shop) (h : settlements.guar l i s s') :
    settlements.rely s s' := h.1

theorem settlements_same (l : ShopCall) (i : ShopInput) (s : Shop) : settlements.guar l i s s :=
  ⟨.refl s, .refl s⟩

/-- The program is safe from `s` on and ends with `Q`. -/
abbrev Settles {α : Type} (cfg : PaymentConfig) (Q : Except Failure α → Shop → Prop)
    (p : ShopProg α) (s : Shop) : Prop :=
  Holds (world cfg) settlements settlements Q p s

section Threads

variable {cfg : PaymentConfig} {α β : Type} {s : Shop} {P : Shop → Prop}

theorem settles_steady {p : ShopProg α} (hP : ∀ t t', Grows t t' → P t → P t')
    (hp : Calls steady p) (hs : P s) : Settles cfg (fun _ t => P t) p s := by
  refine Holds.of_every hP (Prog.Every.imp (fun _ _ _ _ => trivial) ?_ hp) hs
  rintro l i t t' ⟨hok, hi⟩ ⟨hl, he⟩
  have hg : Grows t t' := grows_of_effect (i := i) hi hok (placing_of_steady hl) he
  have hguar : Grows t t' ∧ ConfirmedPaid t t' := ⟨hg, confirmedPaid_of_steady hl he⟩
  exact ⟨hi.effect hg he, hguar, hguar, hP t t' hg⟩

theorem settles_steadyBind {Q : Except Failure β → Shop → Prop} {p : ShopProg α}
    {k : α → ShopProg β} (hP : ∀ t t', Grows t t' → P t → P t') (hp : Calls steady p)
    (herr : ∀ e t, Q (.error e) t) (hk : ∀ a t, Ledger t → P t → Settles cfg Q (k a) t)
    (hi : Ledger s) (hs : P s) : Settles cfg Q (p.bind k) s := by
  refine Holds.bind (Holds.mono ?_ (settles_steady hP hp hs)) hi
  rintro (e | a) t hi' ht
  · exact herr e t
  · exact hk a t hi' ht

theorem settles_keep {Q : Except Failure α → Shop → Prop} {p : ShopProg α}
    (hP : ∀ t t', Grows t t' → P t → P t') (h : Settles cfg Q p s) (hs : P s) :
    Settles cfg (fun r t => Q r t ∧ P t) p s :=
  Holds.persist settlements_rely hP h hs

theorem settles_last {Q : Except Failure α → Shop → Prop} {p : ShopProg α}
    (hP : ∀ t t', Grows t t' → P t → P t') (hp : Calls steady p)
    (hQ : ∀ r t, P t → Q r t) (hs : P s) : Settles cfg Q p s :=
  Holds.mono (fun r t _ h => hQ r t h) (settles_steady hP hp hs)

theorem settles_withLock {Q : Except Failure α → Shop → Prop} {key : ShopLock} {token : ℕ}
    {fn : ShopProg α} (hQ : ∀ r t t', Grows t t' → Q r t → Q r t') (herr : ∀ e t, Q (.error e) t)
    (hlocks : ∀ m r (t : Shop), Q r t → Q r { t with locks := m })
    (hfn : ∀ t, Ledger t → Settles cfg Q fn t) : Settles cfg Q (LockService.withLock key token fn) s := by
  refine LockService.holds_withLock_result hQ herr hlocks (fun m t hi => ⟨hi.order, hi.amount⟩)
    (fun l i m t _ _ => ⟨settlements_same _ i t, ?_, .refl t⟩) hfn
  exact grows_of_orders rfl fun id o ho => ⟨o, ho, rfl, fun h => h⟩

theorem settles_requireBind {Q : Except Failure α → Shop → Prop} {action : Option PaymentAction}
    {id : ℕ} {k : Payment → ShopProg α}
    (herr : ∀ e t, Q (.error e) t)
    (hk : ∀ (payment : Payment) (t : Shop), Ledger t → payment.id = id →
      t.payments.find? id = some payment → Settles cfg Q (k payment) t) :
    Settles cfg Q ((requirePayment action id).bind k) s := by
  simp only [requirePayment, findById, Prog.bind_eq, Prog.bind_assoc]
  refine holds_lookupBind (fun t i _ _ => settlements_same _ i t) (fun e t _ _ => herr e t) ?_
  intro t i payment _ hi _ hf
  have hfind := (Option.filter_eq_some_iff.mp hf).1
  exact hk payment t hi (Table.find?_mem hfind).2 hfind

theorem settles_updateBind {Q : Except Failure α → Shop → Prop} {id : ℕ} {read : PaymentStatus}
    {write : PaymentWrite} {k : Payment → ShopProg α}
    (hl : steady (.payment (.update id read write)) = true) (herr : ∀ e t, Q (.error e) t)
    (hk : ∀ i updated t u, Grows s t → Ledger t → Ledger u →
      PaidInFull cfg (.payment (.update id read write)) i t →
      writePayment id write i.now t = .ok (updated, u) → Settles cfg Q (k updated) u) :
    Settles cfg Q ((updatePayment id read write).bind k) s := by
  refine holds_atomicBind fun t ht hi i hok =>
    ⟨settlements_same _ i t, fun e t' _ _ _ => herr e t', fun updated u _ hu => ?_⟩
  have he : Effect (.payment (.update id read write)) i.now t u := .inr ⟨updated, hu⟩
  have hg : Grows t u := grows_of_effect (i := i) hi hok (placing_of_steady hl) he
  have hi' : Ledger u := hi.effect hg he
  exact ⟨hi', ⟨hg, confirmedPaid_of_steady hl he⟩, hk i updated t u ht hi hi' hok hu⟩

end Threads

/-! ### Capture -/

section Capture

variable {cfg : PaymentConfig} {s s' : Shop} {id orderId now : ℕ} {r : Payment}

theorem isCaptured_of_write {write : PaymentWrite} (hw : write.target = .captured)
    (h : writePayment id write now s = .ok (r, s')) : IsCaptured id s' := by
  obtain ⟨q, hq, -, rfl⟩ := writePayment_cases h
  exact ⟨_, Table.find?_update_self (key_applyWrite now write) hq, (status_applyWrite q write).trans hw⟩

theorem capturedTotal_capture (h : writePayment id .capture now s = .ok (r, s')) :
    capturedTotal orderId s' = s.payments.total
      (fun q => q.orderId == orderId && (q.id == id || q.status == .captured)) Payment.amount := by
  obtain ⟨q, -, -, rfl⟩ := writePayment_cases h
  simp only [capturedTotal, Table.total, Table.rows_update, List.map_map]
  congr 1
  refine List.map_congr_left fun a _ => ?_
  by_cases ha : key a = id
  · have hid : a.id = id := ha
    simp [ha, hid, PaymentWrite.target]
  · have hid : a.id ≠ id := ha
    simp [ha, hid]

theorem covered_of_covers {payment : Payment} (hi : Ledger s)
    (hp : s.payments.find? id = some payment) (hc : covers id s = true)
    (h : writePayment id .capture now s = .ok (r, s')) : Covered payment.orderId s' := by
  obtain ⟨o, ho⟩ := hi.order payment (Table.find?_mem hp).1
  have hpaid : o.status ≠ .pending ∨ o.grandTotal ≤ capturedTotal payment.orderId s' := by
    rw [capturedTotal_capture h]
    simpa [covers, hp, ho] using hc
  obtain ⟨q, -, -, rfl⟩ := writePayment_cases h
  exact ⟨o, ho, hpaid⟩

theorem settles_confirmOrder {P : Shop → Prop} {order : Order}
    (hP : ∀ t t', Grows t t' → P t → P t') (hid : order.id = orderId) (hc : Covered orderId s)
    (hs : P s) : Settles cfg (fun _ t => P t)
      (atomic (.payment (.confirmOrder orderId)) fun i s => Payments.confirmOrder order i.now s) s := by
  refine holds_atomic fun t ht hi i _ =>
    ⟨settlements_same _ i t, fun e t' _ ht' _ => hP s t' (ht.trans ht') hs, fun b u _ hu => ?_⟩
  obtain ⟨-, hp, horders, -⟩ := confirmOrder_cases hu
  rw [hid] at horders
  have hg : Grows t u := grows_of_orders hp (orders_setStatus (by decide) horders)
  have he : Effect (.payment (.confirmOrder orderId)) i.now t u := .inr ⟨order, hid, hu⟩
  exact ⟨hi.effect hg he, ⟨hg, confirmedPaid_of_covered (hc.grows ht) hp horders⟩,
    fun t' ht' _ => hP s t' (ht.trans (hg.trans ht')) hs⟩

theorem settles_confirmAfterCapture {P : Shop → Prop} (hP : ∀ t t', Grows t t' → P t → P t')
    (hc : cfg.needsPostCaptureOrderConfirm = true → Covered orderId s) (hs : P s) :
    Settles cfg (fun _ t => P t) (confirmAfterCapture cfg orderId) s := by
  unfold confirmAfterCapture
  split
  next hcfg =>
    refine holds_queryBind fun t ht hi i _ => ⟨settlements_same _ i t, ?_, fun _ => ?_⟩
    · exact fun t' ht' _ => hP s t' (ht.trans ht') hs
    have hPt := hP s t ht hs
    cases hf : (t.orders.find? orderId).filter fun o => !o.deleted with
    | none => exact fun t' ht' _ => hP t t' ht' hPt
    | some order =>
      have hid : order.id = orderId := (Table.find?_mem (Option.filter_eq_some_iff.mp hf).1).2
      dsimp only
      split
      · exact fun t' ht' _ => hP t t' ht' hPt
      · refine Holds.bind (Holds.attempt (Holds.mono ?_
          (settles_confirmOrder hP hid ((hc hcfg).grows ht) hPt))) hi
        exact fun r t' _ ht' t'' ht'' _ => hP t' t'' ht'' ht'
  · exact fun t ht _ => hP s t ht hs

/-- What is known once `capture` has returned. -/
def Captures (id : ℕ) (r : Except Failure Payment) (t : Shop) : Prop :=
  ∀ p, r = .ok p → IsCaptured id t

theorem captures_error (e : Failure) (t : Shop) : Captures id (.error e) t :=
  fun _ h => nomatch h

theorem settles_recordCapture {payment p : Payment} (hp : s.payments.find? payment.id = some p)
    (horder : p.orderId = payment.orderId) (actorId : ℕ) (reference : String) :
    Settles cfg (Captures payment.id) (recordCapture cfg payment actorId reference) s := by
  refine settles_updateBind rfl captures_error fun i updated t u ht hi hi' hok hu => ?_
  let known : Shop → Prop := fun t => IsCaptured payment.id t ∧
    (cfg.needsPostCaptureOrderConfirm = true → Covered payment.orderId t)
  have hknown : ∀ t t', Grows t t' → known t → known t' := fun t t' hg h =>
    ⟨h.1.grows hg, fun hcfg => (h.2 hcfg).grows hg⟩
  obtain ⟨p', hpt, horder', -, -⟩ := ht.payments _ _ hp
  have hu' : known u := by
    refine ⟨isCaptured_of_write rfl hu, fun hcfg => ?_⟩
    rw [← horder, ← horder']
    exact covered_of_covers hi hpt (hok hcfg) hu
  refine settles_steadyBind hknown (calls_createTransaction _ _ _ _).routine.steady captures_error ?_ hi' hu'
  intro _ t hi ht
  refine settles_steadyBind hknown (calls_audit _ _ _ _ _).routine.steady captures_error ?_ hi ht
  intro _ t hi ht
  refine settles_steadyBind hknown (calls_createEvent _ _).routine.steady captures_error ?_ hi ht
  intro _ t hi ht
  refine Holds.bind (Holds.mono ?_ (settles_confirmAfterCapture hknown ht.2 ht)) hi
  rintro (e | _) t hi ht
  · exact captures_error e t
  refine settles_steadyBind hknown calls_enqueue.routine.steady captures_error ?_ hi ht
  exact fun _ t _ ht t' ht' _ _ _ => (hknown t t' ht' ht).1

theorem settles_captureZero (payment : Payment) (actorId : ℕ) :
    Settles cfg (Captures payment.id) (captureZero payment actorId) s := by
  refine settles_updateBind rfl captures_error fun i updated t u _ _ hi hok hu => ?_
  have hP : ∀ t t', Grows t t' → IsCaptured payment.id t → IsCaptured payment.id t' :=
    fun _ _ hg h => h.grows hg
  refine settles_last hP ?_ (fun _ _ h _ _ => h) (isCaptured_of_write rfl hu)
  exact (calls_audit _ _ _ _ _).routine.steady.bind fun _ => .pure _

theorem settles_markFailed (payment : Payment) (actorId : ℕ) (reason : String) (hi : Ledger s) :
    Settles cfg (Captures id) (markFailed payment actorId reason) s := by
  have hP : ∀ t t', Grows t t' → True → True := fun _ _ _ h => h
  refine settles_steadyBind hP (calls_updatePayment rfl) captures_error ?_ hi trivial
  intro _ t hi _
  refine settles_steadyBind hP (calls_audit _ _ _ _ _).routine.steady captures_error ?_ hi trivial
  exact fun _ t _ _ t' _ _ => captures_error _ t'

theorem settles_capturePayment {payment : Payment} (hi : Ledger s)
    (hp : s.payments.find? payment.id = some payment) (actorId : ℕ) :
    Settles cfg (Captures payment.id) (capturePayment cfg payment actorId) s := by
  unfold capturePayment
  split
  · split
    · exact settles_captureZero payment actorId
    · exact fun t _ _ => captures_error _ t
  · let known : Shop → Prop := fun t => ∃ p, t.payments.find? payment.id = some p ∧
      p.orderId = payment.orderId
    have hknown : ∀ t t', Grows t t' → known t → known t' := by
      rintro t t' hg ⟨p, hp, horder⟩
      obtain ⟨p', hp', horder', -⟩ := hg.payments _ p hp
      exact ⟨p', hp', horder'.trans horder⟩
    refine settles_steadyBind hknown (calls_withRetry (calls_gatewayCall _) _).routine.steady captures_error
      ?_ hi ⟨payment, hp, rfl⟩
    rintro result t hi ⟨p, hp, horder⟩
    split
    · exact settles_markFailed payment actorId _ hi
    · exact settles_recordCapture hp horder actorId _

theorem settles_capture (token actorId : ℕ) (asAdmin : Bool) :
    Settles cfg (Captures id) (capture cfg token id actorId asAdmin) s := by
  refine settles_withLock (fun r t t' hg h p hp => (h p hp).grows hg) captures_error
    (fun _ _ _ h => h) fun t hi => settles_requireBind captures_error ?_
  rintro payment t hi rfl hp
  refine Holds.ensureBind (fun _ => ?_) fun _ t' _ _ => captures_error _ t'
  split
  next hst => exact fun t' ht' _ _ _ => IsCaptured.grows ht' ⟨payment, hp, hst⟩
  · refine Holds.ensureBind (fun _ => ?_) fun _ t' _ _ => captures_error _ t'
    exact settles_capturePayment hi hp actorId

theorem settles_retry (token actorId : ℕ) (hi : Ledger s) :
    Settles cfg (fun _ _ => True) (retry cfg token id actorId) s := by
  have hP : ∀ t t', Grows t t' → True → True := fun _ _ _ h => h
  have herr : ∀ (_ : Failure) (_ : Shop), True := fun _ _ => trivial
  refine settles_steadyBind hP (calls_requirePayment _ _).routine.steady herr ?_ hi trivial
  intro payment t hi _
  refine Holds.ensureBind (fun _ => ?_) fun _ _ _ _ => trivial
  refine Holds.ensureBind (fun _ => ?_) fun _ _ _ _ => trivial
  refine settles_steadyBind hP calls_enqueue.routine.steady herr ?_ hi trivial
  intro _ t hi _
  refine settles_steadyBind hP (calls_reopen _).steady herr ?_ hi trivial
  intro _ t hi _
  refine settles_steadyBind hP (calls_authorize _ _ _ _).ofAmending.steady herr ?_ hi
    trivial
  intro authorized t hi _
  split
  · exact Holds.mono (fun _ _ _ _ => trivial) (settles_capture token actorId false)
  · exact fun _ _ _ => trivial

end Capture

/-! ### Create -/

section Checkout

variable {cfg : PaymentConfig} {s : Shop}

/-- The payment that `create` returns is for the order and the amount it was asked for. -/
def Creates (dto : CreatePaymentDto) (r : Except Failure Payment) (t : Shop) : Prop :=
  ∀ p, r = .ok p → PaymentOf p.id dto.orderId dto.amount t

theorem creates_error {dto : CreatePaymentDto} (e : Failure) (t : Shop) :
    Creates dto (.error e) t :=
  fun _ h => nomatch h

theorem settles_insertPayment {order : Order} {actorId gatewayId : ℕ} {gatewayOrderId : String}
    {dto : CreatePaymentDto} (hid : order.id = dto.orderId) :
    Settles cfg (Creates dto) ((atomic (.payment (.createPayment order.id dto.amount)) fun _ s =>
      insertPayment order actorId gatewayId gatewayOrderId dto s).bind fun payment => do
        createAttempt payment.id 1 .pending none
        audit payment.id "create" (some actorId) none (some .pending)
        createEvent payment.id "payment.created"
        pure payment) s := by
  refine holds_atomicBind fun t ht hi i hok =>
    ⟨settlements_same _ i t, fun e t' _ _ _ => creates_error e t', fun payment u _ hu => ?_⟩
  have he : Effect (.payment (.createPayment order.id dto.amount)) i.now t u :=
    .inr ⟨order, actorId, gatewayId, gatewayOrderId, dto, payment, rfl, rfl, hu⟩
  have hg : Grows t u := grows_of_insertPayment hu
  have hi' : Ledger u := hi.effect hg he
  refine ⟨hi', ⟨hg, confirmedPaid_of_steady rfl he⟩, ?_⟩
  have hP : ∀ t t', Grows t t' → PaymentOf payment.id dto.orderId dto.amount t →
      PaymentOf payment.id dto.orderId dto.amount t' := fun _ _ hg h => h.grows hg
  have hnew : PaymentOf payment.id dto.orderId dto.amount u := by
    obtain ⟨mk, hmk, hrow, -, -, rfl, rfl⟩ := insertPayment_cases hu
    have hkey : (mk t.payments.next).id = t.payments.next := hmk _
    refine ⟨mk t.payments.next, ?_, (hrow _).1.trans hid, (hrow _).2.1⟩
    rw [hkey]
    exact Table.find?_insert_next hmk
  refine settles_steadyBind hP (calls_createAttempt _ _ _ _).routine.steady creates_error ?_ hi' hnew
  intro _ t hi ht
  refine settles_steadyBind hP (calls_audit _ _ _ _ _).routine.steady creates_error ?_ hi ht
  intro _ t hi ht
  refine settles_steadyBind hP (calls_createEvent _ _).routine.steady creates_error ?_ hi ht
  rintro _ t hi ht t' ht' _ p ⟨⟩
  exact hP t t' ht' ht

theorem settles_create (actorId : ℕ) (dto : CreatePaymentDto) :
    Settles cfg (Creates dto) (create actorId dto) s := by
  have hP : ∀ t t', Grows t t' → True → True := fun _ _ _ h => h
  refine holds_lookupBind (fun t i _ _ => settlements_same _ i t) (fun e t _ _ => creates_error e t) ?_
  intro t i order _ hi _ hf
  have hid : order.id = dto.orderId := (Table.find?_mem (Option.filter_eq_some_iff.mp hf).1).2
  refine Holds.ensureBind (fun _ => ?_) fun _ t' _ _ => creates_error _ t'
  refine Holds.ensureBind (fun _ => ?_) fun _ t' _ _ => creates_error _ t'
  refine settles_steadyBind hP calls_findGateway.routine.steady creates_error ?_ hi trivial
  intro found t hi _
  refine Holds.orThrowBind (fun gateway _ => ?_) fun _ t' _ _ => creates_error _ t'
  refine settles_steadyBind hP (calls_withRetry (calls_gatewayCall _) _).routine.steady
    creates_error ?_ hi trivial
  exact fun gwOrder t _ _ => settles_insertPayment hid

/-! ### The steps of a checkout -/

theorem settles_createDraftOrder (cart : Cart) (items : List CartItem) (ctx : CheckoutContext) :
    Settles cfg (fun r t => ∀ patch, r = .ok patch →
      ∃ oid, patch ctx = { ctx with orderId := some oid } ∧ OrderOf oid ctx.amount t)
      (createDraftOrder cart items ctx) s := by
  refine holds_atomicBind fun t ht hi i hok =>
    ⟨settlements_same _ i t, fun e t' _ _ _ => nofun, fun order u _ hu => ?_⟩
  have he : Effect (.order (.createOrder ctx.userId ctx.cartId)) i.now t u :=
    .inr ⟨cart, items, ctx, i.reply.random, order, rfl, hu⟩
  have hok' : PaidInFull cfg (.order (.createOrder ctx.userId ctx.cartId)) i t := hok
  have hg : Grows t u := grows_of_effect hi hok' rfl he
  refine ⟨hi.effect hg he, ⟨hg, confirmedPaid_of_steady rfl he⟩, ?_⟩
  rintro t' ht' - patch ⟨⟩
  obtain ⟨rfl, horders, -, -⟩ := insertOrder_cases hu
  refine ⟨t.orders.next, rfl, OrderOf.grows ht'
    ⟨draftOrder cart ctx ⟨i.now, i.reply.random⟩ t.orders.next, ?_, rfl⟩⟩
  rw [horders]
  exact Table.find?_insert_next _

theorem settles_reserveInventory (token : ℕ) (items : List CartItem) (ctx : CheckoutContext)
    (hi : Ledger s) :
    Settles cfg (fun r _ => ∀ patch, r = .ok patch →
      ∃ ids, patch ctx = { ctx with reservationIds := ids })
      (reserveInventory token items ctx) s := by
  have hP : ∀ t t', Grows t t' → True → True := fun _ _ _ h => h
  refine settles_steadyBind hP (calls_reserveLines _ _ _).routine.steady (fun _ _ => nofun) ?_ hi trivial
  intro ids t hi _
  refine settles_steadyBind hP (calls_linkReservations _ _).routine.steady (fun _ _ => nofun) ?_ hi trivial
  rintro _ t _ _ t' _ _ patch ⟨⟩
  exact ⟨ids, rfl⟩

theorem settles_createPayment {oid : ℕ} (ctx : CheckoutContext) (horder : ctx.orderId = some oid)
    (hi : Ledger s) :
    Settles cfg (fun r t => ∀ patch, r = .ok patch →
      ∃ pid, patch ctx = { ctx with paymentId := some pid } ∧ PaymentOf pid oid ctx.amount t)
      (createPayment ctx) s := by
  refine Holds.ensureBind (fun _ => ?_) fun _ _ _ _ => nofun
  refine Holds.orThrowBind (fun id hid => ?_) fun _ _ _ _ => nofun
  obtain rfl := Option.some.inj (horder.symm.trans hid)
  refine Holds.bind (Holds.mono ?_ (settles_create ctx.userId _)) hi
  rintro (e | payment) t _ hp
  · exact nofun
  rintro t' ht' - patch ⟨⟩
  exact ⟨payment.id, rfl, (hp payment rfl).grows ht'⟩

theorem settles_noPatch {p : ShopProg Unit} {Q : Shop → Prop} (hi : Ledger s)
    (hQ : ∀ t t', Grows t t' → Q t → Q t')
    (hp : Settles cfg (fun r t => r = .ok () → Q t) p s) :
    Settles cfg (fun r t => ∀ patch, r = .ok patch → patch = id ∧ Q t) (noPatch p) s := by
  refine Holds.bind (Holds.mono ?_ hp) hi
  rintro (e | _) t _ ht
  · exact nofun
  rintro t' ht' - patch ⟨⟩
  exact ⟨rfl, hQ t t' ht' (ht rfl)⟩

theorem settles_captureStep {pid : ℕ} (token : ℕ) (ctx : CheckoutContext)
    (hpid : ctx.paymentId = some pid) (hi : Ledger s) :
    Settles cfg (fun r t => r = .ok () → cfg.autoSettle = true → IsCaptured pid t)
      (captureStep cfg token ctx) s := by
  unfold captureStep whenSettling
  split
  · refine Holds.orThrowBind (fun id hid => ?_) fun _ _ _ _ => nofun
    obtain rfl := Option.some.inj (hpid.symm.trans hid)
    refine Holds.bind (Holds.mono ?_ (settles_capture token ctx.userId false)) hi
    rintro (e | payment) t _ hp
    · exact nofun
    exact fun t' ht' _ _ _ => (hp payment rfl).grows ht'
  next hcfg => exact fun t' _ _ _ hauto => (hcfg hauto).elim

theorem settles_confirmStep {oid : ℕ} (ctx : CheckoutContext) (horder : ctx.orderId = some oid)
    (hc : cfg.autoSettle = true → Covered oid s) :
    Settles cfg (fun _ _ => True) (confirmStep cfg ctx) s := by
  unfold confirmStep whenSettling
  split
  next hcfg =>
    refine Holds.ensureBind (fun _ => ?_) fun _ _ _ _ => trivial
    refine Holds.orThrowBind (fun id hid => ?_) fun _ _ _ _ => trivial
    obtain rfl := Option.some.inj (horder.symm.trans hid)
    refine holds_atomicBind fun t ht hi i hok =>
      ⟨settlements_same _ i t, fun e t' _ _ _ => trivial, fun b u _ hu => ?_⟩
    obtain ⟨-, hp, -, horders⟩ := transitionOrder_cases hu
    have he : Effect (.order (.transitionStatus oid .pending .confirmed)) i.now t u := .inr ⟨_, hu⟩
    have hg : Grows t u := grows_of_orders hp (orders_setStatus (by decide) horders)
    refine ⟨hi.effect hg he, ⟨hg, confirmedPaid_of_covered ((hc hcfg).grows ht) hp horders⟩, ?_⟩
    refine settles_steady (fun _ _ _ h => h) ?_ trivial
    exact (calls_markConverted _).ofAmending.steady.bind fun _ => (calls_createRiskScore _ _ _).routine.steady
  · exact fun _ _ _ => trivial

theorem settles_step {P : Shop → Prop} {R : CheckoutContext → Shop → Prop} {deadline : ℕ}
    {step : CheckoutStep} {rest completed all : List CheckoutStep} {ctx : CheckoutContext}
    (hall : ∀ step ∈ all, ∀ ctx f, step.compensate = some f → Calls steady (f ctx))
    (hsub : completed ⊆ all) (hstep : step ∈ all) (hP : ∀ t t', Grows t t' → P t → P t')
    (hR : ∀ c t t', Grows t t' → R c t → R c t')
    (hexec : ∀ t, Ledger t → P t →
      Settles cfg (fun r t' => ∀ patch, r = .ok patch → R (patch ctx) t') (step.execute ctx) t)
    (hrest : step :: completed ⊆ all → ∀ c t, Ledger t → P t → R c t →
      Settles cfg (fun _ _ => True) (SagaCoordinator.runSteps deadline rest (step :: completed) c) t)
    (hs : P s) :
    Settles cfg (fun _ _ => True) (SagaCoordinator.runSteps deadline (step :: rest) completed ctx) s := by
  refine SagaCoordinator.holds_runSteps (R := fun patch => R (patch ctx)) settlements_rely hP
    (fun patch => hR (patch ctx)) (fun _ => settlements_same _) (fun _ => settlements_same _)
    hexec (fun patch t => hrest (List.cons_subset.mpr ⟨hstep, hsub⟩) (patch ctx) t) ?_ hs
  intro message status t _
  refine settles_steady (fun _ _ _ h => h) ?_ trivial
  exact SagaCoordinator.every_failAndCompensate
    (fun step hmem f hf => hall step (hsub hmem) ctx f hf) message status

/-- What is known in the workflow from the creation of the payment on. -/
structure Known (ctx : CheckoutContext) (oid pid : ℕ) (t : Shop) : Prop where
  order : ctx.orderId = some oid
  payment : ctx.paymentId = some pid
  orderOf : OrderOf oid ctx.amount t
  paymentOf : PaymentOf pid oid ctx.amount t

theorem Known.grows {ctx : CheckoutContext} {oid pid : ℕ} {t t' : Shop} (hg : Grows t t')
    (h : Known ctx oid pid t) : Known ctx oid pid t' :=
  ⟨h.order, h.payment, h.orderOf.grows hg, h.paymentOf.grows hg⟩

theorem settles_steps (token deadline : ℕ) (cart : Cart) (items : List CartItem)
    (ctx : CheckoutContext) :
    Settles cfg (fun _ _ => True)
      (SagaCoordinator.runSteps deadline (steps cfg token cart items) [] ctx) s := by
  have hall : ∀ step ∈ steps cfg token cart items, ∀ ctx f, step.compensate = some f →
      Calls steady (f ctx) := fun step hstep ctx =>
    calls_compensate (fun _ h => steady_of_routine (routine_of_amending h)) (fun _ _ => rfl) cfg token
      cart items ctx step hstep
  have hkept : ∀ t t', Grows t t' → True → True := fun _ _ _ h => h
  -- create_draft_order
  refine settles_step hall (List.nil_subset _) (by simp [steps]) hkept
    (R := fun c t => ∃ oid, c.orderId = some oid ∧ OrderOf oid c.amount t)
    (fun c t t' hg h => h.imp fun oid h => ⟨h.1, h.2.grows hg⟩) ?_ ?_ trivial
  · refine fun t _ _ => Holds.mono (fun r t' _ h patch hr => ?_) (settles_createDraftOrder cart items ctx)
    obtain ⟨oid, hpatch, ho⟩ := h patch hr
    exact ⟨oid, by rw [hpatch], by rwa [hpatch]⟩
  rintro hsub ctx t _ - ⟨oid, hctx, ho⟩
  -- reserve_inventory
  refine settles_step hall hsub (by simp [steps]) (P := OrderOf oid ctx.amount)
    (R := fun c t => c.orderId = some oid ∧ OrderOf oid c.amount t) (fun _ _ hg h => h.grows hg)
    (fun c t t' hg h => ⟨h.1, h.2.grows hg⟩) ?_ ?_ ho
  · intro t hi ho
    refine Holds.mono (fun r t' _ h patch hr => ?_) (settles_keep
      (fun _ _ => OrderOf.grows) (settles_reserveInventory token items ctx hi) ho)
    obtain ⟨ids, hpatch⟩ := h.1 patch hr
    exact ⟨by rw [hpatch, hctx], by rw [hpatch]; exact h.2⟩
  clear hctx ho
  rintro hsub ctx t _ - ⟨hctx, ho⟩
  -- create_payment
  refine settles_step hall hsub (by simp [steps]) (P := OrderOf oid ctx.amount)
    (R := fun c t => ∃ pid, Known c oid pid t) (fun _ _ hg h => h.grows hg)
    (fun c t t' hg h => h.imp fun pid hk => hk.grows hg) ?_ ?_ ho
  · intro t hi ho
    refine Holds.mono (fun r t' _ h patch hr => ?_) (settles_keep
      (fun _ _ => OrderOf.grows) (settles_createPayment ctx hctx hi) ho)
    obtain ⟨pid, hpatch, hpay⟩ := h.1 patch hr
    rw [hpatch]
    exact ⟨pid, hctx, rfl, h.2, hpay⟩
  clear hctx ho
  rintro hsub ctx t _ - ⟨pid, hk⟩
  -- authorize_payment
  refine settles_step hall hsub (by simp [steps]) (P := Known ctx oid pid)
    (R := fun c t => Known c oid pid t) (fun _ _ hg h => h.grows hg)
    (fun c t t' hg h => h.grows hg) ?_ ?_ hk
  · intro t hi hk
    have hauth : Settles cfg (fun r t => r = .ok () → Known ctx oid pid t)
        (authorizeStep cfg token ctx) t :=
      settles_last (fun _ _ hg h => Known.grows hg h) (calls_authorizeStep cfg token ctx).ofAmending.steady
        (fun _ _ h _ => h) hk
    refine Holds.mono (fun r t' _ h patch hr => ?_) (settles_noPatch hi (fun _ _ => Known.grows) hauth)
    obtain ⟨rfl, hk⟩ := h patch hr
    exact hk
  clear hk
  rintro hsub ctx t _ - hk
  -- capture_payment
  refine settles_step hall hsub (by simp [steps]) (P := Known ctx oid pid)
    (R := fun c t => Known c oid pid t ∧ (cfg.autoSettle = true → IsCaptured pid t))
    (fun _ _ hg h => h.grows hg) (fun c t t' hg h => ⟨h.1.grows hg, fun hc => (h.2 hc).grows hg⟩) ?_ ?_ hk
  · intro t hi hk
    have hcap := settles_noPatch hi
      (fun (t t' : Shop) hg (h : cfg.autoSettle = true → IsCaptured pid t) hc => (h hc).grows hg)
      (settles_captureStep token ctx hk.payment hi)
    refine Holds.mono (fun r t' _ h patch hr => ?_) (settles_keep (fun _ _ => Known.grows) hcap hk)
    obtain ⟨rfl, hcaptured⟩ := h.1 patch hr
    exact ⟨h.2, hcaptured⟩
  clear hk
  rintro hsub ctx t _ - hk
  -- confirm_order
  refine settles_step hall hsub (by simp [steps])
    (P := fun t => Known ctx oid pid t ∧ (cfg.autoSettle = true → IsCaptured pid t))
    (R := fun _ _ => True) (fun t t' hg h => ⟨h.1.grows hg, fun hc => (h.2 hc).grows hg⟩)
    (fun _ _ _ _ h => h) ?_ (fun _ _ _ _ _ _ _ _ _ => trivial) hk
  rintro t hi ⟨hk, hcaptured⟩
  have hconfirm := settles_confirmStep ctx hk.order fun hcfg =>
    covered_of_captured hi hk.orderOf hk.paymentOf (hcaptured hcfg)
  exact Holds.mono (fun _ _ _ _ _ _ => trivial)
    (settles_noPatch hi (Q := fun _ => True) (fun _ _ _ h => h) (Holds.mono (fun _ _ _ h _ => h) hconfirm))

theorem settles_checkout (token userId : ℕ) (dto : CheckoutDto) :
    Settles cfg (fun _ _ => True) (checkout cfg token userId dto) s := by
  have hkept : ∀ t t', Grows t t' → True → True := fun _ _ _ h => h
  have herr : ∀ (_ : Failure) (_ : Shop), True := fun _ _ => trivial
  refine settles_withLock (fun _ _ _ _ h => h) herr (fun _ _ _ h => h) fun t hi => ?_
  refine settles_steadyBind hkept (calls_selectCart _ _).routine.steady herr ?_ hi trivial
  intro found t hi _
  refine Holds.orThrowBind (fun cart _ => ?_) fun _ _ _ _ => trivial
  refine settles_steadyBind hkept (calls_validateTenders _ _).routine.steady herr ?_ hi trivial
  intro _ t hi _
  refine Holds.bind (Holds.mono ?_ (SagaCoordinator.holds_run (fun _ => settlements_same _)
    fun deadline t _ _ => settles_steps token deadline cart.1 cart.2 _)) hi
  rintro (e | result) t hi -
  · trivial
  · exact settles_steady hkept (calls_concludeCheckout result).routine.steady trivial

end Checkout

/-! ### Whole runs -/

inductive SettlementRequest where
  | checkout (userId : ℕ) (dto : CheckoutDto)
  | create (actorId : ℕ) (dto : CreatePaymentDto)
  | authorize (paymentId actorId : ℕ) (asAdmin : Bool)
  | capture (paymentId actorId : ℕ) (asAdmin : Bool)
  | cancel (paymentId actorId : ℕ) (asAdmin : Bool)
  | retry (paymentId actorId : ℕ)
deriving DecidableEq, Repr

def SettlementRequest.prog (cfg : PaymentConfig) (token : ℕ) : SettlementRequest → ShopProg Unit
  | .checkout userId dto => (Orders.checkout cfg token userId dto).bind fun _ => pure ()
  | .create actorId dto => (Payments.create actorId dto).bind fun _ => pure ()
  | .authorize id actorId asAdmin => (Payments.authorize token id actorId asAdmin).bind fun _ => pure ()
  | .capture id actorId asAdmin => (Payments.capture cfg token id actorId asAdmin).bind fun _ => pure ()
  | .cancel id actorId asAdmin => (Payments.cancel token id actorId asAdmin).bind fun _ => pure ()
  | .retry id actorId => (Payments.retry cfg token id actorId).bind fun _ => pure ()

/-- All requests at once, each with a lock token of its own. -/
def settlement (cfg : PaymentConfig) (requests : List SettlementRequest) (s : Shop) : ShopPool Unit :=
  ⟨requests.mapIdx fun token r => r.prog cfg token, s⟩

theorem settles_request {cfg : PaymentConfig} {s : Shop} (token : ℕ) (r : SettlementRequest)
    (hi : Ledger s) : Settles cfg (fun _ _ => True) (r.prog cfg token) s := by
  have hend : ∀ {α : Type} {Q : Except Failure α → Shop → Prop} {p : ShopProg α},
      Settles cfg Q p s → Settles cfg (fun _ _ => True) (p.bind fun _ => pure ()) s := by
    intro α Q p h
    refine Holds.bind (Holds.mono ?_ h) hi
    rintro (e | a) t _ -
    · trivial
    · exact fun _ _ _ => trivial
  have hroutine : ∀ {α : Type} {p : ShopProg α}, Calls routine p →
      Settles cfg (fun _ _ => True) p s := fun h => settles_steady (fun _ _ _ h => h) h.steady trivial
  cases r with
  | checkout userId dto => exact hend (settles_checkout token userId dto)
  | create actorId dto => exact hend (settles_create actorId dto)
  | authorize id actorId asAdmin =>
    exact hend (hroutine (calls_authorize token id actorId asAdmin).ofAmending)
  | capture id actorId asAdmin => exact hend (settles_capture token actorId asAdmin)
  | cancel id actorId asAdmin =>
    exact hend (hroutine (calls_cancel token id actorId asAdmin).ofAmending)
  | retry id actorId => exact hend (settles_retry token actorId hi)

/-- In every interleaving of checkouts and payment requests, an order that goes from pending to
confirmed is paid. -/
theorem confirmed_orders_paid (cfg : PaymentConfig) (requests : List SettlementRequest) (s : Shop)
    (sched : List (ℕ × ShopInput)) (hs : Ledger s)
    (hok : (settlement cfg requests s).Admits (PaidInFull cfg) sched) (n : ℕ) :
    ConfirmedPaid ((settlement cfg requests s).run (sched.take n)).state
      ((settlement cfg requests s).run (sched.take (n + 1))).state := by
  have hc : Pool.Compatible (world cfg) settlements (fun _ => settlements)
      (fun _ (_ : Except Failure Unit) _ => True) 0 :=
    ⟨fun _ _ _ _ h => h.1, fun _ => rfl, fun _ _ _ => trivial⟩
  have hsafe : (settlement cfg requests s).Safe (world cfg) settlements (fun _ => settlements)
      fun _ _ _ => True := by
    refine ⟨hs, fun j t ht => ?_⟩
    obtain ⟨token, hlt, rfl⟩ := List.mem_mapIdx.mp (List.mem_of_getElem? ht)
    exact settles_request token _ hs
  exact hsafe.run_step hc ConfirmedPaid.refl (fun _ _ _ _ _ h => h.2) (Nat.zero_le _) hok n

/-- A pending order of 100 with its cart, and no payment yet. -/
def unpaid : Shop where
  users := [1]
  carts := oneCart
  orders := pendingOrder
  gateways := primaryGateway

def clientCapture : PaymentConfig := ⟨some false, some false⟩

/-- The owner creates a payment of that amount, has it authorized and captures it. -/
def payOnce (amount : ℚ) : List SettlementRequest :=
  [.create 1 { orderId := 0, amount }, .authorize 0 1 false, .capture 0 1 false]

/-- `n` calls of request `j`, with a gateway that answers so. -/
def during (j n : ℕ) (status : GatewayStatus) : List (ℕ × ShopInput) :=
  List.replicate n
    (j, { reply := { status, gatewayOrderId := "order_1", gatewayPaymentId := "pay_1" } })

def oneByOne : List (ℕ × ShopInput) :=
  during 0 7 .pending ++ during 1 10 .authorized ++ during 2 11 .captured

theorem ledger_unpaid : Ledger unpaid :=
  ⟨fun _ h => (List.not_mem_nil h).elim, fun _ h => (List.not_mem_nil h).elim⟩

/-- A payment of the full amount: the last but two of the calls confirms the order. -/
theorem confirmed_orders_paid_once :
    (((settlement clientCapture (payOnce 100) unpaid).run
        (oneByOne.take (25 + 1))).state.orders.find? 0).map Order.status = some .confirmed ∧
      ConfirmedPaid ((settlement clientCapture (payOnce 100) unpaid).run (oneByOne.take 25)).state
        ((settlement clientCapture (payOnce 100) unpaid).run (oneByOne.take (25 + 1))).state :=
  ⟨by decide +kernel, confirmed_orders_paid clientCapture (payOnce 100) unpaid oneByOne ledger_unpaid
    (by decide +kernel) 25⟩

/-- A payment of 1 confirms the order of 100. -/
theorem order_confirmed_unpaid :
    ¬ ∀ n, ConfirmedPaid ((settlement clientCapture (payOnce 1) unpaid).run (oneByOne.take n)).state
      ((settlement clientCapture (payOnce 1) unpaid).run (oneByOne.take (n + 1))).state := by
  intro h
  have hbefore : (((settlement clientCapture (payOnce 1) unpaid).run
      (oneByOne.take 25)).state.orders.find? 0).map (fun o => (o.status, o.grandTotal)) =
        some (.pending, 100) := by decide +kernel
  have hafter : (((settlement clientCapture (payOnce 1) unpaid).run
      (oneByOne.take (25 + 1))).state.orders.find? 0).map Order.status = some .confirmed := by
    decide +kernel
  have hpaid : capturedTotal 0 ((settlement clientCapture (payOnce 1) unpaid).run
      (oneByOne.take (25 + 1))).state = 1 := by decide +kernel
  obtain ⟨o, ho, hst⟩ := Option.map_eq_some_iff.mp hbefore
  obtain ⟨o', ho', hst'⟩ := Option.map_eq_some_iff.mp hafter
  obtain ⟨hpending, htotal⟩ := Prod.mk.inj hst
  have hle := h 25 0 o o' ho hpending ho' hst'
  rw [htotal, hpaid] at hle
  exact absurd hle (by decide)

end ElectronicsCart.Orders
