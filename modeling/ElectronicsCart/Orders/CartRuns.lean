import ElectronicsCart.Orders.HistoryRuns

/-!
# One confirmed order for a cart

The lock of a checkout is its user's, the cart stays active until an order of it is confirmed, and
the confirmation does not look at the cart again.  A cart has one order that is ever confirmed as
long as a draft order is only created when the cart's other orders are cancelled, and a cancelled
order stays so.
-/

namespace ElectronicsCart.Orders

open Interleaving Relational Payments

def retired (o : Order) : Bool := o.status == .cancelled && o.placedAt.isNone

/-- A status other than `cancelled` is written over the one it comes from, or in any case not over
`cancelled`. -/
def unstale (l : ShopCall) (s : Shop) : Bool :=
  (moveOf l).all fun m => m.after == .cancelled ||
    (s.orders.find? m.orderId).all fun o => o.status == m.before || o.status != .cancelled

/-- A draft order is created for a cart all of whose orders are retired, and a status is not
written over `cancelled` by a call that read another one. -/
def replaces (l : ShopCall) (s : Shop) : Bool :=
  match l with
  | .order (.createOrder _ cartId) =>
    s.orders.rows.all fun o => o.cartId != some cartId || retired o
  | _ => unstale l s

def Replaces (l : ShopCall) (_ : ShopInput) (s : Shop) : Prop := replaces l s = true

instance (l : ShopCall) (i : ShopInput) (s : Shop) : Decidable (Replaces l i s) :=
  inferInstanceAs (Decidable (_ = _))

/-- A confirmed order says when it was placed, and a cart has one order that is not retired. -/
structure OneOrderEach (s : Shop) : Prop where
  placed : ∀ o ∈ s.orders.rows, o.status = .confirmed → o.placedAt.isSome
  single : ∀ a ∈ s.orders.rows, ∀ b ∈ s.orders.rows, ∀ c, a.cartId = some c → b.cartId = some c →
    retired a = false → retired b = false → a.id = b.id

theorem retired_eq_false {o : Order} :
    retired o = false ↔ o.status ≠ .cancelled ∨ o.placedAt.isSome := by
  cases ho : o.placedAt <;> simp [retired, ho]

theorem not_retired_setStatus {o : Order} {status : OrderStatus} {now : ℕ}
    (hlive : status ≠ .cancelled → o.status ≠ .cancelled)
    (h : retired (setStatus status now o) = false) : retired o = false := by
  rw [retired_eq_false] at h ⊢
  by_cases hst : status = .cancelled
  · subst hst
    exact .inr (h.resolve_left fun hne => hne rfl)
  · exact .inl (hlive hst)

/-! ### What a call keeps of an order -/

def OrdersStay (s s' : Shop) : Prop :=
  ∀ o ∈ s.orders.rows, ∃ o' ∈ s'.orders.rows, o'.id = o.id ∧ o'.cartId = o.cartId ∧
    (o.placedAt.isSome → o'.placedAt.isSome)

theorem OrdersStay.refl (s : Shop) : OrdersStay s s := fun o ho => ⟨o, ho, rfl, rfl, fun h => h⟩

theorem OrdersStay.trans {a b c : Shop} (h : OrdersStay a b) (h' : OrdersStay b c) :
    OrdersStay a c := by
  intro o ho
  obtain ⟨o₁, ho₁, hid₁, hcart₁, hplaced₁⟩ := h o ho
  obtain ⟨o₂, ho₂, hid₂, hcart₂, hplaced₂⟩ := h' o₁ ho₁
  exact ⟨o₂, ho₂, hid₂.trans hid₁, hcart₂.trans hcart₁, fun hp => hplaced₂ (hplaced₁ hp)⟩

theorem placedAt_setStatus {o : Order} {status : OrderStatus} {now : ℕ}
    (h : o.placedAt.isSome) : (setStatus status now o).placedAt.isSome := by
  unfold setStatus
  split
  · rfl
  · exact h

section Steps

variable {l : ShopCall} {i : ShopInput} {now : ℕ} {s s' : Shop}

theorem ordersStay_step (h : OrderStep l now s s') : OrdersStay s s' := by
  intro o ho
  cases h with
  | same horders hhistory => exact ⟨o, horders ▸ ho, rfl, rfl, fun hp => hp⟩
  | create cart ctx number userId hl horders hhistory =>
    have hmem : o ∈ s'.orders.rows := horders ▸ (Table.mem_insert _).mpr (.inl ho)
    exact ⟨o, hmem, rfl, rfl, fun hp => hp⟩
  | move m note hl hfound horders hhistory =>
    refine ⟨if key o = m.orderId then setStatus m.after now o else o, ?_, ?_, ?_, ?_⟩
    · rw [horders]
      exact (Table.mem_update (key_setStatus m.after now)).mpr ⟨o, ho, rfl⟩
    · split <;> rfl
    · split <;> rfl
    · intro hp
      split
      · exact placedAt_setStatus hp
      · exact hp

theorem oneOrderEach_create {cart : Cart} {ctx : CheckoutContext} {number : DocumentNumber}
    {userId : ℕ} (hok : Replaces (.order (.createOrder userId ctx.cartId)) i s)
    (horders : s'.orders =
      s.orders.insert (draftOrder cart ctx number) (key_draftOrder cart ctx number))
    (hs : OneOrderEach s) : OneOrderEach s' := by
  have hothers : ∀ o ∈ s.orders.rows, o.cartId = some ctx.cartId → retired o = true := by
    intro o ho hcart
    have h := List.all_eq_true.mp hok o ho
    simpa [hcart] using h
  have hmem : ∀ o ∈ s'.orders.rows, o ∈ s.orders.rows ∨
      o = draftOrder cart ctx number s.orders.next := fun o ho =>
    (Table.mem_insert (key_draftOrder cart ctx number)).mp (horders ▸ ho)
  refine ⟨fun o ho hst => ?_, fun a ha b hb c hac hbc hra hrb => ?_⟩
  · rcases hmem o ho with ho | rfl
    · exact hs.placed o ho hst
    · exact OrderStatus.noConfusion hst
  · rcases hmem a ha with ha | rfl <;> rcases hmem b hb with hb | rfl
    · exact hs.single a ha b hb c hac hbc hra hrb
    · have hcart : a.cartId = some ctx.cartId := hac.trans hbc.symm
      exact Bool.noConfusion (hra.symm.trans (hothers a ha hcart))
    · have hcart : b.cartId = some ctx.cartId := hbc.trans hac.symm
      exact Bool.noConfusion (hrb.symm.trans (hothers b hb hcart))
    · rfl

theorem oneOrderEach_move {m : StatusMove}
    (hlive : ∀ o ∈ s.orders.rows, o.id = m.orderId → m.after ≠ .cancelled →
      o.status ≠ .cancelled)
    (horders : s'.orders =
      s.orders.update m.orderId (setStatus m.after now) (key_setStatus m.after now))
    (hs : OneOrderEach s) : OneOrderEach s' := by
  have hmem : ∀ o ∈ s'.orders.rows, ∃ q ∈ s.orders.rows, o.id = q.id ∧ o.cartId = q.cartId ∧
      (retired o = false → retired q = false) ∧
      (o.status = .confirmed → o.placedAt.isSome) := by
    intro o ho
    rw [horders] at ho
    obtain ⟨q, hq, rfl⟩ := (Table.mem_update _).mp ho
    refine ⟨q, hq, ?_⟩
    split
    next hid =>
      refine ⟨rfl, rfl, not_retired_setStatus (hlive q hq hid), fun hst => ?_⟩
      have hafter : m.after = .confirmed := hst
      simp [setStatus, hafter]
    next => exact ⟨rfl, rfl, fun h => h, hs.placed q hq⟩
  refine ⟨fun o ho hst => ?_, fun a ha b hb c hac hbc hra hrb => ?_⟩
  · obtain ⟨-, -, -, -, -, hplaced⟩ := hmem o ho
    exact hplaced hst
  · obtain ⟨q, hq, hida, hcarta, hreta, -⟩ := hmem a ha
    obtain ⟨r, hr, hidb, hcartb, hretb, -⟩ := hmem b hb
    rw [hida, hidb]
    exact hs.single q hq r hr c (hcarta ▸ hac) (hcartb ▸ hbc) (hreta hra) (hretb hrb)

theorem oneOrderEach_step (hl : leavesLive l = true) (hok : Replaces l i s)
    (h : OrderStep l now s s') (hs : OneOrderEach s) : OneOrderEach s' := by
  cases h with
  | same horders hhistory =>
    refine ⟨?_, ?_⟩
    · rw [horders]
      exact hs.placed
    · rw [horders]
      exact hs.single
  | create cart ctx number userId hl' horders hhistory =>
    subst hl'
    exact oneOrderEach_create hok horders hs
  | move m note hm hfound horders hhistory =>
    have hun : unstale l s = true := by
      unfold Replaces replaces at hok
      split at hok
      · cases hm
      · exact hok
    refine oneOrderEach_move (fun o ho hid hne => ?_) horders hs
    have hfind : s.orders.find? m.orderId = some o := Table.find?_eq_some_iff.mpr ⟨ho, hid⟩
    have hbefore : m.before ≠ .cancelled := by simpa [leavesLive, hm, hne] using hl
    have hstored : o.status = m.before ∨ o.status ≠ .cancelled := by
      simpa [unstale, hm, hfind, hne] using hun
    exact hstored.elim (fun h => h ▸ hbefore) fun h => h

end Steps

/-! ### Runs -/

/-- At some point of the run the order `id` of the cart is confirmed. -/
def EverConfirmed (p : ShopPool Unit) (sched : List (ℕ × ShopInput)) (cartId id : ℕ) : Prop :=
  ∃ n, ∃ o ∈ (p.run (sched.take n)).state.orders.rows,
    o.id = id ∧ o.cartId = some cartId ∧ o.status = .confirmed

/-- In every run of the requests in which draft orders replace retired ones, a cart has at most
one order that is ever confirmed. -/
theorem one_confirmed_order (requests : List OrderRequest) (s : Shop)
    (sched : List (ℕ × ShopInput)) (hs : OneOrderEach s)
    (hok : (orderPool requests s).Admits Replaces sched) (cartId a b : ℕ)
    (ha : EverConfirmed (orderPool requests s) sched cartId a)
    (hb : EverConfirmed (orderPool requests s) sched cartId b) : a = b := by
  have hcalls : ∀ t ∈ (orderPool requests s).threads, Calls leavesLive t := by
    intro t ht
    obtain ⟨r, -, rfl⟩ := List.mem_map.mp ht
    exact calls_request r
  have hinv : ∀ xs, (orderPool requests s).Admits Replaces xs →
      OneOrderEach ((orderPool requests s).run xs).state := by
    intro xs hxs
    refine Pool.inv_run (fun t ht => ?_) hs hxs
    refine Prog.Every.imp (fun _ _ _ _ => trivial) ?_ (hcalls t ht)
    rintro l i u u' ⟨hrep, hu⟩ ⟨hl, he⟩
    exact oneOrderEach_step hl hrep (orderStep_of_effect he) hu
  have hlast : ∀ id, EverConfirmed (orderPool requests s) sched cartId id →
      ∃ o ∈ ((orderPool requests s).run sched).state.orders.rows,
        o.id = id ∧ o.cartId = some cartId ∧ retired o = false := by
    rintro id ⟨n, o, ho, rfl, hcart, hst⟩
    have hsplit : (orderPool requests s).Admits Replaces (sched.take n ++ sched.drop n) := by
      rw [List.take_append_drop]
      exact hok
    have hplaced := (hinv _ (Pool.admits_append.mp hsplit).1).placed o ho hst
    have hstay := Pool.related_run (R := OrdersStay) OrdersStay.refl OrdersStay.trans
      (fun t ht => Prog.Every.imp (fun _ _ _ _ => trivial)
        (fun _ _ _ _ _ h => ordersStay_step (orderStep_of_effect h.2)) (hcalls t ht)) hsplit
    rw [List.take_append_drop] at hstay
    obtain ⟨o', ho', hid, hcart', hplaced'⟩ := hstay o ho
    exact ⟨o', ho', hid, hcart'.trans hcart, retired_eq_false.mpr (.inr (hplaced' hplaced))⟩
  obtain ⟨x, hx, rfl, hcx, hrx⟩ := hlast a ha
  obtain ⟨y, hy, rfl, hcy, hry⟩ := hlast b hb
  exact (hinv sched hok).single x hx y hy cartId hcx hcy hrx hry

def sharedCart : Shop := { oneLine with
  users := [1, 2]
  carts := Table.empty.insert fun n => { id := n, userId := none } }

def bothUsers : List OrderRequest :=
  [.checkout serverCapture 0 1 { anyWarehouse with cartId := some 0 },
   .checkout serverCapture 1 2 { anyWarehouse with cartId := some 0 }]

/-- `n` calls of checkout `j`, with a gateway that answers so. -/
def answeredTo (j n : ℕ) (status : GatewayStatus) : List (ℕ × ShopInput) :=
  let gatewayOrderId := if j = 0 then "order_1" else "order_2"
  let gatewayPaymentId := if j = 0 then "pay_1" else "pay_2"
  List.replicate n (j, { reply := { status, gatewayOrderId, gatewayPaymentId, random := j } })

/-- The capture of the first checkout is refused before the second one begins. -/
def oneAfterTheOther : List (ℕ × ShopInput) :=
  answeredTo 0 61 .authorized ++ answeredTo 0 60 .failed ++ answeredTo 1 90 .captured

theorem one_confirmed_order_of_two :
    EverConfirmed (orderPool bothUsers sharedCart) oneAfterTheOther 0 1 ∧
      ∀ id, EverConfirmed (orderPool bothUsers sharedCart) oneAfterTheOther 0 id → id = 1 := by
  have hsecond : EverConfirmed (orderPool bothUsers sharedCart) oneAfterTheOther 0 1 := by
    refine ⟨oneAfterTheOther.length, ?_⟩
    rw [List.take_length]
    decide +kernel
  have hnone : OneOrderEach sharedCart := ⟨fun o ho => (nomatch ho), fun a ha => (nomatch ha)⟩
  refine ⟨hsecond, fun id hid => ?_⟩
  exact one_confirmed_order bothUsers sharedCart oneAfterTheOther hnone (by decide +kernel) 0 id 1
    hid hsecond

/-- The second checkout begins and ends before the last step of the first. -/
def overlapping : List (ℕ × ShopInput) :=
  answeredTo 0 80 .captured ++ answeredTo 1 90 .captured ++ answeredTo 0 9 .captured

/-- Both checkouts return, and both of their orders are confirmed. -/
theorem two_confirmed_orders : OneOrderEach sharedCart ∧
    EverConfirmed (orderPool bothUsers sharedCart) overlapping 0 0 ∧
      EverConfirmed (orderPool bothUsers sharedCart) overlapping 0 1 := by
  refine ⟨⟨fun o ho => (nomatch ho), fun a ha => (nomatch ha)⟩, ⟨overlapping.length, ?_⟩,
    overlapping.length, ?_⟩
  · rw [List.take_length]
    decide +kernel
  · rw [List.take_length]
    decide +kernel

end ElectronicsCart.Orders
