import ElectronicsCart.Core.Exclusion
import ElectronicsCart.Lib.Marks
import ElectronicsCart.Marketing.CouponRuns

/-!
# The coupon of an order under any schedule

Two coupons are applied under two locks, and a coupon that an order already carries passes the
stacking check.  Between its update of the order and its insert of the usage a call owes the order
that usage; the label of its next call says so.
-/

namespace ElectronicsCart.Marketing

open Interleaving Relational CouponService

def owes : Option CouponCall → Option ℕ
  | some (.recordUsage orderId _ _) => orderId
  | _ => none

/-- What a call does to orders and usages, with the call after it. -/
inductive Moves (i : Input Unit) : CouponCall → CouponShop → CouponShop → Option CouponCall → Prop
  | calm {l s s' n} : s'.orders = s.orders → s'.usages = s.usages → owes n = none → Moves i l s s' n
  | attach {orderId id customerId s s'} : i.fails = false →
      (s.orders.find? orderId).isSome = true →
      (s'.orders = s.orders.update orderId fun o => { o with couponId := some id }) →
      s'.usages = s.usages →
      Moves i (.attachCoupon orderId customerId) s s'
        (some (.recordUsage (some orderId) (.string id) customerId))
  | record {orderId id customerId amount s s' n} : s'.orders = s.orders →
      s'.usages = s.usages.insert (fun n =>
        { id := n, couponId := id, userId := some customerId, orderId, discountAmount := amount }) →
      owes n = none → Moves i (.recordUsage orderId (.string id) customerId) s s' n

structure OneUsage (s : CouponShop) : Prop where
  one : ∀ x ∈ s.usages.rows, ∀ y ∈ s.usages.rows, ∀ o : ℕ,
    x.orderId = some o → y.orderId = some o → x = y
  settled : ∀ x ∈ s.usages.rows, ∀ o : ℕ, x.orderId = some o →
    ∃ order, s.orders.find? o = some order ∧ order.couponId = some x.couponId ∧
      order.customerId = x.userId

abbrev CouponPool := Pool CouponCall (Input Unit) CouponShop Failure ApplyResult

/-- An order is given a coupon by its customer, before any usage of it is recorded and while no
other call owes it one. -/
def Unclaimed (p : CouponPool) (j : ℕ) (i : Input Unit) : Prop :=
  match p.label? j with
  | some (.attachCoupon orderId customerId) => i.fails = true ∨
      (p.state.orders.find? orderId).map CouponOrder.customerId = some (some customerId) ∧
      (∀ x ∈ p.state.usages.rows, x.orderId ≠ some orderId) ∧
      ∀ t ∈ p.threads, owes t.label? ≠ some orderId
  | _ => True

instance (p : CouponPool) (j : ℕ) (i : Input Unit) : Decidable (Unclaimed p j i) := by
  unfold Unclaimed
  split <;> infer_instance

/-! ### One call -/

section Calls

variable {α β : Type} {rt : Runtime} {ψ : CouponCall → Input Unit → CouponShop → CouponShop →
  Option CouponCall → Prop}

theorem Moves.relabel {i : Input Unit} {l : CouponCall} {s s' : CouponShop} {n : Option CouponCall}
    (h : Moves i l s s' none) (hn : owes n = none) : Moves i l s s' n := by
  cases h with
  | calm ho hu _ => exact .calm ho hu hn
  | record ho hu _ => exact .record ho hu hn

structure Quiet (p : CouponProg α) : Prop where
  follow : p.Follow (fun _ _ _ => True) fun l i s s' n => Moves i l s s' n
  start : owes p.label? = none

theorem Quiet.bind {p : CouponProg α} {f : α → CouponProg β} (hp : Quiet p)
    (hf : ∀ a, Quiet (f a)) : Quiet (p.bind f) := by
  refine ⟨hp.follow.bind (fun a => (hf a).follow) fun _ _ _ _ a h => h.relabel (hf a).start, ?_⟩
  cases p with
  | done r =>
    cases r with
    | ok a => exact (hf a).start
    | error e => rfl
  | halt => rfl
  | step l u k => exact hp.start
  | fork c k => exact hp.follow.elim

theorem quiet_done (r : Except Failure α) : Quiet (.done r) := ⟨trivial, rfl⟩

theorem quiet_query {l : CouponCall} {f : Input Unit → CouponShop → β} (hl : owes (some l) = none) :
    Quiet (query l f) := ⟨fun _ _ _ => ⟨.calm rfl rfl rfl, trivial⟩, hl⟩

theorem quiet_call {l : CouponCall} {f : Input Unit → CouponShop → Except Failure β × CouponShop}
    (hl : owes (some l) = none) (ho : ∀ i s, (f i s).2.orders = s.orders)
    (hu : ∀ i s, (f i s).2.usages = s.usages) : Quiet (Prog.call l f) :=
  ⟨fun i s _ => ⟨.calm (ho i s) (hu i s) rfl, trivial⟩, hl⟩

theorem quiet_atomic {l : CouponCall} {f : Input Unit → CouponShop → Except Failure (β × CouponShop)}
    (hl : owes (some l) = none)
    (h : ∀ i s b s', f i s = .ok (b, s') → s'.orders = s.orders ∧ s'.usages = s.usages) :
    Quiet (atomic l f) := by
  have hsettle : ∀ i s, (settle s (f i s)).2.orders = s.orders ∧
      (settle s (f i s)).2.usages = s.usages := by
    intro i s
    cases hr : f i s with
    | error e => exact ⟨rfl, rfl⟩
    | ok r => exact h i s r.1 r.2 hr
  refine quiet_call hl (fun i s => ?_) fun i s => ?_ <;> cases i.fails
  · exact (hsettle i s).1
  · rfl
  · exact (hsettle i s).2
  · rfl

theorem quiet_acquire (key : String) (token : ℕ) :
    Quiet (LockService.acquire key token : CouponProg Bool) := by
  refine quiet_atomic rfl fun i s got s' h => ?_
  rcases LockService.take_cases (Except.ok.inj h) with ⟨-, -, rfl⟩ | ⟨-, rfl⟩ <;> exact ⟨rfl, rfl⟩

theorem quiet_release (key : String) (token : ℕ) :
    Quiet (LockService.release key token : CouponProg Unit) := by
  refine quiet_atomic rfl fun i s _ s' h => ?_
  obtain ⟨-, rfl⟩ := Prod.mk.inj (Except.ok.inj h)
  rcases LockService.drop_cases (L := CouponCall) key token s with ⟨-, hd⟩ | hd <;> rw [hd] <;>
    exact ⟨rfl, rfl⟩

theorem quiet_orThrow {e : Failure} (o : Option α) :
    Quiet (Prog.orThrow e o : CouponProg α) := by
  cases o <;> exact quiet_done _

theorem quiet_ensure (c : Prop) [Decidable c] (e : Failure) :
    Quiet (Prog.ensure c e : CouponProg Unit) := by
  unfold Prog.ensure
  split <;> exact quiet_done _

theorem quiet_ite {c : Prop} [Decidable c] {p q : CouponProg α} (hp : Quiet p) (hq : Quiet q) :
    Quiet (if c then p else q) := by
  split
  · exact hp
  · exact hq

theorem quiet_loadCoupon (code : String) : Quiet (CouponService.loadCoupon rt code) := by
  refine Quiet.bind (quiet_call rfl (fun _ _ => rfl) fun _ _ => rfl) fun hit => ?_
  cases hit with
  | some v => exact quiet_done _
  | none =>
    refine Quiet.bind (quiet_query rfl) fun found => Quiet.bind (quiet_orThrow _) fun coupon => ?_
    refine Quiet.bind (quiet_call rfl (fun i s => ?_) fun i s => ?_) fun _ => quiet_done _
    · dsimp only
      split <;> rfl
    · dsimp only
      split <;> rfl

theorem quiet_limitReached {call : CouponCall} (hcall : owes (some call) = none) (limit : JsValue)
    (p : CouponUsageRow → Bool) : Quiet (CouponService.limitReached rt call limit p) :=
  quiet_ite (quiet_done _) (Quiet.bind (quiet_query hcall) fun _ => quiet_done _)

theorem quiet_perUserLimitReached (v : JsValue) (customerId : String) :
    Quiet (CouponService.perUserLimitReached rt v customerId) := by
  unfold CouponService.perUserLimitReached
  split
  · exact quiet_done _
  · exact quiet_limitReached rfl _ _

theorem quiet_evaluateEligibility (v : JsValue) (customerId : String) (dto : ValidateCouponDto) :
    Quiet (CouponService.evaluateEligibility rt v customerId dto) := by
  refine Quiet.bind (quiet_call rfl (fun _ _ => rfl) fun _ _ => rfl) fun now => ?_
  refine Quiet.bind (quiet_done _) fun conditions => quiet_ite (quiet_done _) ?_
  refine Quiet.bind (quiet_limitReached rfl _ _) fun usedUp => quiet_ite (quiet_done _) ?_
  exact Quiet.bind (quiet_perUserLimitReached v customerId) fun _ =>
    quiet_ite (quiet_done _) (quiet_done _)

theorem quiet_audit (couponId : JsValue) (customerId : String) :
    Quiet (CouponService.audit couponId customerId) := by
  refine quiet_atomic rfl fun i s _ s' h => ?_
  simp only [bind_eq_ok, pure_eq_ok, Prod.mk.injEq] at h
  obtain ⟨_, -, -, rfl⟩ := h
  exact ⟨rfl, rfl⟩

theorem follow_record (orderId : Option ℕ) (couponId : JsValue) (customerId : String)
    (discount : JsNumber) {k : ℕ → CouponProg β} (hk : ∀ n, Quiet (k n)) :
    ((recordUsage orderId couponId customerId discount).bind k).Follow (fun _ _ _ => True)
      fun l i s s' n => Moves i l s s' n := by
  refine follow_atomicBind fun i s _ => ⟨fun _ _ => .calm rfl rfl rfl, fun n s' _ hu => ?_⟩
  obtain ⟨-, id, amount, rfl, rfl⟩ := insertUsage_cases hu
  exact ⟨.record rfl rfl (hk n).start, (hk n).follow⟩

theorem quiet_redeem (couponId : JsValue) (discount : JsNumber) (customerId : String)
    (orderId : Option ℕ) :
    Quiet (CouponService.redeem couponId discount customerId orderId) := by
  have hrest : ∀ n : ℕ, Quiet ((CouponService.audit couponId customerId).bind fun _ =>
      (pure ⟨n, couponId, discount⟩ : CouponProg ApplyResult)) := fun n =>
    (quiet_audit couponId customerId).bind fun _ => quiet_done _
  have hrecord := follow_record orderId couponId customerId discount hrest
  cases orderId with
  | none => exact ⟨hrecord, rfl⟩
  | some orderId =>
    have hattach : Quiet ((atomic (.attachCoupon orderId customerId) fun _ s =>
        setOrderCoupon orderId couponId customerId s).bind fun _ =>
          (recordUsage (some orderId) couponId customerId discount).bind fun n =>
            (CouponService.audit couponId customerId).bind fun _ =>
              (pure ⟨n, couponId, discount⟩ : CouponProg ApplyResult)) := by
      refine ⟨follow_atomicBind fun i s _ => ⟨fun _ _ => .calm rfl rfl rfl, ?_⟩, rfl⟩
      intro _ s' hf hu
      obtain ⟨id, hid, horder, rfl⟩ := setOrderCoupon_cases hu
      obtain rfl := textOf_eq_some.mp hid
      exact ⟨.attach hf horder rfl rfl, hrecord⟩
    unfold CouponService.redeem attachCoupon
    simp only [Prog.bind_eq, Prog.bind_assoc]
    refine Quiet.bind (quiet_query rfl) fun found => Quiet.bind (quiet_orThrow _) fun order => ?_
    exact Quiet.bind (quiet_ensure _ _) fun _ => hattach

theorem quiet_applyLocked (customerId : String) (dto : ApplyCouponDto) :
    Quiet (CouponService.applyLocked rt customerId dto) := by
  refine Quiet.bind (quiet_loadCoupon _) fun v => ?_
  refine Quiet.bind (quiet_evaluateEligibility v customerId _) fun result => ?_
  unfold verdict
  split
  · exact quiet_ite (quiet_redeem ..) (quiet_done _)
  · exact quiet_done _

theorem quiet_apply (token : ℕ) (customerId : String) (dto : ApplyCouponDto) :
    Quiet (CouponService.apply rt token customerId dto) := by
  have hrelease := quiet_release (rt.toUpperCase dto.code) token
  have hlocked := @quiet_applyLocked rt customerId dto
  refine Quiet.bind (quiet_acquire _ _) fun got => ?_
  refine Quiet.bind (quiet_ensure _ _) fun _ => ⟨?_, ?_⟩
  · exact hlocked.follow.andFinally hrelease.follow fun _ _ _ _ h => h.relabel rfl
  · rfl

end Calls

/-! ### The invariant -/

/-- An order that is owed a usage has none, carries the coupon of that usage and belongs to its
customer; one call owes it. -/
structure Owed (s : CouponShop) (next : ℕ → Option CouponCall) : Prop where
  usages : OneUsage s
  pending : ∀ {j o couponId customerId},
    next j = some (.recordUsage (some o) couponId customerId) →
      (∀ x ∈ s.usages.rows, x.orderId ≠ some o) ∧ ∃ order id, s.orders.find? o = some order ∧
        couponId = .string id ∧ order.couponId = some id ∧ order.customerId = some customerId
  alone : ∀ {j j' o}, owes (next j) = some o → owes (next j') = some o → j = j'

section Step

variable {s s' : CouponShop} {next : ℕ → Option CouponCall} {j : ℕ} {i : Input Unit}

theorem owes_update {l : Option CouponCall} {k o : ℕ}
    (h : owes (Function.update next j l k) = some o) :
    k = j ∧ owes l = some o ∨ k ≠ j ∧ owes (next k) = some o := by
  by_cases hk : k = j
  · rw [hk, Function.update_self] at h
    exact .inl ⟨hk, h⟩
  · rw [Function.update_of_ne hk] at h
    exact .inr ⟨hk, h⟩

theorem owes_of_update {n : Option CouponCall} {k o : ℕ} (hn : owes n = none)
    (h : owes (Function.update next j n k) = some o) : k ≠ j ∧ owes (next k) = some o := by
  rcases owes_update h with ⟨-, hown⟩ | hrest
  · rw [hn] at hown
    cases hown
  · exact hrest

theorem Owed.calm {n : Option CouponCall} (h : Owed s next) (ho : s'.orders = s.orders)
    (hu : s'.usages = s.usages) (hn : owes n = none) : Owed s' (Function.update next j n) := by
  refine ⟨⟨?_, ?_⟩, ?_, ?_⟩
  · rw [hu]
    exact h.usages.one
  · rw [hu, ho]
    exact h.usages.settled
  · intro k o couponId customerId hk
    obtain ⟨hne, -⟩ := owes_of_update hn (show _ = some o by rw [hk]; rfl)
    rw [Function.update_of_ne hne] at hk
    rw [hu, ho]
    exact h.pending hk
  · intro k k' o hk hk'
    exact h.alone (owes_of_update hn hk).2 (owes_of_update hn hk').2

theorem Owed.attach {o : ℕ} {id customerId : String} (h : Owed s next)
    (ho : s'.orders = s.orders.update o fun order => { order with couponId := some id })
    (hu : s'.usages = s.usages)
    (howner : (s.orders.find? o).map CouponOrder.customerId = some (some customerId))
    (hfree : ∀ x ∈ s.usages.rows, x.orderId ≠ some o) (hnobody : ∀ k, owes (next k) ≠ some o) :
    Owed s' (Function.update next j
      (some (.recordUsage (some o) (.string id) customerId))) := by
  have hother : ∀ {o'}, o' ≠ o → s'.orders.find? o' = s.orders.find? o' := by
    intro o' hne
    rw [ho, Table.find?_update_ne (fun _ => by rfl) hne]
  refine ⟨⟨?_, ?_⟩, ?_, ?_⟩
  · rw [hu]
    exact h.usages.one
  · intro x hx o' hxo
    rw [hu] at hx
    rw [hother (fun he => hfree x hx (he ▸ hxo))]
    exact h.usages.settled x hx o' hxo
  · intro k o' couponId customer hk
    rw [hu]
    by_cases hkj : k = j
    · rw [hkj, Function.update_self] at hk
      cases hk
      obtain ⟨order, horder, hcustomer⟩ := Option.map_eq_some_iff.mp howner
      refine ⟨hfree, { order with couponId := some id }, id, ?_, rfl, rfl, hcustomer⟩
      rw [ho, Table.find?_update_self (fun _ => by rfl) horder]
    · rw [Function.update_of_ne hkj] at hk
      have hne : o' ≠ o := by
        rintro rfl
        exact hnobody k (by rw [hk]; rfl)
      rw [hother hne]
      exact h.pending hk
  · intro k k' o' hk hk'
    rcases owes_update hk with ⟨rfl, hown⟩ | ⟨-, hk⟩
    · rcases owes_update hk' with ⟨rfl, -⟩ | ⟨-, hk'⟩
      · rfl
      · cases hown
        exact absurd hk' (hnobody k')
    · rcases owes_update hk' with ⟨-, hown⟩ | ⟨-, hk'⟩
      · cases hown
        exact absurd hk (hnobody k)
      · exact h.alone hk hk'

theorem Owed.record {orderId : Option ℕ} {id customerId : String} {amount : ℚ}
    {n : Option CouponCall} (h : Owed s next)
    (hj : next j = some (.recordUsage orderId (.string id) customerId)) (ho : s'.orders = s.orders)
    (hu : s'.usages = s.usages.insert fun n =>
      { id := n, couponId := id, userId := some customerId, orderId, discountAmount := amount })
    (hn : owes n = none) : Owed s' (Function.update next j n) := by
  let new : CouponUsage :=
    { id := s.usages.next, couponId := id, userId := some customerId, orderId,
      discountAmount := amount }
  have hrows : ∀ {x}, x ∈ s'.usages.rows → x ∈ s.usages.rows ∨ x = new := by
    intro x hx
    rw [hu] at hx
    exact (Table.mem_insert fun _ => by rfl).mp hx
  have hfree : ∀ {o}, orderId = some o → ∀ x ∈ s.usages.rows, x.orderId ≠ some o := by
    rintro o rfl
    exact (h.pending hj).1
  refine ⟨⟨?_, ?_⟩, ?_, ?_⟩
  · intro x hx y hy o hxo hyo
    rcases hrows hx with hx | rfl
    · rcases hrows hy with hy | rfl
      · exact h.usages.one x hx y hy o hxo hyo
      · exact absurd hxo (hfree hyo x hx)
    · rcases hrows hy with hy | rfl
      · exact absurd hyo (hfree hxo y hy)
      · rfl
  · intro x hx o hxo
    rw [ho]
    rcases hrows hx with hx | rfl
    · exact h.usages.settled x hx o hxo
    · obtain rfl : orderId = some o := hxo
      obtain ⟨-, order, id', horder, hid, hcoupon, hcustomer⟩ := h.pending hj
      obtain rfl : id = id' := JsValue.string.inj hid
      exact ⟨order, horder, hcoupon, hcustomer⟩
  · intro k o couponId customer hk
    obtain ⟨hne, hown⟩ := owes_of_update hn (show _ = some o by rw [hk]; rfl)
    rw [Function.update_of_ne hne] at hk
    obtain ⟨hrest, order⟩ := h.pending hk
    rw [ho]
    refine ⟨fun x hx hxo => ?_, order⟩
    rcases hrows hx with hx | rfl
    · exact hrest x hx hxo
    · have hmine : owes (next j) = some o := by
        rw [hj]
        exact hxo
      exact hne (h.alone hown hmine)
  · intro k k' o hk hk'
    exact h.alone (owes_of_update hn hk).2 (owes_of_update hn hk').2

end Step

/-! ### Whole runs -/

/-- Threads that follow their moves, and the invariant of their next calls. -/
structure Sound (p : CouponPool) : Prop where
  follow : ∀ t ∈ p.threads, t.Follow (fun _ _ _ => True) fun l i s s' n => Moves i l s s' n
  owed : Owed p.state p.label?

theorem sound_step (p : CouponPool) (j : ℕ) (i : Input Unit) (h : Sound p) (hg : Unclaimed p j i) :
    Sound (p.step j i) := by
  have hallows : p.Allows (fun _ _ _ => True) j i := Pool.allows_of_forall (fun _ _ _ => trivial) p j i
  rcases Pool.follow_step h.follow hallows with ⟨l, n, hl, -, hmoves, hlabels, hthreads⟩ | ⟨-, hs⟩
  · refine ⟨hthreads, ?_⟩
    rw [hlabels]
    unfold Unclaimed at hg
    rw [hl] at hg
    generalize hstate : (p.step j i).state = s' at hmoves
    cases hmoves with
    | calm ho hu hn => exact h.owed.calm ho hu hn
    | attach hf _ ho hu =>
      have hg : _ ∨ _ := hg
      rcases hg with hfails | ⟨howner, hfree, hnobody⟩
      · rw [hf] at hfails
        cases hfails
      · refine h.owed.attach ho hu howner hfree fun k hk => ?_
        rw [Pool.label?_eq] at hk
        cases ht : p.threads[k]? with
        | none =>
          rw [ht] at hk
          cases hk
        | some t =>
          rw [ht] at hk
          exact hnobody t (List.mem_of_getElem? ht) hk
    | record ho hu hn => exact h.owed.record hl ho hu hn
  · rw [hs]
    exact h

/-- Whatever the order of the calls: an order has one usage at most, of its own coupon and by its
own customer, as long as orders are given coupons by their customers only, before a usage of them
is recorded or owed. -/
theorem one_usage_kept (rt : Runtime) (requests : List ApplyRequest) (s : CouponShop)
    (sched : List (ℕ × Input Unit)) (hs : OneUsage s)
    (hg : (applyPool rt requests s).Heeds Unclaimed sched) :
    OneUsage ((applyPool rt requests s).run sched).state := by
  have hquiet : ∀ t ∈ (applyPool rt requests s).threads, Quiet t := by
    intro t ht
    obtain ⟨token, hlt, rfl⟩ := List.mem_mapIdx.mp ht
    exact quiet_apply token _ _
  have hstart : ∀ j o, owes ((applyPool rt requests s).label? j) ≠ some o := by
    intro j o hj
    rw [Pool.label?_eq] at hj
    cases ht : (applyPool rt requests s).threads[j]? with
    | none =>
      rw [ht] at hj
      cases hj
    | some t =>
      rw [ht] at hj
      have hj : owes t.label? = some o := hj
      rw [(hquiet t (List.mem_of_getElem? ht)).start] at hj
      cases hj
  have hsound : Sound (applyPool rt requests s) := by
    refine ⟨fun t ht => (hquiet t ht).follow, hs, fun hk => ?_, fun hk => absurd hk (hstart _ _)⟩
    exact absurd (by rw [hk]; rfl) (hstart _ _)
  exact (Pool.heeds_run sound_step hsound hg).owed.usages

/-- An order of the first customer, and a coupon without limits. -/
def orderShop : CouponShop where
  users := ["asha", "ravi"]
  users_named := onceShop.users_named
  coupons := [saveTen none]
  ids_unique := by decide
  orders := Table.empty.insert fun n => { id := n, customerId := some "asha" }

def forOrder (customerId : String) : ApplyRequest := ⟨customerId, { saveTenCart with orderId := some 0 }⟩

theorem orderShop_oneUsage : OneUsage orderShop :=
  ⟨fun _ hx => (by cases hx), fun _ hx => (by cases hx)⟩

/-- One customer with an order and one without. -/
theorem one_usage_kept_paid :
    (applyPool .plain [forOrder "asha", ⟨"ravi", { saveTenCart with }⟩] orderShop).Heeds Unclaimed
        (couponTurns ([0, 0, 0, 0, 0, 0, 0, 0, 0, 0, 1] ++ [1, 1, 1, 1, 1, 1, 1])) ∧
      OneUsage ((applyPool .plain [forOrder "asha", ⟨"ravi", { saveTenCart with }⟩] orderShop).run
        (couponTurns ([0, 0, 0, 0, 0, 0, 0, 0, 0, 0, 1] ++ [1, 1, 1, 1, 1, 1, 1]))).state := by
  have hg : (applyPool .plain [forOrder "asha", ⟨"ravi", { saveTenCart with }⟩] orderShop).Heeds
      Unclaimed (couponTurns ([0, 0, 0, 0, 0, 0, 0, 0, 0, 0, 1] ++ [1, 1, 1, 1, 1, 1, 1])) := by
    decide +kernel
  exact ⟨hg, one_usage_kept _ _ _ _ orderShop_oneUsage hg⟩

/-- The same coupon twice, one call after the other: the order carries it already, so the second
call passes the stacking check. -/
theorem coupon_applied_twice :
    OneUsage orderShop ∧
      ¬ OneUsage ((applyPool .plain [forOrder "asha", forOrder "asha"] orderShop).run
        (couponTurns (List.replicate 10 0 ++ List.replicate 10 1))).state := by
  refine ⟨orderShop_oneUsage, fun h => ?_⟩
  have hrows : ((applyPool .plain [forOrder "asha", forOrder "asha"] orderShop).run
      (couponTurns (List.replicate 10 0 ++ List.replicate 10 1))).state.usages.rows.map
        (fun u => (u.id, u.orderId)) = [(0, some 0), (1, some 0)] := by decide +kernel
  have hfirst : ((0, some 0) : ℕ × Option ℕ) ∈ [(0, some 0), (1, some 0)] := by simp
  have hsecond : ((1, some 0) : ℕ × Option ℕ) ∈ [(0, some 0), (1, some 0)] := by simp
  rw [← hrows] at hfirst hsecond
  obtain ⟨x, hx, hxe⟩ := List.mem_map.mp hfirst
  obtain ⟨y, hy, hye⟩ := List.mem_map.mp hsecond
  have hxy := h.one x hx y hy 0 (congrArg Prod.snd hxe) (congrArg Prod.snd hye)
  have hid : x.id = 0 ∧ y.id = 1 := ⟨congrArg Prod.fst hxe, congrArg Prod.fst hye⟩
  rw [hxy] at hid
  omega

end ElectronicsCart.Marketing
