import ElectronicsCart.Orders.OrderViews
import Mathlib.Logic.Relation

/-!
# The status that `getOrder` returns

A reader names an order by its id or its number, with spaces or without; a writer deletes the entry
of one name, or none.  While no other name of the order is cached, every view shows its status.
-/

namespace ElectronicsCart.Orders

open Interleaving Relational Payments

section Views

variable (names : OrderNames)

def statusOf (key : OrderKey) (d : OrderDesk) : Option OrderStatus :=
  match key with
  | .order name => (findByIdOrNumber names name d.shop).map Order.status
  | .recent _ => none

def UpToDate (d : OrderDesk) (e : OrderKey × OrderView) : Prop :=
  statusOf names e.1 d = some e.2.status

instance (d : OrderDesk) (e : OrderKey × OrderView) : Decidable (UpToDate names d e) :=
  inferInstanceAs (Decidable (_ = _))

/-- A status is written while no view of the order is cached but under the key that its request
deletes, and a deletion fails only where the view shows the status. -/
def Unseen (l : OrderDeskCall) (i : ShopInput) (d : OrderDesk) : Prop :=
  match l with
  | .shop due call => ∀ e ∈ d.cache,
      (moveOf call).map StatusMove.orderId = some e.2.id → due = some e.1
  | .del key => i.fails = true → ∀ e ∈ d.cache, e.1 = key → UpToDate names d e
  | .get _ => True
  | .set _ => True
  | .own _ => True

instance : (l : OrderDeskCall) → (i : ShopInput) → (d : OrderDesk) → Decidable (Unseen names l i d)
  | .shop due call, _, d => inferInstanceAs (Decidable (∀ e ∈ d.cache,
      (moveOf call).map StatusMove.orderId = some e.2.id → due = some e.1))
  | .del key, i, d => inferInstanceAs (Decidable
      (i.fails = true → ∀ e ∈ d.cache, e.1 = key → UpToDate names d e))
  | .get _, _, _ => .isTrue trivial
  | .set _, _, _ => .isTrue trivial
  | .own _, _, _ => .isTrue trivial

/-- An entry expires, or a request runs, and if it throws, no cached view is left of an order whose
status it wrote. -/
def Visit (d d' : OrderDesk) : Prop :=
  (∃ key, d' = d.drop key) ∨ ∃ q r, Pool.Ran (Unseen names) (@ViewRequest.prog names q) d r d' ∧
    ((∃ e, r = .error e) → ∀ e ∈ d'.cache, UpToDate names d e → UpToDate names d' e)

structure Shows (name : String) (view : OrderView) (d : OrderDesk) : Prop where
  id : (findByIdOrNumber names name d.shop).map Order.id = some view.id
  status : (findByIdOrNumber names name d.shop).map Order.status = some view.status

/-- Every cached view is of the order of its name, and shows its status but for the entry that is
due to be deleted. -/
def ViewsKept (due : Option OrderKey) (d : OrderDesk) : Prop :=
  ∀ e ∈ d.cache, ∃ name, e.1 = .order name ∧
    (findByIdOrNumber names name d.shop).map Order.id = some e.2.id ∧
    (due = some e.1 ∨ UpToDate names d e)

end Views

variable {names : OrderNames} {due : Option OrderKey} {d d' : OrderDesk} {name : String}
  {view : OrderView}

/-! ### What the calls keep -/

theorem viewsKept_of_empty (h : d.cache = []) : ViewsKept names due d := by
  intro e he
  rw [h] at he
  cases he

theorem ViewsKept.weaken (h : ViewsKept names none d) : ViewsKept names due d := by
  intro e he
  obtain ⟨name, hname, hid, hstatus⟩ := h e he
  exact ⟨name, hname, hid, .inr (hstatus.resolve_left (by simp))⟩

theorem ViewsKept.upToDate (h : ViewsKept names none d) {e : OrderKey × OrderView}
    (he : e ∈ d.cache) : UpToDate names d e := by
  obtain ⟨-, -, -, hstatus⟩ := h e he
  exact hstatus.resolve_left (by simp)

theorem ViewsKept.of_upToDate (h : ViewsKept names due d)
    (hall : ∀ e ∈ d.cache, due = some e.1 → UpToDate names d e) : ViewsKept names none d := by
  intro e he
  obtain ⟨name, hname, hid, hstatus⟩ := h e he
  exact ⟨name, hname, hid, .inr (hstatus.elim (hall e he) id)⟩

theorem ViewsKept.shows (h : ViewsKept names none d) (he : (.order name, view) ∈ d.cache) :
    Shows names name view d := by
  obtain ⟨name', hname, hid, hstatus⟩ := h _ he
  obtain rfl : name = name' := by injection hname
  exact ⟨hid, hstatus.resolve_left (by simp)⟩

theorem ViewsKept.put (h : ViewsKept names none d) (hv : Shows names name view d) :
    ViewsKept names none (d.put (.order name) view) := by
  intro e he
  rcases Desk.mem_put.mp he with rfl | ⟨hmem, -⟩
  · exact ⟨name, rfl, hv.id, .inr hv.status⟩
  · exact h e hmem

theorem ViewsKept.drop {k : OrderKey} (h : ViewsKept names due d) : ViewsKept names due (d.drop k) :=
  fun e he => h e (Desk.mem_drop.mp he).1

theorem ViewsKept.drop_due {k : OrderKey} (h : ViewsKept names (some k) d) :
    ViewsKept names none (d.drop k) := by
  refine h.drop.of_upToDate fun e he hkey => ?_
  exact absurd (Option.some.inj hkey).symm (Desk.mem_drop.mp he).2

theorem ViewsKept.locks (h : ViewsKept names due d) (m : LockStore ShopLock) :
    ViewsKept names due { d with shop := { d.shop with locks := m } } := h

theorem ViewsKept.shop {l : ShopCall} {now : ℕ} {s' : Shop} (h : ViewsKept names due d)
    (hl : amendsStatus l = true) (he : Effect l now d.shop s')
    (hseen : ∀ e ∈ d.cache, (moveOf l).map StatusMove.orderId = some e.2.id → due = some e.1) :
    ViewsKept names due { d with shop := s' } := by
  intro e hmem
  obtain ⟨name, hname, hid, hstatus⟩ := h e hmem
  have hstep := orderStep_of_effect he
  refine ⟨name, hname, (id_step hl hstep name).trans hid, ?_⟩
  by_cases hmove : (moveOf l).map StatusMove.orderId = some e.2.id
  · exact .inl (hseen e hmem hmove)
  · refine hstatus.imp id fun hshown => ?_
    unfold UpToDate statusOf at hshown ⊢
    rw [hname] at hshown ⊢
    refine (status_step hl hstep name fun m hm => ?_).trans hshown
    rw [hid]
    intro heq
    exact hmove (by rw [hm, heq]; rfl)

/-- What the calls of a request do to the cache, if it fills no entry. -/
def Sheds (d d' : OrderDesk) : Prop := ∀ e ∈ d'.cache, e ∈ d.cache

theorem Sheds.refl (d : OrderDesk) : Sheds d d := fun _ h => h

theorem Sheds.trans {a b c : OrderDesk} (h : Sheds a b) (h' : Sheds b c) : Sheds a c :=
  fun e he => h e (h' e he)

section Requests

variable {α : Type}

theorem shop_serves {p : ShopProg α} (hp : Calls amendsStatus p) :
    Desk.Serves ⟨Unseen names, ViewsKept names due⟩ Sheds (fun _ _ => True) (Desk.onShop due p) d :=
  Desk.serves_onShop hp fun _ _ _ _ hl he ho hd => ⟨hd.shop hl he ho, fun _ h => h⟩

theorem quiet_serves {p : ShopProg α} (hp : Calls quiet p) :
    Desk.Serves ⟨Unseen names, ViewsKept names due⟩ Sheds (fun _ _ => True) (Desk.onShop due p) d :=
  shop_serves (hp.mono fun _ => amendsStatus_of_quiet)

theorem readOrder_serves {G : OrderDesk → OrderDesk → Prop} (hG : ∀ d, G d d) (name : String)
    (customerId : Option ℕ) :
    Desk.Serves ⟨Unseen names, ViewsKept names none⟩ G (fun v u => Shows names name v u)
      (OrdersService.readOrder names name customerId) d := by
  refine Desk.serves_queryBind hG fun i _ => Desk.serves_orThrow fun found hfound => ?_
  obtain ⟨o, ho, rfl⟩ := Option.map_eq_some_iff.mp hfound
  refine Desk.serves_ensure fun _ => Desk.serves_pure fun _ => ?_
  exact ⟨by rw [ho]; rfl, by rw [ho]; rfl⟩

theorem getOrder_serves (name : String) (customerId : Option ℕ) (hd : ViewsKept names none d) :
    Desk.Serves ⟨Unseen names, ViewsKept names none⟩ (fun _ _ => True)
      (fun v u => Shows names name v u) (OrdersService.getOrder names name customerId) d := by
  refine Desk.serves_getOrSet (fun _ => trivial) hd (fun v hv => hd.shows hv) ?_
  refine (readOrder_serves (fun _ => trivial) name customerId).mono fun v u hu hv => ⟨hv, ?_⟩
  exact ⟨hu.put hv, trivial, ⟨hv.id, hv.status⟩⟩

theorem deleted_serves {k : Unit → OrderDeskProg α} {name : String}
    (hd : ViewsKept names (some (.order name)) d)
    (hk : ∀ u, ViewsKept names none u → Desk.Serves ⟨Unseen names, ViewsKept names (some (.order name))⟩
      Sheds (fun _ u => ViewsKept names none u) (k ()) u) :
    Desk.Serves ⟨Unseen names, ViewsKept names (some (.order name))⟩ Sheds
      (fun _ u => ViewsKept names none u) ((Desk.cacheDel (.order name)).bind k) d := by
  refine Desk.serves_delBind .refl (fun i ho hf => ?_) fun _ => ?_
  · refine hk d (hd.of_upToDate fun e he hkey => ?_)
    exact ho hf e he (Option.some.inj hkey).symm
  · exact ⟨hd.drop, fun e he => (Desk.mem_drop.mp he).1, hk _ hd.drop_due⟩

theorem invalidate_serves {k : Unit → OrderDeskProg α} (name : String) (userId : Option ℕ)
    (hd : ViewsKept names (some (.order name)) d)
    (hk : ∀ u, ViewsKept names none u → Desk.Serves ⟨Unseen names, ViewsKept names (some (.order name))⟩
      Sheds (fun _ u => ViewsKept names none u) (k ()) u) :
    Desk.Serves ⟨Unseen names, ViewsKept names (some (.order name))⟩ Sheds
      (fun _ u => ViewsKept names none u) ((invalidateOrder name userId).bind k) d := by
  unfold invalidateOrder
  rw [Prog.bind_eq, Prog.bind_assoc]
  refine deleted_serves hd fun u hu => ?_
  cases userId with
  | none => exact hk u hu
  | some userId =>
    refine Desk.serves_delBind .refl (fun i _ _ => hk u hu) fun _ => ?_
    exact ⟨hu.drop.weaken, fun e he => (Desk.mem_drop.mp he).1, hk _ hu.drop⟩

theorem lock_serves {key : ShopLock} {token : ℕ} {p : OrderDeskProg α}
    (hp : ∀ u, ViewsKept names due u → Desk.Serves ⟨Unseen names, ViewsKept names due⟩ Sheds
      (fun _ u => ViewsKept names none u) p u) :
    Desk.Serves ⟨Unseen names, ViewsKept names due⟩ Sheds (fun _ u => ViewsKept names none u)
      (LockService.withLock key token p) d := by
  refine LockService.holds_withLock_result ?_ (fun _ _ => trivial) ?_ ?_ ?_ hp
  · rintro r t t' rfl h
    exact h
  · rintro m (e | r) t h
    · trivial
    · exact h
  · exact fun m u hu => hu
  · exact fun _ _ m t _ _ => ⟨.refl t, fun _ h => h⟩

theorem calls_fulfillOrder (orderId : ℕ) (dto : CreateFulfillmentDto)
    (order : Order × List OrderItem) : Calls amendsStatus (fulfillOrder orderId dto order) := by
  refine (Calls.ensure _ _).bind fun _ => Calls.bind ?_ fun fo => ?_
  · exact .atomic rfl fun i s b s' h => .inl (insertFulfillment_same h)
  · split
    · exact (calls_transitionStatus rfl).bind fun _ => .pure _
    · exact .pure _

theorem cancel_serves (token : ℕ) (orderId : OrderId names) (userId : ℕ) (dto : CancelOrderDto)
    (isAdmin : Bool) :
    Desk.Serves ⟨Unseen names, ViewsKept names (some (.order orderId.text))⟩ Sheds
      (fun _ u => ViewsKept names none u) (OrdersService.cancel token orderId userId dto isAdmin)
      d := by
  refine lock_serves fun u hu => ?_
  refine (quiet_serves (calls_requireOrder orderId.id)).bind hu fun order u hu _ => ?_
  refine Desk.serves_ensure fun _ => Desk.serves_ensure fun _ => ?_
  have hcancel : Calls amendsStatus (cancelOrder token order.1 dto) :=
    calls_cancelOrder (fun _ => amendsStatus_of_quiet) (fun _ _ => rfl) token order.1 dto
  refine (shop_serves hcancel).bind hu fun _ u hu _ => ?_
  exact invalidate_serves orderId.text order.1.customerId hu fun u hu => Desk.serves_pure fun _ => hu

theorem createFulfillment_serves (token : ℕ) (orderId : OrderId names) (dto : CreateFulfillmentDto) :
    Desk.Serves ⟨Unseen names, ViewsKept names (some (.order orderId.text))⟩ Sheds
      (fun _ u => ViewsKept names none u) (OrdersService.createFulfillment token orderId dto) d := by
  refine lock_serves fun u hu => ?_
  refine (quiet_serves (calls_requireOrder orderId.id)).bind hu fun order u hu _ => ?_
  refine (shop_serves (calls_fulfillOrder orderId.id dto order)).bind hu fun fo u hu _ => ?_
  exact invalidate_serves orderId.text order.1.customerId hu fun u hu => Desk.serves_pure fun _ => hu

theorem confirm_sheds (orderId : ℕ) :
    Desk.Serves ⟨Unseen names, ViewsKept names none⟩ Sheds (fun _ _ => True)
      (@ViewRequest.confirmPendingOrder names orderId).prog d :=
  shop_serves (calls_confirmPendingOrder orderId rfl rfl)

end Requests

/-! ### Whole sessions -/

theorem deletion_kept {α : Type} {k : OrderKey} {p : OrderDeskProg α} {r : Except Failure Unit}
    (hp : Desk.Serves ⟨Unseen names, ViewsKept names (some k)⟩ Sheds
      (fun _ u => ViewsKept names none u) p d)
    (hd : ViewsKept names none d)
    (h : Pool.Ran (Unseen names) (p.bind fun _ => pure ()) d r d')
    (hthrow : (∃ e, r = .error e) → ∀ e ∈ d'.cache, UpToDate names d e → UpToDate names d' e) :
    ViewsKept names none d' := by
  obtain ⟨inputs, ha, hres, rfl⟩ := h
  have hserves : Desk.Serves ⟨Unseen names, ViewsKept names (some k)⟩ Sheds
      (fun _ u => ViewsKept names none u) (p.bind fun _ => pure ()) d :=
    hp.bind hd.weaken fun _ _ _ hu => Desk.serves_pure fun _ => hu
  cases r with
  | ok _ =>
    exact Pool.solo_post (W := ⟨Unseen names, ViewsKept names (some k)⟩) hd.weaken hserves ha
      (Pool.threads_of_result hres)
  | error e =>
    have hend := Pool.solo_holds (W := ⟨Unseen names, ViewsKept names (some k)⟩) hd.weaken hserves ha
    have hcache := Pool.solo_related (W := ⟨Unseen names, ViewsKept names (some k)⟩) Sheds.refl
      Sheds.trans (fun _ _ _ _ h => h) hd.weaken hserves ha
    exact hend.1.of_upToDate fun x hx _ => hthrow ⟨e, rfl⟩ x hx (hd.upToDate (hcache x hx))

theorem visit_kept (hd : ViewsKept names none d) (h : Visit names d d') :
    ViewsKept names none d' := by
  rcases h with ⟨key, rfl⟩ | ⟨q, r, hran, hthrow⟩
  · exact hd.drop
  cases q with
  | getOrder name customerId =>
    obtain ⟨inputs, ha, -, rfl⟩ := hran
    have hserves : Desk.Serves ⟨Unseen names, ViewsKept names none⟩ (fun _ _ => True)
        (fun _ _ => True) (@ViewRequest.getOrder names name customerId).prog d :=
      (getOrder_serves name customerId hd).bind hd fun _ _ _ _ => Desk.serves_pure fun _ => trivial
    exact (Pool.solo_holds (W := ⟨Unseen names, ViewsKept names none⟩) hd hserves ha).1
  | cancel token orderId userId dto isAdmin =>
    exact deletion_kept (cancel_serves token orderId userId dto isAdmin) hd hran hthrow
  | createFulfillment token orderId dto =>
    exact deletion_kept (createFulfillment_serves token orderId dto) hd hran hthrow
  | confirmPendingOrder orderId =>
    obtain ⟨inputs, ha, -, rfl⟩ := hran
    exact (Pool.solo_holds (W := ⟨Unseen names, ViewsKept names none⟩) hd (confirm_sheds orderId) ha).1

/-- After any requests that leave no view of another name behind, `getOrder` returns the status that
the order has, by whatever name. -/
theorem getOrder_shows_status {s t t' : OrderDesk} (hs : ViewsKept names none s)
    (h : Relation.ReflTransGen (Visit names) s t) (name : String) (customerId : Option ℕ)
    (view : OrderView)
    (hr : Pool.Ran (Unseen names) (OrdersService.getOrder names name customerId) t (.ok view) t') :
    Shows names name view t' := by
  have hkept : ViewsKept names none t := by
    clear hr
    induction h with
    | refl => exact hs
    | tail _ hstep ih => exact visit_kept ih hstep
  exact Pool.Ran.post (W := ⟨Unseen names, ViewsKept names none⟩) hkept
    (getOrder_serves name customerId hkept) hr

/-! ### Scenarios -/

def zeroUuid : String := "00000000-0000-4000-8000-000000000000"

def oneName : OrderNames where
  id text := if text = zeroUuid then some 0 else none
  number _ := "ORD-1"

def theOrder : OrderId oneName := ⟨zeroUuid, 0, by simp [oneName]⟩

def ordered : OrderDesk where
  shop := { users := [1], carts := oneCart, orders := pendingOrder }
  own := ()

/-- `n` calls that go through. -/
def unfailing (n : ℕ) : List ShopInput := List.replicate n { reply := {} }

def readById : ViewRequest oneName := .getOrder zeroUuid none

def cancelById : ViewRequest oneName := .cancel 0 theOrder 1 {} false

def desk (q : ViewRequest oneName) (d : OrderDesk) (n : ℕ) : OrderDesk :=
  (Pool.solo q.prog d (unfailing n)).state

def readAgain : OrderDeskProg OrderView := OrdersService.getOrder oneName " ORD-1" (some 1)

/-- What a read by the number returns after the cancellation. -/
def cancelledView : OrderView where
  id := 0
  orderNumber := "ORD-1"
  status := .cancelled
  currency := "INR"
  subtotal := 100
  grandTotal := 100
  placedAt := none
  cancelledAt := some 0
  customerId := some 1
  items := []
  statusHistory := [⟨some .pending, .cancelled, some "Cancelled by customer"⟩]

/-- The order is read and cancelled by its id, and then read by its number. -/
theorem getOrder_shows_cancelled :
    Shows oneName " ORD-1" cancelledView
      (Pool.solo readAgain (desk cancelById (desk readById ordered 3) 8) (unfailing 3)).state := by
  have hread : Visit oneName ordered (desk readById ordered 3) :=
    .inr ⟨readById, .ok (), ⟨unfailing 3, by decide +kernel, by decide +kernel, rfl⟩,
      fun ⟨_, h⟩ => nomatch h⟩
  have hcancel : Visit oneName (desk readById ordered 3) (desk cancelById (desk readById ordered 3) 8) :=
    .inr ⟨cancelById, .ok (), ⟨unfailing 8, by decide +kernel, by decide +kernel, rfl⟩,
      fun ⟨_, h⟩ => nomatch h⟩
  exact getOrder_shows_status (viewsKept_of_empty rfl) (.tail (.single hread) hcancel) " ORD-1"
    (some 1) cancelledView ⟨unfailing 3, by decide +kernel, by decide +kernel, rfl⟩

def readByNumber : ViewRequest oneName := .getOrder "ORD-1" none

/-- The order is read by its number, cancelled by its id, and read by its number: it is pending. -/
theorem cancelled_order_pending :
    ¬ ∀ (s t t' : OrderDesk) (name : String) (customerId : Option ℕ) (view : OrderView),
      s.cache = [] →
      Relation.ReflTransGen (fun d d' => ∃ q r, Pool.Ran (fun _ i _ => i.fails = false)
        (@ViewRequest.prog oneName q) d r d') s t →
      Pool.Ran (fun _ i _ => i.fails = false) (OrdersService.getOrder oneName name customerId) t
        (.ok view) t' → Shows oneName name view t' := by
  intro h
  have hread : Pool.Ran (fun _ i _ => i.fails = false) readByNumber.prog ordered (.ok ())
      (desk readByNumber ordered 3) := ⟨unfailing 3, by decide +kernel, by decide +kernel, rfl⟩
  have hcancel : Pool.Ran (fun _ i _ => i.fails = false) cancelById.prog (desk readByNumber ordered 3)
      (.ok ()) (desk cancelById (desk readByNumber ordered 3) 8) :=
    ⟨unfailing 8, by decide +kernel, by decide +kernel, rfl⟩
  have hend := h ordered _ _ "ORD-1" none
    { cancelledView with status := .pending, cancelledAt := none, statusHistory := [] } rfl
    (.tail (.single ⟨_, _, hread⟩) ⟨_, _, hcancel⟩)
    ⟨unfailing 1, by decide +kernel, by decide +kernel, rfl⟩
  exact absurd hend.status (by decide +kernel)

end ElectronicsCart.Orders
