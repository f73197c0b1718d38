import ElectronicsCart.Orders.CartViews
import Mathlib.Logic.Relation

/-!
# Items of active carts

`upsertItem` and `updateItemQty` do not look at the cart: that it is active is only known from the
view that named it.  A conversion that leaves a view of its cart in the cache breaks this.
-/

namespace ElectronicsCart.Orders

open Interleaving Relational Payments

def activeCart (d : CartDesk) (id : ℕ) : Bool :=
  (d.shop.carts.find? id).any fun c => c.status == .active

def ItemsActive (d d' : CartDesk) : Prop :=
  ∀ r, (r ∈ d'.shop.cartItems.rows ↔ r ∈ d.shop.cartItems.rows) ∨ activeCart d r.cartId = true

def convertedBy (l : ShopCall) (s : Shop) : Option ℕ :=
  match l with
  | .order (.markConverted cartId) => some cartId
  | .payment (.confirmOrder orderId) => (s.orders.find? orderId).bind Order.cartId
  | _ => none

/-- A cart is converted while no view of it is cached but under the key that its request deletes,
and a deletion fails only where the view is still of an active cart. -/
def Cleared (l : CartDeskCall) (i : ShopInput) (d : CartDesk) : Prop :=
  match l with
  | .shop due call => ∀ e ∈ d.cache, convertedBy call d.shop = some e.2.id → due = some e.1
  | .del key => i.fails = true → ∀ e ∈ d.cache, e.1 = key → activeCart d e.2.id = true
  | _ => True

instance (l : CartDeskCall) (i : ShopInput) (d : CartDesk) : Decidable (Cleared l i d) :=
  match l with
  | .shop due call => inferInstanceAs (Decidable
      (∀ e ∈ d.cache, convertedBy call d.shop = some e.2.id → due = some e.1))
  | .del key => inferInstanceAs (Decidable
      (i.fails = true → ∀ e ∈ d.cache, e.1 = key → activeCart d e.2.id = true))
  | .get _ | .set _ | .own _ => inferInstanceAs (Decidable True)

/-- An entry expires, or a request runs, and if it throws, no cached view is left of a cart that it
converted. -/
def Session (d d' : CartDesk) : Prop :=
  (∃ key, d' = d.drop key) ∨ ∃ q r, Pool.Ran Cleared (CartRequest.prog q) d r d' ∧
    ((∃ e, r = .error e) →
      ∀ e ∈ d'.cache, activeCart d e.2.id = true → activeCart d' e.2.id = true)

def Active : CartKey → Cart → Prop := fun _ c => c.status = .active

/-- The same, but for the entry that the request deletes. -/
def ActiveBut (due : CartKey) : CartKey → Cart → Prop := fun k c => k = due ∨ c.status = .active

variable {A B : CartKey → Cart → Prop} {k : CartKey} {d d' : CartDesk}

theorem activeCart_iff {id : ℕ} :
    activeCart d id = true ↔ ∃ c, d.shop.carts.find? id = some c ∧ c.status = .active := by
  simp [activeCart, Option.any_eq_true]

theorem itemsActive_refl (d : CartDesk) : ItemsActive d d := fun _ => .inl .rfl

theorem itemsActive_of_confined (h : Confined Active k d d') : ItemsActive d d' := fun r =>
  (h.items r).imp id fun ⟨c, hc, hactive, _⟩ => activeCart_iff.mpr ⟨c, hc, hactive⟩

theorem CartsKept.mono (hAB : ∀ k c, A k c → B k c) (h : CartsKept A d) : CartsKept B d := by
  intro e he
  obtain ⟨c, hc, hA, hholder⟩ := (h e he).cart
  exact ⟨⟨c, hc, hAB _ _ hA, hholder⟩, (h e he).items⟩

theorem cartsKept_of_empty (h : d.cache = []) : CartsKept A d := by
  intro e he
  rw [h] at he
  cases he

theorem CartsKept.active {e : CartKey × CartView} (h : CartsKept Active d) (he : e ∈ d.cache) :
    activeCart d e.2.id = true := by
  obtain ⟨c, hc, hactive, -⟩ := (h e he).cart
  exact activeCart_iff.mpr ⟨c, hc, hactive⟩

theorem CartsKept.of_active (h : CartsKept A d)
    (hactive : ∀ e ∈ d.cache, activeCart d e.2.id = true) : CartsKept Active d := by
  intro e he
  obtain ⟨c, hc, -, hholder⟩ := (h e he).cart
  obtain ⟨c', hc', hst⟩ := activeCart_iff.mp (hactive e he)
  obtain rfl := Option.some.inj (hc.symm.trans hc')
  exact ⟨⟨c, hc, hst, hholder⟩, (h e he).items⟩

/-! ### Conversions -/

theorem CartsKept.shop {s' : Shop} {converted : Option ℕ} (h : CartsKept A d)
    (hcarts : s'.carts = d.shop.carts ∧ converted = none ∨ ∃ cartId, converted = some cartId ∧
      s'.carts = d.shop.carts.update cartId Cart.convert key_convert)
    (hitems : s'.cartItems = d.shop.cartItems)
    (hA : ∀ e ∈ d.cache, converted = some e.2.id → ∀ c, A e.1 c → A e.1 c.convert) :
    CartsKept A { d with shop := s' } := by
  intro e he
  obtain ⟨c, hc, hAc, hholder⟩ := (h e he).cart
  refine ⟨?_, fun i hi => ?_⟩
  · rcases hcarts with ⟨hsame, -⟩ | ⟨cartId, rfl, hupd⟩
    · exact ⟨c, by rw [hsame]; exact hc, hAc, hholder⟩
    · refine ⟨if key c = cartId then c.convert else c, ?_, ?_, ?_⟩
      · rw [hupd]
        exact (Table.find?_update key_convert).trans (congrArg _ hc)
      · split
        next hid => exact hA e he (congrArg some (hid.symm.trans (Table.find?_mem hc).2)) c hAc
        next => exact hAc
      · split <;> exact hholder
  · rw [hitems]
    exact (h e he).items i hi

/-- What the calls of a checkout do to the tables of carts, and to the cache. -/
structure Converting (d d' : CartDesk) : Prop where
  items : d'.shop.cartItems = d.shop.cartItems
  cache : ∀ e ∈ d'.cache, e ∈ d.cache

theorem Converting.refl (d : CartDesk) : Converting d d := ⟨rfl, fun _ h => h⟩

theorem Converting.trans {a b c : CartDesk} (h : Converting a b) (h' : Converting b c) :
    Converting a c := ⟨h'.items.trans h.items, fun e he => h.cache e (h'.cache e he)⟩

theorem Converting.active (h : Converting d d') : ItemsActive d d' := fun r => .inl (by rw [h.items])

section Checkout

variable {ok : CartDeskCall → ShopInput → CartDesk → Prop} {α : Type} {S : ShopCall → Bool}
  {due : Option CartKey} {p : ShopProg α}

theorem converting_onShop (hp : Calls S p) (hS : ∀ l, S l = true → unconfirming l = true)
    (hA : ∀ cartId i d, ok (.shop due (.order (.markConverted cartId))) i d → ∀ e ∈ d.cache,
      e.2.id = cartId → ∀ c, A e.1 c → A e.1 c.convert) :
    Desk.Serves ⟨ok, CartsKept A⟩ Converting (fun _ _ => True) (Desk.onShop due p) d := by
  refine Desk.serves_onShop hp fun l i d s' hl he ho hd => ⟨?_, he.cartItems, fun _ h => h⟩
  rcases he.carts (hS l hl) with hsame | ⟨cartId, rfl, hupd⟩
  · exact CartsKept.shop hd (.inl ⟨hsame, rfl⟩) he.cartItems fun _ _ h => nomatch h
  · refine CartsKept.shop hd (.inr ⟨cartId, rfl, hupd⟩) he.cartItems fun e hmem hid c hAc => ?_
    exact hA cartId i d ho e hmem (Option.some.inj hid).symm c hAc

theorem checkout_serves {R : CartDesk → Prop} (cfg : PaymentConfig) (token userId : ℕ)
    (dto : CheckoutDto)
    (hlocks : ∀ m u, R u → R { u with shop := { u.shop with locks := m } })
    (hA : ∀ cartId i d, ok (.shop (some (.user userId)) (.order (.markConverted cartId))) i d →
      ∀ e ∈ d.cache, e.2.id = cartId → ∀ c, A e.1 c → A e.1 c.convert)
    (hdel : ∀ i u, ok (.del (.user userId)) i u → i.fails = true → CartsKept A u → R u)
    (hdrop : ∀ u, CartsKept A u → R (u.drop (.user userId))) :
    Desk.Serves ⟨ok, CartsKept A⟩ Converting (fun _ u => R u)
      (CheckoutService.checkout cfg token userId dto) d := by
  have hkeep : ∀ (m : LockStore ShopLock) (u : CartDesk), CartsKept A u →
      CartsKept A { u with shop := { u.shop with locks := m } } := fun m u hu =>
    hu.extends ⟨fun _ _ h => h, fun _ r h => ⟨r, h, rfl⟩⟩ rfl
  refine LockService.holds_withLock_result ?_ (fun _ _ => trivial) ?_ hkeep ?_ ?_
  · rintro r t t' rfl h
    exact h
  · rintro m (e | r) t h
    · trivial
    · exact hlocks m t h
  · exact fun _ _ m t _ _ => ⟨.refl t, ⟨rfl, fun _ h => h⟩⟩
  intro t ht
  have hquiet : ∀ l, quiet l = true → unconfirming l = true := by
    intro l h
    unfold unconfirming
    split
    · cases h
    · rfl
  have hcharging : ∀ l, charging l = true → unconfirming l = true := by
    intro l h
    unfold unconfirming
    split
    · cases h
    · rfl
  refine (converting_onShop (calls_selectCart userId dto) hquiet hA).bind ht fun found u hu _ => ?_
  refine Desk.serves_orThrow fun cart _ => ?_
  refine (converting_onShop (calls_validateTenders userId dto) hquiet hA).bind hu fun _ u hu _ => ?_
  have hplace := calls_placeOrder hcharging (fun _ => rfl) (fun _ => rfl) cfg token userId dto cart.1 cart.2
  refine (converting_onShop hplace (fun _ h => h) hA).bind hu fun result u hu _ => ?_
  refine Desk.serves_delBind .refl (fun i ho hf => ?_) fun _ => ?_
  · exact Desk.serves_pure fun _ => hdel i u ho hf hu
  · refine ⟨hu.drop, ⟨rfl, fun e he => (Desk.mem_drop.mp he).1⟩, ?_⟩
    exact Desk.serves_pure fun _ => hdrop u hu

theorem confirm_serves (orderId : ℕ) (hd : CartsKept A d)
    (hA : ∀ i u, ok (.shop none (.payment (.confirmOrder orderId))) i u → ∀ e ∈ u.cache,
      convertedBy (.payment (.confirmOrder orderId)) u.shop = some e.2.id →
        ∀ c, A e.1 c → A e.1 c.convert) :
    Desk.Serves ⟨ok, CartsKept A⟩ Converting (fun _ _ => True)
      (Desk.onShop none (confirmPendingOrderAfterCapture orderId)) d := by
  rw [confirmPendingOrderAfterCapture, findOrder, Prog.bind_eq, Desk.onShop_bind, Desk.onShop_query]
  refine Desk.serves_queryBind .refl fun i _ => ?_
  cases hfound : (d.shop.orders.find? orderId).filter fun o => !o.deleted with
  | none => exact Desk.serves_pure fun _ => trivial
  | some order =>
    have hfind : d.shop.orders.find? orderId = some order := (Option.filter_eq_some_iff.mp hfound).1
    dsimp only
    split
    · exact Desk.serves_pure fun _ => trivial
    rw [Prog.bind_eq, Desk.onShop_bind, Desk.onShop, Prog.zoom_attempt]
    refine Holds.bind (Holds.attempt ?_) hd
    change Holds _ _ _ _ (Desk.onShop none (atomic _ _)) d
    rw [Desk.onShop_atomic]
    refine holds_atomic ?_
    rintro u rfl - i' ho
    refine ⟨.refl d, ?_, fun b u _ hu => ?_⟩
    · rintro e t' - rfl -
      exact Desk.serves_pure fun _ => trivial
    cases hc : confirmOrder order i'.now d.shop with
    | error e =>
      rw [hc] at hu
      cases hu
    | ok r =>
      simp only [hc, Except.map, Except.ok.injEq, Prod.mk.injEq] at hu
      obtain ⟨-, rfl⟩ := hu
      have he : Effect (.payment (.confirmOrder orderId)) i'.now d.shop r.2 :=
        .inr ⟨order, (Table.find?_mem hfind).2, hc⟩
      have hconverted : convertedBy (.payment (.confirmOrder orderId)) d.shop = order.cartId := by
        simp [convertedBy, hfind]
      have hcarts : r.2.carts = d.shop.carts ∧ order.cartId = none ∨ ∃ cartId,
          order.cartId = some cartId ∧ r.2.carts = d.shop.carts.update cartId Cart.convert key_convert := by
        obtain ⟨-, -, -, ⟨hnone, hsame⟩ | ⟨cartId, c, hid, -, hupd⟩⟩ := confirmOrder_cases hc
        · exact .inl ⟨hsame, hnone⟩
        · exact .inr ⟨cartId, hid, hupd⟩
      have hkept := CartsKept.shop hd hcarts he.cartItems fun e hmem hid =>
        hA i' d ho e hmem (hconverted.trans hid)
      refine ⟨hkept, ⟨he.cartItems, fun _ h => h⟩, ?_⟩
      rintro t' rfl -
      exact Desk.serves_pure fun _ => trivial

end Checkout

/-! ### Whole sessions -/

def CartRequest.converts : CartRequest → Bool
  | .checkout _ _ _ _ => true
  | .confirmPendingOrder _ => true
  | _ => false

theorem operation_serves {ok : CartDeskCall → ShopInput → CartDesk → Prop} (q : CartRequest)
    (hq : q.converts = false) (hd : CartsKept Active d) :
    Desk.Serves ⟨ok, CartsKept Active⟩ ItemsActive (fun _ _ => True) q.prog d := by
  have hactive : ∀ (k : CartKey) (c : Cart), c.status = .active → Active k c := fun _ _ h => h
  have hweaken : ∀ {α : Type} {k : CartKey} {R : α → CartDesk → Prop} {p : CartProg α},
      CartServes ok Active k R p d →
      Desk.Serves ⟨ok, CartsKept Active⟩ ItemsActive (fun _ _ => True) (p.bind fun _ => pure ()) d := by
    intro α k R p hp
    have hG := Holds.alone_mono (fun _ _ _ _ h => itemsActive_of_confined h) hp
    exact Desk.Serves.bind (S := R) hG hd fun _ _ _ _ => Desk.serves_pure fun _ => trivial
  cases q with
  | getOrCreate userId sessionKey => exact hweaken (getOrCreate_serves hactive userId sessionKey hd)
  | addItem variantId quantity userId sessionKey =>
    exact hweaken (addItem_serves hactive variantId quantity userId sessionKey hd)
  | updateItem itemId quantity userId sessionKey =>
    exact hweaken (updateItem_serves hactive itemId quantity userId sessionKey hd)
  | removeItem itemId userId sessionKey =>
    exact hweaken (removeItem_serves hactive itemId userId sessionKey hd)
  | getWishlist userId => exact hweaken (getWishlist_serves userId hd)
  | addWishlistItem userId variantId => exact hweaken (addWishlistItem_serves userId variantId hd)
  | removeWishlistItem userId itemId =>
    have hremove : Desk.Serves ⟨ok, CartsKept Active⟩ ItemsActive (fun _ _ => True)
        (OrdersService.removeWishlistItem userId itemId) d :=
      removeWishlistItem_serves userId itemId hd (fun _ _ h => itemsActive_of_confined h)
        fun _ _ => .inl .rfl
    exact Desk.Serves.bind hremove hd fun _ _ _ _ => Desk.serves_pure fun _ => trivial
  | checkout cfg token userId dto => cases hq
  | confirmPendingOrder orderId => cases hq

theorem checkoutRequest_serves (cfg : PaymentConfig) (token userId : ℕ) (dto : CheckoutDto)
    (hd : CartsKept Active d) :
    Desk.Serves ⟨Cleared, CartsKept (ActiveBut (.user userId))⟩ Converting
      (fun _ u => CartsKept Active u) (CartRequest.checkout cfg token userId dto).prog d := by
  have hbut : CartsKept (ActiveBut (.user userId)) d := hd.mono fun _ _ h => .inr h
  refine (checkout_serves (R := CartsKept Active) cfg token userId dto ?_ ?_ ?_ ?_).bind hbut
    fun _ _ _ h => Desk.serves_pure fun _ => h
  · exact fun m u hu => hu.extends ⟨fun _ _ h => h, fun _ r h => ⟨r, h, rfl⟩⟩ rfl
  · intro cartId i u ho e he hid c _
    exact .inl (Option.some.inj (ho e he (congrArg some hid.symm))).symm
  · intro i u ho hf hu
    refine hu.of_active fun e he => ?_
    by_cases hkey : e.1 = .user userId
    · exact ho hf e he hkey
    · obtain ⟨c, hc, hA, -⟩ := (hu e he).cart
      exact activeCart_iff.mpr ⟨c, hc, hA.resolve_left hkey⟩
  · intro u hu e he
    obtain ⟨hmem, hkey⟩ := Desk.mem_drop.mp he
    obtain ⟨c, hc, hA, hholder⟩ := (hu e hmem).cart
    exact ⟨⟨c, hc, hA.resolve_left hkey, hholder⟩, (hu e hmem).items⟩

theorem confirmRequest_serves (orderId : ℕ) (hd : CartsKept Active d) :
    Desk.Serves ⟨Cleared, CartsKept Active⟩ Converting (fun _ _ => True)
      (CartRequest.confirmPendingOrder orderId).prog d :=
  confirm_serves orderId hd fun _ _ ho e he hid => nomatch ho e he hid

theorem request_itemsActive (q : CartRequest) {inputs : List ShopInput} (hd : CartsKept Active d)
    (ha : Pool.SoloAdmits Cleared q.prog d inputs) (n : ℕ) :
    ItemsActive (Pool.solo q.prog d (inputs.take n)).state
      (Pool.solo q.prog d (inputs.take (n + 1))).state := by
  cases hq : q.converts with
  | false =>
    exact Pool.solo_step (W := ⟨Cleared, CartsKept Active⟩) itemsActive_refl (fun _ _ _ _ h => h) hd
      (operation_serves q hq hd) ha n
  | true =>
    cases q with
    | checkout cfg token userId dto =>
      have hbut : CartsKept (ActiveBut (.user userId)) d := hd.mono fun _ _ h => .inr h
      exact Pool.solo_step (W := ⟨Cleared, CartsKept (ActiveBut (.user userId))⟩) itemsActive_refl
        (fun _ _ _ _ h => Converting.active h) hbut (checkoutRequest_serves cfg token userId dto hd) ha n
    | confirmPendingOrder orderId =>
      exact Pool.solo_step (W := ⟨Cleared, CartsKept Active⟩) itemsActive_refl
        (fun _ _ _ _ h => Converting.active h) hd (confirmRequest_serves orderId hd) ha n
    | _ => cases hq

theorem session_kept (hd : CartsKept Active d) (h : Session d d') : CartsKept Active d' := by
  rcases h with ⟨key, rfl⟩ | ⟨q, r, ⟨inputs, ha, hres, rfl⟩, hthrow⟩
  · exact hd.drop
  cases hq : q.converts with
  | false =>
    exact (Pool.solo_holds (W := ⟨Cleared, CartsKept Active⟩) hd (operation_serves q hq hd) ha).1
  | true =>
    cases q with
    | checkout cfg token userId dto =>
      have hbut : CartsKept (ActiveBut (.user userId)) d := hd.mono fun _ _ h => .inr h
      have hserves := checkoutRequest_serves cfg token userId dto hd
      cases r with
      | ok _ =>
        exact Pool.solo_post (W := ⟨Cleared, CartsKept (ActiveBut (.user userId))⟩) hbut hserves ha
          (Pool.threads_of_result hres)
      | error e =>
        have hend := Pool.solo_holds (W := ⟨Cleared, CartsKept (ActiveBut (.user userId))⟩) hbut hserves ha
        have hcache := Pool.solo_related (W := ⟨Cleared, CartsKept (ActiveBut (.user userId))⟩)
          Converting.refl Converting.trans (fun _ _ _ _ h => h) hbut hserves ha
        exact hend.1.of_active fun x hx => hthrow ⟨e, rfl⟩ x hx (hd.active (hcache.cache x hx))
    | confirmPendingOrder orderId =>
      exact (Pool.solo_holds (W := ⟨Cleared, CartsKept Active⟩) hd (confirmRequest_serves orderId hd) ha).1
    | _ => cases hq

/-- After any requests in which conversions leave no view behind, with entries expiring between them,
every item that a request writes is of a cart that is active when it is written. -/
theorem items_of_active_carts {s t : CartDesk} (hs : CartsKept Active s)
    (h : Relation.ReflTransGen Session s t) (q : CartRequest) (inputs : List ShopInput)
    (ha : Pool.SoloAdmits Cleared q.prog t inputs) (n : ℕ) :
    ItemsActive (Pool.solo q.prog t (inputs.take n)).state
      (Pool.solo q.prog t (inputs.take (n + 1))).state := by
  have hkept : CartsKept Active t := by
    clear ha
    induction h with
    | refl => exact hs
    | tail _ hstep ih => exact session_kept ih hstep
  exact request_itemsActive q hkept ha n

def newShopper : CartDesk where
  shop := { users := [1] }
  own := { productVariants := fun _ => some { sku := "SKU-1", salePrice := 100 } }

/-- `n` calls that go through. -/
def replies (n : ℕ) : List ShopInput := List.replicate n { reply := {} }

def readCart : CartRequest := .getOrCreate (some 1) none

def addTwo : CartRequest := .addItem 1 2 (some 1) none

/-- The cart is created and cached, and then two units are put into it. -/
theorem items_of_active_carts_added :
    let t := (Pool.solo readCart.prog newShopper (replies 4)).state
    ItemsActive (Pool.solo addTwo.prog t ((replies 8).take 3)).state
      (Pool.solo addTwo.prog t ((replies 8).take 4)).state := by
  have hread : Session newShopper (Pool.solo readCart.prog newShopper (replies 4)).state :=
    .inr ⟨readCart, .ok (), ⟨replies 4, by decide, rfl, rfl⟩, fun ⟨_, h⟩ => nomatch h⟩
  exact items_of_active_carts (cartsKept_of_empty rfl) (.single hread) addTwo (replies 8)
    (by decide +kernel) 3

def awaitingCapture : CartDesk := { newShopper with
  shop := { users := [1], carts := oneCart, orders := pendingOrder } }

/-- The cart is read, the capture converts it, and then two units are put into it. -/
theorem item_of_converted_cart :
    ¬ ∀ (s t : CartDesk), CartsKept Active s →
      Relation.ReflTransGen (fun d d' => ∃ q r,
        Pool.Ran (fun _ i _ => i.fails = false) (CartRequest.prog q) d r d') s t →
      ∀ (q : CartRequest) (inputs : List ShopInput) (n : ℕ), (∀ i ∈ inputs, i.fails = false) →
        ItemsActive (Pool.solo q.prog t (inputs.take n)).state
          (Pool.solo q.prog t (inputs.take (n + 1))).state := by
  intro h
  let read := (Pool.solo readCart.prog awaitingCapture (replies 4)).state
  let captured := (Pool.solo (CartRequest.confirmPendingOrder 0).prog read (replies 2)).state
  have hread : Pool.Ran (fun _ i _ => i.fails = false) readCart.prog awaitingCapture (.ok ()) read :=
    ⟨replies 4, by decide, rfl, rfl⟩
  have hcapture : Pool.Ran (fun _ i _ => i.fails = false) (CartRequest.confirmPendingOrder 0).prog read
      (.ok ()) captured := ⟨replies 2, by decide, rfl, rfl⟩
  have hend := h awaitingCapture captured (cartsKept_of_empty rfl) (.tail (.single ⟨_, _, hread⟩)
    ⟨_, _, hcapture⟩) addTwo (replies 8) 3 (by decide) ⟨0, 0, 1, "SKU-1", 2, 100, false⟩
  exact absurd hend (by decide +kernel)

end ElectronicsCart.Orders
