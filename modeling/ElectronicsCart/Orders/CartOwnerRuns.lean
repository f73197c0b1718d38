import ElectronicsCart.Orders.CartStatusRuns

/-!
# Carts and wishlists of other customers

A cart operation reaches the rows of the cart that its key names, a wishlist is looked up by its
customer; only `removeItem` of a wishlist takes an id and asks for no owner.
-/

namespace ElectronicsCart.Orders

open Interleaving Relational Payments

/-- What belongs to customers other than `u` is as it was. -/
structure Others (u : ℕ) (d d' : CartDesk) : Prop where
  carts : ∀ c v, c.userId = some v → v ≠ u → (c ∈ d'.shop.carts.rows ↔ c ∈ d.shop.carts.rows)
  items : ∀ r c v, d.shop.carts.find? r.cartId = some c → c.userId = some v → v ≠ u →
    (r ∈ d'.shop.cartItems.rows ↔ r ∈ d.shop.cartItems.rows)
  wishlists : ∀ w, w.userId ≠ u → (w ∈ d'.own.wishlists.rows ↔ w ∈ d.own.wishlists.rows)
  wishlistItems : ∀ x w, d.own.wishlists.find? x.wishlistId = some w → w.userId ≠ u →
    (x ∈ d'.own.wishlistItems.rows ↔ x ∈ d.own.wishlistItems.rows)

/-- The cart and wishlist operations of the signed-in customer `u`. -/
def CartRequest.onBehalfOf (u : ℕ) : CartRequest → Bool
  | .getOrCreate userId _ => userId == some u
  | .addItem _ _ userId _ => userId == some u
  | .updateItem _ _ userId _ => userId == some u
  | .removeItem _ userId _ => userId == some u
  | .getWishlist userId => userId == u
  | .addWishlistItem userId _ => userId == u
  | .removeWishlistItem userId _ => userId == u
  | .checkout _ _ _ _ => false
  | .confirmPendingOrder _ => false

/-- An item that is removed from a wishlist is on none of another customer. -/
def RemovesOwn (u : ℕ) (q : CartRequest) (d : CartDesk) : Prop :=
  match q with
  | .removeWishlistItem _ itemId => ∀ x ∈ d.own.wishlistItems.rows, x.id = itemId →
      ∀ w ∈ d.own.wishlists.rows, w.id = x.wishlistId → w.userId = u
  | _ => True

instance (u : ℕ) (q : CartRequest) (d : CartDesk) : Decidable (RemovesOwn u q d) := by
  unfold RemovesOwn
  split <;> infer_instance

/-- Nothing is known of the carts that are viewed but whose they are. -/
def AnyCart : CartKey → Cart → Prop := fun _ _ => True

variable {u : ℕ} {d d' : CartDesk}

theorem Others.refl (u : ℕ) (d : CartDesk) : Others u d d :=
  ⟨fun _ _ _ _ => .rfl, fun _ _ _ _ _ _ => .rfl, fun _ _ => .rfl, fun _ _ _ _ => .rfl⟩

theorem Others.trans {a b c : CartDesk} (h : Others u a b) (h' : Others u b c) : Others u a c := by
  refine ⟨fun x v hv hne => ?_, fun r x v hx hv hne => ?_, fun w hw => ?_, fun x w hw hne => ?_⟩
  · exact (h'.carts x v hv hne).trans (h.carts x v hv hne)
  · have hstay : b.shop.carts.find? r.cartId = some x := by
      rw [Table.find?_eq_some_iff] at hx ⊢
      exact ⟨(h.carts x v hv hne).mpr hx.1, hx.2⟩
    exact (h'.items r x v hstay hv hne).trans (h.items r x v hx hv hne)
  · exact (h'.wishlists w hw).trans (h.wishlists w hw)
  · have hstay : b.own.wishlists.find? x.wishlistId = some w := by
      rw [Table.find?_eq_some_iff] at hw ⊢
      exact ⟨(h.wishlists w hne).mpr hw.1, hw.2⟩
    exact (h'.wishlistItems x w hstay hne).trans (h.wishlistItems x w hw hne)

theorem others_of_confined (h : Confined AnyCart (.user u) d d') : Others u d d' := by
  refine ⟨fun c v hv hne => ?_, fun r c v hc hv hne => ?_, fun w hw => ?_, fun x w hw hne => ?_⟩
  · refine (h.carts c).resolve_right fun hh => hne ?_
    exact Option.some.inj (hv.symm.trans (hh u rfl))
  · refine (h.items r).resolve_right ?_
    rintro ⟨c', hc', -, hh⟩
    refine hne ?_
    obtain rfl := Option.some.inj (hc.symm.trans hc')
    exact Option.some.inj (hv.symm.trans (hh u rfl))
  · refine (h.wishlists w).resolve_right fun hk => hw ?_
    exact (CartKey.user.inj hk).symm
  · refine (h.wishlistItems x).resolve_right fun ⟨w', hw', hk⟩ => hne ?_
    obtain rfl := Option.some.inj (hw.symm.trans hw')
    exact (CartKey.user.inj hk).symm

/-! ### The invariant of the cached carts -/

theorem anyCart_of_active : ∀ (k : CartKey) (c : Cart), c.status = .active → AnyCart k c :=
  fun _ _ _ => trivial

theorem request_keeps (q : CartRequest) (hd : CartsKept AnyCart d) :
    ∃ G, Desk.Serves ⟨fun _ _ _ => True, CartsKept AnyCart⟩ G (fun _ _ => True) q.prog d := by
  have hlast : ∀ {α : Type} {G : CartDesk → CartDesk → Prop} {R : α → CartDesk → Prop}
      {p : CartProg α}, Desk.Serves ⟨fun _ _ _ => True, CartsKept AnyCart⟩ G R p d →
      ∃ G, Desk.Serves ⟨fun _ _ _ => True, CartsKept AnyCart⟩ G (fun _ _ => True)
        (p.bind fun _ => pure ()) d := fun hp =>
    ⟨_, hp.bind hd fun _ _ _ _ => Desk.serves_pure fun _ => trivial⟩
  cases q with
  | getOrCreate userId sessionKey =>
    exact hlast (getOrCreate_serves anyCart_of_active userId sessionKey hd)
  | addItem variantId quantity userId sessionKey =>
    exact hlast (addItem_serves anyCart_of_active variantId quantity userId sessionKey hd)
  | updateItem itemId quantity userId sessionKey =>
    exact hlast (updateItem_serves anyCart_of_active itemId quantity userId sessionKey hd)
  | removeItem itemId userId sessionKey =>
    exact hlast (removeItem_serves anyCart_of_active itemId userId sessionKey hd)
  | getWishlist userId => exact hlast (getWishlist_serves userId hd)
  | addWishlistItem userId variantId => exact hlast (addWishlistItem_serves userId variantId hd)
  | removeWishlistItem userId itemId =>
    exact hlast (removeWishlistItem_serves (G := fun _ _ => True) userId itemId hd
      (fun _ _ _ => trivial) fun _ => trivial)
  | checkout cfg token userId dto =>
    exact hlast (checkout_serves (R := fun _ => True) cfg token userId dto (fun _ _ h => h)
      (fun _ _ _ _ _ _ _ _ h => h) (fun _ _ _ _ _ => trivial) fun _ _ => trivial)
  | confirmPendingOrder orderId =>
    exact ⟨_, confirm_serves orderId hd fun _ _ _ _ _ _ _ h => h⟩

/-! ### Operations of one customer -/

theorem customer_serves (q : CartRequest) (hq : q.onBehalfOf u = true) (hown : RemovesOwn u q d)
    (hd : CartsKept AnyCart d) :
    Desk.Serves ⟨fun _ _ _ => True, CartsKept AnyCart⟩ (Others u) (fun _ _ => True) q.prog d := by
  have hlast : ∀ {α : Type} {R : α → CartDesk → Prop} {p : CartProg α},
      CartServes (fun _ _ _ => True) AnyCart (.user u) R p d →
      Desk.Serves ⟨fun _ _ _ => True, CartsKept AnyCart⟩ (Others u) (fun _ _ => True)
        (p.bind fun _ => pure ()) d := by
    intro α R p hp
    have hG := Holds.alone_mono (fun _ _ _ _ h => others_of_confined h) hp
    exact Desk.Serves.bind (S := R) hG hd fun _ _ _ _ => Desk.serves_pure fun _ => trivial
  cases q with
  | getOrCreate userId sessionKey =>
    obtain rfl := beq_iff_eq.mp hq
    exact hlast (getOrCreate_serves anyCart_of_active (some u) sessionKey hd)
  | addItem variantId quantity userId sessionKey =>
    obtain rfl := beq_iff_eq.mp hq
    exact hlast (addItem_serves anyCart_of_active variantId quantity (some u) sessionKey hd)
  | updateItem itemId quantity userId sessionKey =>
    obtain rfl := beq_iff_eq.mp hq
    exact hlast (updateItem_serves anyCart_of_active itemId quantity (some u) sessionKey hd)
  | removeItem itemId userId sessionKey =>
    obtain rfl := beq_iff_eq.mp hq
    exact hlast (removeItem_serves anyCart_of_active itemId (some u) sessionKey hd)
  | getWishlist userId =>
    obtain rfl := beq_iff_eq.mp hq
    exact hlast (getWishlist_serves userId hd)
  | addWishlistItem userId variantId =>
    obtain rfl := beq_iff_eq.mp hq
    exact hlast (addWishlistItem_serves userId variantId hd)
  | removeWishlistItem userId itemId =>
    obtain rfl := beq_iff_eq.mp hq
    have hremoved : ∀ now, Others userId d (withRemoved now itemId d) := by
      intro now
      refine ⟨fun _ _ _ _ => .rfl, fun _ _ _ _ _ _ => .rfl, fun _ _ => .rfl, fun x w hw hne => ?_⟩
      let g : WishlistItem → WishlistItem := fun x => { x with deletedAt := some now, active := false }
      refine Table.mem_update_of_not (g := g) (q := fun x => ∀ w ∈ d.own.wishlists.rows,
        w.id = x.wishlistId → w.userId = userId) (fun _ => rfl) (fun a ha hk => ?_) fun hx => ?_
      · exact ⟨hown a ha hk, hown a ha hk⟩
      · obtain ⟨hmem, hkey⟩ := Table.find?_mem hw
        exact hne (hx w hmem hkey)
    have hremove : Desk.Serves ⟨fun _ _ _ => True, CartsKept AnyCart⟩ (Others userId) (fun _ _ => True)
        (OrdersService.removeWishlistItem userId itemId) d :=
      removeWishlistItem_serves userId itemId hd (fun _ _ h => others_of_confined h) hremoved
    exact hremove.bind hd fun _ _ _ _ => Desk.serves_pure fun _ => trivial
  | checkout cfg token userId dto => cases hq
  | confirmPendingOrder orderId => cases hq

/-- After any requests of anybody, an operation of a customer leaves what belongs to the others as it
was, whatever the database answers, exactly when it does not remove an item of their wishlists. -/
theorem others_unchanged_iff {s t : CartDesk} (hs : CartsKept AnyCart s)
    (h : Relation.ReflTransGen (fun d d' => ∃ q r,
      Pool.Ran (fun _ _ _ => True) (CartRequest.prog q) d r d') s t)
    (u : ℕ) (q : CartRequest) (hq : q.onBehalfOf u = true) :
    (∀ inputs, Others u t (Pool.solo q.prog t inputs).state) ↔ RemovesOwn u q t := by
  have hkept : CartsKept AnyCart t := by
    induction h with
    | refl => exact hs
    | tail _ hstep ih =>
      obtain ⟨q', r, inputs, ha, -, rfl⟩ := hstep
      obtain ⟨G, hserves⟩ := request_keeps q' ih
      exact (Pool.solo_holds (W := ⟨fun _ _ _ => True, CartsKept AnyCart⟩) ih hserves ha).1
  constructor
  · intro hall
    cases q with
    | removeWishlistItem userId itemId =>
      intro x hx hid w hw hlist
      by_contra hne
      -- the first call writes the row, at an instant that it did not hold
      let now := x.deletedAt.getD 0 + 1
      have hothers := (hall [{ now, reply := {} }]).wishlistItems x w
        (Table.find?_eq_some_iff.mpr ⟨hw, hlist⟩) hne
      have hrow : t.own.wishlistItems.find? itemId = some x := Table.find?_eq_some_iff.mpr ⟨hx, hid⟩
      have hend : (Pool.solo (CartRequest.removeWishlistItem userId itemId).prog t
          [{ now, reply := {} }]).state = withRemoved now itemId t := by
        change (settle t do
          let _ ← existing t.own.wishlistItems itemId
          return ((), withRemoved now itemId t)).2 = _
        rw [existing_eq_ok.mpr hrow]
        rfl
      rw [hend] at hothers
      let g : WishlistItem → WishlistItem := fun x => { x with deletedAt := some now, active := false }
      have hmem := (Table.mem_update (g := g) fun _ => rfl).mp (hothers.mpr hx)
      obtain ⟨a, -, hax⟩ := hmem
      split at hax
      next hkey =>
        have hwritten : some now = x.deletedAt := congrArg WishlistItem.deletedAt hax
        have hlater : x.deletedAt.getD 0 + 1 = x.deletedAt.getD 0 := by
          conv_rhs => rw [← hwritten]
          rfl
        omega
      next hkey => exact hkey (hax ▸ hid)
    | _ => trivial
  · intro hown inputs
    exact Pool.solo_related (W := ⟨fun _ _ _ => True, CartsKept AnyCart⟩) (Others.refl u) Others.trans
      (fun _ _ _ _ h => h) hkept (customer_serves q hq hown hkept)
      (Pool.soloAdmits_of_forall fun _ _ _ _ => trivial)

def twoWishlists : CartDesk where
  shop := { users := [1, 2] }
  own := {
    wishlists := (Table.empty.insert fun n => { id := n, userId := 1 }).insert fun n =>
      { id := n, userId := 2 }
    wishlistItems := (Table.empty.insert fun n =>
      { id := n, wishlistId := 0, variantId := 1, sku := "SKU-1" }).insert fun n =>
      { id := n, wishlistId := 1, variantId := 1, sku := "SKU-1" } }

theorem others_unchanged_own :
    Others 1 twoWishlists
      (Pool.solo (CartRequest.removeWishlistItem 1 0).prog twoWishlists (replies 3)).state :=
  (others_unchanged_iff (cartsKept_of_empty rfl) .refl 1 (.removeWishlistItem 1 0) rfl).mpr
    (by decide +kernel) (replies 3)

/-- The first customer removes the item of the second. -/
theorem foreign_wishlist_item_removed :
    ¬ ∀ (u : ℕ) (q : CartRequest) (d : CartDesk) (inputs : List ShopInput), CartsKept AnyCart d →
      q.onBehalfOf u = true → Others u d (Pool.solo q.prog d inputs).state := by
  intro h
  have hothers := h 1 (.removeWishlistItem 1 1) twoWishlists (replies 3) (cartsKept_of_empty rfl) rfl
  have hitem := hothers.wishlistItems ⟨1, 1, 1, "SKU-1", true, none⟩ ⟨1, 2, "Default", true, false⟩
    rfl (by decide)
  exact absurd hitem (by decide +kernel)

end ElectronicsCart.Orders
