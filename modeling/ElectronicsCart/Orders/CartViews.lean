import ElectronicsCart.Orders.Carts
import ElectronicsCart.Orders.CheckoutEffects

/-!
# What a cached cart says

A cart operation writes to the cart that the view under its key names, cached or just read.  `A` is
what is known of the carts that are viewed; a cart that is active when it is viewed has it.
-/

namespace ElectronicsCart.Orders

open Interleaving Relational Payments

/-- A cart that is looked up by user belongs to that user. -/
def Holder (k : CartKey) (c : Cart) : Prop := ∀ u, k = .user u → c.userId = some u

/-- The view is of a cart that `A` knows, and its items are items of that cart. -/
structure Viewed (A : CartKey → Cart → Prop) (k : CartKey) (view : CartView) (d : CartDesk) :
    Prop where
  cart : ∃ c, d.shop.carts.find? view.id = some c ∧ A k c ∧ Holder k c
  items : ∀ i ∈ view.items, ∃ r, d.shop.cartItems.find? i.id = some r ∧ r.cartId = view.id

def CartsKept (A : CartKey → Cart → Prop) (d : CartDesk) : Prop :=
  ∀ e ∈ d.cache, Viewed A e.1 e.2 d

/-- What a call of a cart or wishlist operation for `k` may write. -/
structure Confined (A : CartKey → Cart → Prop) (k : CartKey) (d d' : CartDesk) : Prop where
  carts : ∀ c, (c ∈ d'.shop.carts.rows ↔ c ∈ d.shop.carts.rows) ∨ Holder k c
  items : ∀ r, (r ∈ d'.shop.cartItems.rows ↔ r ∈ d.shop.cartItems.rows) ∨
    ∃ c, d.shop.carts.find? r.cartId = some c ∧ A k c ∧ Holder k c
  wishlists : ∀ w, (w ∈ d'.own.wishlists.rows ↔ w ∈ d.own.wishlists.rows) ∨ k = .user w.userId
  wishlistItems : ∀ x, (x ∈ d'.own.wishlistItems.rows ↔ x ∈ d.own.wishlistItems.rows) ∨
    ∃ w, d.own.wishlists.find? x.wishlistId = some w ∧ k = .user w.userId

variable {A : CartKey → Cart → Prop} {k : CartKey} {view : CartView} {d d' : CartDesk}

theorem Confined.refl (A : CartKey → Cart → Prop) (k : CartKey) (d : CartDesk) :
    Confined A k d d :=
  ⟨fun _ => .inl .rfl, fun _ => .inl .rfl, fun _ => .inl .rfl, fun _ => .inl .rfl⟩

structure Extends (d d' : CartDesk) : Prop where
  carts : ∀ id c, d.shop.carts.find? id = some c → d'.shop.carts.find? id = some c
  items : ∀ id r, d.shop.cartItems.find? id = some r →
    ∃ r', d'.shop.cartItems.find? id = some r' ∧ r'.cartId = r.cartId

theorem Viewed.extends (h : Viewed A k view d) (he : Extends d d') : Viewed A k view d' := by
  obtain ⟨c, hc, hA, hholder⟩ := h.cart
  refine ⟨⟨c, he.carts _ _ hc, hA, hholder⟩, fun i hi => ?_⟩
  obtain ⟨r, hr, hcart⟩ := h.items i hi
  obtain ⟨r', hr', hcart'⟩ := he.items _ _ hr
  exact ⟨r', hr', hcart'.trans hcart⟩

theorem CartsKept.extends (h : CartsKept A d) (he : Extends d d') (hcache : d'.cache = d.cache) :
    CartsKept A d' := fun e hmem => (h e (hcache ▸ hmem)).extends he

theorem CartsKept.drop (h : CartsKept A d) : CartsKept A (d.drop k) := fun e he =>
  (h e (Desk.mem_drop.mp he).1).extends ⟨fun _ _ h => h, fun _ r h => ⟨r, h, rfl⟩⟩

theorem CartsKept.put (h : CartsKept A d) (hv : Viewed A k view d) : CartsKept A (d.put k view) := by
  intro e he
  have hsame : Extends d (d.put k view) := ⟨fun _ _ h => h, fun _ r h => ⟨r, h, rfl⟩⟩
  rcases Desk.mem_put.mp he with rfl | ⟨he, -⟩
  · exact hv.extends hsame
  · exact (h e he).extends hsame

/-! ### Reads -/

theorem firstBy_mem {ρ : Type} [Keyed ρ] {rank : ℕ → ℕ} {rows : List ρ} {r : ρ}
    (h : firstBy rank rows = some r) : r ∈ rows := by
  have hmem := List.mem_of_mem_head? (Option.mem_def.mpr h)
  exact (List.mem_insertionSort _).mp hmem

theorem viewed_include {c : Cart} (hc : c ∈ d.shop.carts.rows) (hA : A k c) (hh : Holder k c) :
    Viewed A k (mapCart (cartInclude d c)) d := by
  refine ⟨⟨c, Table.find?_eq_some_iff.mpr ⟨hc, rfl⟩, hA, hh⟩, fun i hi => ?_⟩
  simp only [mapCart, cartInclude, withItems, List.mem_map, List.mem_filter] at hi
  obtain ⟨_, ⟨_, ⟨⟨r, ⟨hr, hcart⟩, rfl⟩, -⟩, rfl⟩, rfl⟩ := hi
  refine ⟨r, Table.find?_eq_some_iff.mpr ⟨hr, rfl⟩, ?_⟩
  simp only [Bool.and_eq_true, beq_iff_eq] at hcart
  exact hcart.1

theorem viewed_findActive {rank : ℕ → ℕ} {p : Cart → Bool} {cart : IncludedCart}
    (hA : ∀ k c, c.status = .active → A k c) (hp : ∀ c, p c = true → Holder k c)
    (h : CartRepository.findActive rank p d = some cart) : Viewed A k (mapCart cart) d := by
  simp only [CartRepository.findActive, Option.map_eq_some_iff] at h
  obtain ⟨c, hc, rfl⟩ := h
  have hmem := firstBy_mem hc
  simp only [List.mem_filter, Bool.and_eq_true, beq_iff_eq] at hmem
  exact viewed_include hmem.1 (hA _ _ hmem.2.1.2) (hp c hmem.2.1.1)

/-! ### Operations -/

section Operations

variable {ok : CartDeskCall → ShopInput → CartDesk → Prop} {α : Type} {R : α → CartDesk → Prop}

abbrev CartServes (ok : CartDeskCall → ShopInput → CartDesk → Prop) (A : CartKey → Cart → Prop)
    (k : CartKey) (R : α → CartDesk → Prop) (p : CartProg α) (d : CartDesk) : Prop :=
  Desk.Serves ⟨ok, CartsKept A⟩ (Confined A k) R p d

variable (hA : ∀ k c, c.status = .active → A k c)
include hA

theorem insertCart_viewed {userId : Option ℕ} {sessionKey : Option String} {cart : IncludedCart}
    (hd : CartsKept A d) (h : CartRepository.insertCart userId sessionKey d = .ok (cart, d')) :
    CartsKept A d' ∧ Confined A (cacheKey userId sessionKey) d d' ∧
      Viewed A (cacheKey userId sessionKey) (mapCart cart) d' := by
  simp only [CartRepository.insertCart, bind_eq_ok, check_eq_ok, pure_eq_ok, Prod.mk.injEq] at h
  obtain ⟨-, -, rfl, rfl⟩ := h
  have hholder : Holder (cacheKey userId sessionKey)
      { id := d.shop.carts.next, userId := userId } := by
    rintro u hu
    cases userId with
    | none => cases hu
    | some v =>
      obtain rfl := CartKey.user.inj hu
      rfl
  refine ⟨hd.extends ⟨fun id c hc => ?_, fun _ r h => ⟨r, h, rfl⟩⟩ rfl, ⟨fun c => ?_,
    fun _ => .inl .rfl, fun _ => .inl .rfl, fun _ => .inl .rfl⟩, ?_⟩
  · exact Table.find?_insert_of_some (fun _ => rfl) hc
  · by_cases hc : c = { id := d.shop.carts.next, userId := userId }
    · exact .inr (hc ▸ hholder)
    · refine .inl ?_
      simp only [Table.mem_insert, hc, or_false]
  · refine viewed_include ((Table.mem_insert _).mpr (.inr rfl)) (hA _ _ rfl) hholder

theorem getOrCreate_serves (userId : Option ℕ) (sessionKey : Option String) (hd : CartsKept A d) :
    CartServes ok A (cacheKey userId sessionKey)
      (fun view d => Viewed A (cacheKey userId sessionKey) view d)
      (CartService.getOrCreate userId sessionKey) d := by
  refine Desk.serves_ensure fun _ => Desk.serves_getOrSet (Confined.refl A _) hd (fun v hv => hd _ hv) ?_
  let k := cacheKey userId sessionKey
  have hput : ∀ (view : CartView) (u : CartDesk), CartsKept A u → Viewed A k view u →
      Viewed A k view u ∧ (CartsKept A (u.put k view) ∧ Confined A k u (u.put k view) ∧
        Viewed A k view (u.put k view)) := by
    intro view u hu hv
    have hsame : Extends u (u.put k view) := ⟨fun _ _ h => h, fun _ r h => ⟨r, h, rfl⟩⟩
    exact ⟨hv, hu.put hv, ⟨fun _ => .inl .rfl, fun _ => .inl .rfl, fun _ => .inl .rfl,
      fun _ => .inl .rfl⟩, hv.extends hsame⟩
  have hfound : ∀ cart, Viewed A k (mapCart cart) d → CartServes ok A k
      (fun v u => Viewed A k v u ∧ (CartsKept A (u.put k v) ∧ Confined A k u (u.put k v) ∧
        Viewed A k v (u.put k v))) (pure (mapCart cart)) d := fun cart hcart =>
    Desk.serves_pure fun hu => hput _ _ hu hcart
  have hnone : CartServes ok A k
      (fun v u => Viewed A k v u ∧ (CartsKept A (u.put k v) ∧ Confined A k u (u.put k v) ∧
        Viewed A k v (u.put k v)))
      ((CartRepository.create userId sessionKey).bind fun cart => pure (mapCart cart)) d := by
    have hcreate : CartServes ok A k (fun cart u => Viewed A k (mapCart cart) u)
        (CartRepository.create userId sessionKey) d :=
      Desk.serves_atomic (Confined.refl A _) fun i cart u hu h => insertCart_viewed hA hu h
    exact hcreate.bind hd fun cart u hu hv => Desk.serves_pure fun _ => hput _ _ hu hv
  cases userId with
  | none =>
    refine Desk.serves_queryBind (Confined.refl A _) fun i _ => ?_
    split
    next cart h => exact hfound cart (viewed_findActive hA (fun _ _ u hu => nomatch hu) h)
    next => exact hnone
  | some v =>
    refine Desk.serves_queryBind (Confined.refl A _) fun i _ => ?_
    split
    next cart h =>
      refine hfound cart (viewed_findActive hA (fun c hc u hu => ?_) h)
      obtain rfl := CartKey.user.inj hu
      simpa using hc
    next => exact hnone

/-! ### Writes of items -/

omit hA in
theorem confined_items {T : Table CartItem} (hv : Viewed A k view d)
    (h : ∀ r, r.cartId ≠ view.id → (r ∈ T.rows ↔ r ∈ d.shop.cartItems.rows)) :
    Confined A k d (CartRepository.withCartItems T d) := by
  refine ⟨fun _ => .inl .rfl, fun r => ?_, fun _ => .inl .rfl, fun _ => .inl .rfl⟩
  by_cases hr : r.cartId = view.id
  · exact .inr (hr ▸ hv.cart)
  · exact .inl (h r hr)

omit hA in
theorem item_updated {id : ℕ} {g : CartItem → CartItem} {hg : ∀ r, key (g r) = key r}
    (hd : CartsKept A d) (hcart : ∀ r, (g r).cartId = r.cartId)
    (hv : Viewed A k view d) (hid : ∀ r ∈ d.shop.cartItems.rows, r.id = id → r.cartId = view.id) :
    let d' := CartRepository.withCartItems (d.shop.cartItems.update id g hg) d
    CartsKept A d' ∧ Confined A k d d' := by
  refine ⟨hd.extends ⟨fun _ _ h => h, fun j r hr => ?_⟩ rfl, confined_items hv fun r hr => ?_⟩
  · refine ⟨if key r = id then g r else r, ?_, ?_⟩
    · exact (Table.find?_update hg).trans (congrArg _ hr)
    split
    · exact hcart r
    · rfl
  · refine Table.mem_update_of_not (q := fun r => r.cartId = view.id) hg (fun a ha hk => ?_) hr
    exact ⟨hid a ha hk, (hcart a).trans (hid a ha hk)⟩

omit hA in
theorem upsertItem_serves {variantId : ℕ} {quantity : ℤ} {unitPrice : ℚ}
    (hv : Viewed A k view d) : CartServes ok A k (fun _ _ => True)
      (CartRepository.upsertItem view.id variantId quantity unitPrice) d := by
  refine Desk.serves_queryBind (Confined.refl A _) fun i _ => ?_
  split
  next item hitem =>
    have hmem := firstBy_mem hitem
    simp only [List.mem_filter, Bool.and_eq_true, beq_iff_eq] at hmem
    refine Desk.serves_atomic (Confined.refl A _) fun i' _ u hd h => ?_
    simp only [CartRepository.restoreItem, bind_eq_ok, pure_eq_ok, Prod.mk.injEq] at h
    obtain ⟨-, -, -, rfl⟩ := h
    let g : CartItem → CartItem := fun i => { i with quantity, unitPrice, deleted := false }
    refine (item_updated (g := g) hd (fun _ => rfl) hv fun r hr hid => ?_).imp_right fun h => ⟨h, trivial⟩
    rw [Table.eq_of_key_eq hr hmem.1 hid]
    exact hmem.2.1
  next =>
    refine Desk.serves_atomic (Confined.refl A _) fun i' _ u hd h => ?_
    simp only [CartRepository.insertItem, bind_eq_ok, pure_eq_ok, Prod.mk.injEq] at h
    obtain ⟨-, -, -, -, -, rfl⟩ := h
    refine ⟨hd.extends ⟨fun _ _ h => h, fun j r hr => ?_⟩ rfl, confined_items hv fun r hr => ?_, trivial⟩
    · exact ⟨r, Table.find?_insert_of_some (fun _ => rfl) hr, rfl⟩
    · rw [Table.mem_insert]
      refine or_iff_left fun h => hr ?_
      rw [h]

theorem finish_serves {userId : Option ℕ} {sessionKey : Option String} {write : CartProg Unit}
    (hd : CartsKept A d)
    (hwrite : CartServes ok A (cacheKey userId sessionKey) (fun _ _ => True) write d) :
    CartServes ok A (cacheKey userId sessionKey) (fun _ _ => True)
      (write.bind fun _ => (Desk.cacheDel (cacheKey userId sessionKey)).bind fun _ =>
        CartService.getOrCreate userId sessionKey) d := by
  refine hwrite.bind hd fun _ u hu _ => Desk.serves_delBind (Confined.refl A _) (fun i _ _ => ?_) fun _ => ?_
  · exact (getOrCreate_serves hA userId sessionKey hu).mono fun _ _ _ _ => trivial
  · refine ⟨hu.drop, ⟨fun _ => .inl .rfl, fun _ => .inl .rfl, fun _ => .inl .rfl, fun _ => .inl .rfl⟩, ?_⟩
    exact (getOrCreate_serves hA userId sessionKey hu.drop).mono fun _ _ _ _ => trivial

theorem addItem_serves (variantId : ℕ) (quantity : ℤ) (userId : Option ℕ)
    (sessionKey : Option String) (hd : CartsKept A d) :
    CartServes ok A (cacheKey userId sessionKey) (fun _ _ => True)
      (CartService.addItem variantId quantity userId sessionKey) d := by
  refine Desk.serves_queryBind (Confined.refl A _) fun i _ => Desk.serves_orThrow fun variant _ => ?_
  refine (getOrCreate_serves hA userId sessionKey hd).bind hd fun view u hu hv => ?_
  exact finish_serves hA hu (upsertItem_serves hv)

omit hA in
theorem Viewed.item {itemId : ℕ} (hv : Viewed A k view d)
    (h : view.items.any (fun i => i.id == itemId) = true) :
    ∀ r ∈ d.shop.cartItems.rows, r.id = itemId → r.cartId = view.id := by
  intro r hr hid
  obtain ⟨i, hi, hiid⟩ := List.any_eq_true.mp h
  obtain ⟨r', hr', hcart⟩ := hv.items i hi
  obtain ⟨hmem, hkey⟩ := Table.find?_mem hr'
  have hsame : r.id = r'.id := hid.trans ((beq_iff_eq.mp hiid).symm.trans hkey.symm)
  rw [Table.eq_of_key_eq hr hmem hsame]
  exact hcart

theorem updateItem_serves (itemId : ℕ) (quantity : ℤ) (userId : Option ℕ)
    (sessionKey : Option String) (hd : CartsKept A d) :
    CartServes ok A (cacheKey userId sessionKey) (fun _ _ => True)
      (CartService.updateItem itemId quantity userId sessionKey) d := by
  refine (getOrCreate_serves hA userId sessionKey hd).bind hd fun view u hu hv => ?_
  refine Desk.serves_ensure fun hitem => finish_serves hA hu ?_
  refine Desk.serves_atomic (Confined.refl A _) fun i _ x hx h => ?_
  simp only [bind_eq_ok, pure_eq_ok, Prod.mk.injEq] at h
  obtain ⟨-, -, -, -, -, rfl⟩ := h
  let g : CartItem → CartItem := fun i => { i with quantity }
  exact (item_updated (g := g) hx (fun _ => rfl) hv (hv.item hitem)).imp_right fun h => ⟨h, trivial⟩

theorem removeItem_serves (itemId : ℕ) (userId : Option ℕ) (sessionKey : Option String)
    (hd : CartsKept A d) : CartServes ok A (cacheKey userId sessionKey) (fun _ _ => True)
      (CartService.removeItem itemId userId sessionKey) d := by
  refine (getOrCreate_serves hA userId sessionKey hd).bind hd fun view u hu hv => ?_
  refine Desk.serves_ensure fun hitem => finish_serves hA hu ?_
  refine Desk.serves_atomic (Confined.refl A _) fun i _ x hx h => ?_
  simp only [bind_eq_ok, pure_eq_ok, Prod.mk.injEq] at h
  obtain ⟨-, -, -, rfl⟩ := h
  let g : CartItem → CartItem := fun i => { i with deleted := true }
  exact (item_updated (g := g) hx (fun _ => rfl) hv (hv.item hitem)).imp_right fun h => ⟨h, trivial⟩

/-! ### Wishlists -/

omit hA

theorem kept_wishlists {own : CartTables} (hd : CartsKept A d) : CartsKept A { d with own } :=
  hd.extends ⟨fun _ _ h => h, fun _ r h => ⟨r, h, rfl⟩⟩ rfl

def Wished (u : ℕ) (w : Wishlist) (d : CartDesk) : Prop :=
  d.own.wishlists.find? w.id = some w ∧ w.userId = u

theorem getOrCreateWishlist_serves (userId : ℕ) :
    CartServes ok A (.user userId) (fun wl d => Wished userId wl.1 d)
      (WishlistRepository.getOrCreate userId) d := by
  refine Desk.serves_queryBind (Confined.refl A _) fun i _ => ?_
  split
  next wl hwl =>
    refine Desk.serves_pure fun _ => ?_
    simp only [Option.map_eq_some_iff] at hwl
    obtain ⟨w, hw, rfl⟩ := hwl
    have hmem := firstBy_mem hw
    simp only [List.mem_filter, Bool.and_eq_true, beq_iff_eq] at hmem
    exact ⟨Table.find?_eq_some_iff.mpr ⟨hmem.1, rfl⟩, hmem.2.1.1⟩
  next =>
    refine Desk.serves_atomic (Confined.refl A _) fun i' wl u hu h => ?_
    simp only [bind_eq_ok, check_eq_ok, pure_eq_ok, Prod.mk.injEq] at h
    obtain ⟨-, -, rfl, rfl⟩ := h
    refine ⟨kept_wishlists hu, ⟨fun _ => .inl .rfl, fun _ => .inl .rfl, fun w => ?_,
      fun _ => .inl .rfl⟩, Table.find?_insert_next fun _ => rfl, rfl⟩
    by_cases hw : w = { id := d.own.wishlists.next, userId := userId }
    · exact .inr (hw ▸ rfl)
    · refine .inl ?_
      simp only [Table.mem_insert, hw, or_false]

theorem confined_wishlistItems {w : Wishlist} {userId : ℕ} {T : Table WishlistItem}
    (hw : Wished userId w d)
    (h : ∀ x, x.wishlistId ≠ w.id → (x ∈ T.rows ↔ x ∈ d.own.wishlistItems.rows)) :
    Confined A (.user userId) d (WishlistRepository.withWishlistItems T d) := by
  refine ⟨fun _ => .inl .rfl, fun _ => .inl .rfl, fun _ => .inl .rfl, fun x => ?_⟩
  by_cases hx : x.wishlistId = w.id
  · exact .inr ⟨w, hx ▸ hw.1, congrArg _ hw.2.symm⟩
  · exact .inl (h x hx)

theorem wishlistItem_updated {id userId : ℕ} {w : Wishlist} {g : WishlistItem → WishlistItem}
    {hg : ∀ x, key (g x) = key x} (hlist : ∀ x, (g x).wishlistId = x.wishlistId)
    (hw : Wished userId w d)
    (hid : ∀ x ∈ d.own.wishlistItems.rows, x.id = id → x.wishlistId = w.id) :
    Confined A (.user userId) d
      (WishlistRepository.withWishlistItems (d.own.wishlistItems.update id g hg) d) := by
  refine confined_wishlistItems hw fun x hx => ?_
  refine Table.mem_update_of_not (q := fun x => x.wishlistId = w.id) hg (fun a ha hk => ?_) hx
  exact ⟨hid a ha hk, (hlist a).trans (hid a ha hk)⟩

theorem getWishlist_serves (userId : ℕ) (hd : CartsKept A d) :
    CartServes ok A (.user userId) (fun _ _ => True) (OrdersService.getWishlist userId) d :=
  (getOrCreateWishlist_serves userId).bind hd fun _ _ _ _ => Desk.serves_pure fun _ => trivial

theorem addWishlistItem_serves (userId variantId : ℕ) (hd : CartsKept A d) :
    CartServes ok A (.user userId) (fun _ _ => True)
      (OrdersService.addWishlistItem userId variantId) d := by
  refine (getOrCreateWishlist_serves userId).bind hd fun wl u hu hw => ?_
  have hadd : CartServes ok A (.user userId) (fun _ _ => True)
      (WishlistRepository.addItem wl.1.id variantId) u := by
    refine Desk.serves_queryBind (Confined.refl A _) fun i _ => ?_
    split
    next item hitem =>
      have hmem := firstBy_mem hitem
      simp only [List.mem_filter, Bool.and_eq_true, beq_iff_eq] at hmem
      refine Desk.serves_atomic (Confined.refl A _) fun i' _ x hx h => ?_
      simp only [WishlistRepository.restoreItem, bind_eq_ok, pure_eq_ok, Prod.mk.injEq] at h
      obtain ⟨-, -, -, rfl⟩ := h
      refine ⟨kept_wishlists hx, wishlistItem_updated (fun _ => rfl) hw fun y hy hid => ?_, trivial⟩
      rw [Table.eq_of_key_eq hy hmem.1 hid]
      exact hmem.2.1
    next =>
      refine Desk.serves_atomic (Confined.refl A _) fun i' _ x hx h => ?_
      simp only [WishlistRepository.insertItem, bind_eq_ok, pure_eq_ok, Prod.mk.injEq] at h
      obtain ⟨-, -, -, -, -, rfl⟩ := h
      refine ⟨kept_wishlists hx, confined_wishlistItems hw fun y hy => ?_, trivial⟩
      rw [Table.mem_insert]
      refine or_iff_left fun h => hy ?_
      rw [h]
  exact hadd.bind hu fun _ x hx _ => getWishlist_serves userId hx

def withRemoved (now itemId : ℕ) (d : CartDesk) : CartDesk :=
  WishlistRepository.withWishlistItems (d.own.wishlistItems.update itemId fun x =>
    { x with deletedAt := some now, active := false }) d

theorem removeWishlistItem_serves {G : CartDesk → CartDesk → Prop} (userId itemId : ℕ)
    (hd : CartsKept A d) (hG : ∀ d d', Confined A (.user userId) d d' → G d d')
    (hremoved : ∀ now, G d (withRemoved now itemId d)) :
    Desk.Serves ⟨ok, CartsKept A⟩ G (fun _ _ => True)
      (OrdersService.removeWishlistItem userId itemId) d := by
  have hremove : Desk.Serves ⟨ok, CartsKept A⟩ G (fun _ _ => True)
      (WishlistRepository.removeItem itemId) d := by
    refine Desk.serves_atomic (fun d => hG _ _ (.refl A _ d)) fun i _ u hu h => ?_
    simp only [bind_eq_ok, pure_eq_ok, Prod.mk.injEq] at h
    obtain ⟨-, -, -, rfl⟩ := h
    exact ⟨kept_wishlists hu, hremoved i.now, trivial⟩
  refine hremove.bind hd fun _ u hu _ => ?_
  exact Holds.alone_mono (fun _ _ _ _ h => hG _ _ h) (getWishlist_serves userId hu)

end Operations

end ElectronicsCart.Orders
