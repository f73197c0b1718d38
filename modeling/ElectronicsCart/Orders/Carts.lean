import ElectronicsCart.Orders.Checkout
import ElectronicsCart.Shop.Desk

/-!
# Carts and wishlists

`CartService` of `modules/orders/services/cart.service.ts` with `cart.repository.ts`, `mapCart` and
the cart entries of `OrdersCacheService`, the wishlist calls of `orders.service.ts` with
`wishlist.repository.ts`, and the two conversions of a cart: by a checkout, which deletes its user's
entry, and by `confirmPendingOrderAfterCapture`, which deletes none.
-/

namespace ElectronicsCart.Orders

open Interleaving Relational Payments

/-! ### Tables -/

/-- `product_variants`. -/
structure ProductVariant where
  sku : String
  salePrice : ℚ
  active : Bool := true
  deleted : Bool := false
deriving DecidableEq, Repr

structure Wishlist where
  id : ℕ
  userId : ℕ
  name : String := "Default"
  active : Bool := true
  deleted : Bool := false
deriving DecidableEq, Repr

structure WishlistItem where
  id : ℕ
  wishlistId : ℕ
  variantId : ℕ
  sku : String
  active : Bool := true
  deletedAt : Option ℕ := none
deriving DecidableEq, Repr

instance : Keyed Wishlist := ⟨Wishlist.id⟩
instance : Keyed WishlistItem := ⟨WishlistItem.id⟩

structure CartTables where
  /-- the column `session_key` of `carts` -/
  sessionKeys : ℕ → Option String := fun _ => none
  productVariants : ℕ → Option ProductVariant := fun _ => none
  wishlists : Table Wishlist := .empty
  wishlistItems : Table WishlistItem := .empty

/-! ### Cached carts -/

/-- `cacheKey`. -/
inductive CartKey where
  | user (id : ℕ)
  | session (key : String)
deriving DecidableEq, Repr

structure CartItemView where
  id : ℕ
  variantId : ℕ
  sku : String
  quantity : ℤ
  unitPrice : ℚ
  lineTotal : ℚ
deriving DecidableEq, Repr

structure CartView where
  id : ℕ
  userId : Option ℕ
  sessionKey : Option String
  currency : String
  status : CartStatus
  subtotal : ℚ
  items : List CartItemView
deriving DecidableEq, Repr

inductive CartCall where
  | findVariant (id : ℕ)
  | findActiveByUser (userId : ℕ)
  | findActiveBySession (sessionKey : String)
  | createCart (userId : Option ℕ) (sessionKey : Option String)
  | findItem (cartId variantId : ℕ)
  | restoreItem (id : ℕ)
  | insertItem (cartId variantId : ℕ)
  | updateItemQty (id : ℕ)
  | softDeleteItem (id : ℕ)
  | findWishlist (userId : ℕ)
  | createWishlist (userId : ℕ)
  | findWishlistItem (wishlistId variantId : ℕ)
  | restoreWishlistItem (id : ℕ)
  | insertWishlistItem (wishlistId variantId : ℕ)
  | removeWishlistItem (id : ℕ)
deriving DecidableEq, Repr

abbrev CartDesk := Desk CartKey CartView CartTables

abbrev CartDeskCall := DeskCall CartKey CartCall

abbrev CartProg (α : Type) := DeskProg CartKey CartView CartTables CartCall α

def cacheKey (userId : Option ℕ) (sessionKey : Option String) : CartKey :=
  userId.elim (.session (sessionKey.getD "anon")) .user

/-- A cart with the items and variants of `cartInclude`. -/
structure IncludedCart where
  cart : Cart
  sessionKey : Option String
  items : List (CartItem × Option ProductVariant)

def cartInclude (d : CartDesk) (c : Cart) : IncludedCart where
  cart := c
  sessionKey := d.own.sessionKeys c.id
  items := (withItems d.shop c).2.map fun i => (i, d.own.productVariants i.variantId)

def cartItemView (i : CartItem) : CartItemView :=
  ⟨i.id, i.variantId, i.sku, i.quantity, i.unitPrice, lineTotal i⟩

/-- Items that are deleted, or whose variant is, are left out. -/
def mapCart (c : IncludedCart) : CartView :=
  let items := (c.items.filter fun i => !i.1.deleted && i.2.any fun v => !v.deleted).map Prod.fst
  { id := c.cart.id
    userId := c.cart.userId
    sessionKey := c.sessionKey
    currency := c.cart.currency
    status := c.cart.status
    subtotal := (items.map lineTotal).sum
    items := items.map cartItemView }

/-! ### Carts -/

/-- A row of a table by the order of a column that the model leaves out. -/
def firstBy {ρ : Type} [Keyed ρ] (rank : ℕ → ℕ) (rows : List ρ) : Option ρ :=
  (rows.insertionSort fun a b => rank (key a) ≤ rank (key b)).head?

namespace CartRepository

def findActive (rank : ℕ → ℕ) (p : Cart → Bool) (d : CartDesk) : Option IncludedCart :=
  (firstBy rank (d.shop.carts.rows.filter fun c => p c && c.status == .active && !c.deleted)).map
    (cartInclude d)

def findActiveByUser (userId : ℕ) : CartProg (Option IncludedCart) :=
  query (.own (.findActiveByUser userId)) fun i d =>
    findActive i.rank (fun c => c.userId == some userId) d

def findActiveBySession (sessionKey : String) : CartProg (Option IncludedCart) :=
  query (.own (.findActiveBySession sessionKey)) fun i d =>
    findActive i.rank (fun c => d.own.sessionKeys c.id == some sessionKey) d

def insertCart (userId : Option ℕ) (sessionKey : Option String) (d : CartDesk) :
    Except Failure (IncludedCart × CartDesk) := do
  check (userId.all d.shop.users.contains && sessionKey.all (fitsVarchar 64)) "carts"
  let n := d.shop.carts.next
  let carts := d.shop.carts.insert fun n => { id := n, userId }
  let sessionKeys := Function.update d.own.sessionKeys n sessionKey
  let d := { d with shop := { d.shop with carts }, own := { d.own with sessionKeys } }
  return (cartInclude d { id := n, userId }, d)

def create (userId : Option ℕ) (sessionKey : Option String) : CartProg IncludedCart :=
  atomic (.own (.createCart userId sessionKey)) fun _ d => insertCart userId sessionKey d

/-- The checks of a written row of `cart_items`: its amounts, and one row for a variant. -/
def checkItem (item : CartItem) (d : CartDesk) : Except Failure Unit := do
  check (fitsInt4 item.quantity && decide (0 < item.quantity)) "cart_items_quantity_check"
  check (decide (0 ≤ item.unitPrice ∧ item.unitPrice < 10000000000)) "cart_items_unit_price_check"
  check (d.shop.cartItems.rows.all fun i => i.id == item.id || i.deleted || i.cartId != item.cartId ||
    i.variantId != item.variantId) "uq_cart_items_cart_variant_active"

def withCartItems (cartItems : Table CartItem) (d : CartDesk) : CartDesk :=
  { d with shop := { d.shop with cartItems } }

/-- The `UPDATE` of `upsertItem`; there may be no such row. -/
def restoreItem (id : ℕ) (quantity : ℤ) (unitPrice : ℚ) (d : CartDesk) :
    Except Failure (Unit × CartDesk) := do
  let g := fun i : CartItem => { i with quantity, unitPrice, deleted := false }
  (d.shop.cartItems.find? id).elim (.ok ()) fun i => checkItem (g i) d
  return ((), withCartItems (d.shop.cartItems.update id g) d)

def insertItem (cartId variantId : ℕ) (quantity : ℤ) (unitPrice : ℚ) (d : CartDesk) :
    Except Failure (Unit × CartDesk) := do
  let sku := ((d.own.productVariants variantId).map ProductVariant.sku).getD ""
  let mk := fun n => ({ id := n, cartId, variantId, sku, quantity, unitPrice } : CartItem)
  check ((d.shop.carts.find? cartId).isSome && (d.own.productVariants variantId).isSome)
    "cart_items_fkey"
  checkItem (mk d.shop.cartItems.next) d
  return ((), withCartItems (d.shop.cartItems.insert mk) d)

def upsertItem (cartId variantId : ℕ) (quantity : ℤ) (unitPrice : ℚ) : CartProg Unit := do
  let existing ← query (.own (.findItem cartId variantId)) fun i d =>
    firstBy i.rank (d.shop.cartItems.rows.filter fun r => r.cartId == cartId && r.variantId == variantId)
  match existing with
  | some item => atomic (.own (.restoreItem item.id)) fun _ d => restoreItem item.id quantity unitPrice d
  | none => atomic (.own (.insertItem cartId variantId)) fun _ d =>
      insertItem cartId variantId quantity unitPrice d

def updateItemQty (itemId : ℕ) (quantity : ℤ) : CartProg Unit :=
  atomic (.own (.updateItemQty itemId)) fun _ d => do
    let g := fun i : CartItem => { i with quantity }
    let item ← existing d.shop.cartItems itemId
    checkItem (g item) d
    return ((), withCartItems (d.shop.cartItems.update itemId g) d)

def softDeleteItem (itemId : ℕ) : CartProg Unit :=
  atomic (.own (.softDeleteItem itemId)) fun _ d => do
    let _ ← existing d.shop.cartItems itemId
    return ((), withCartItems (d.shop.cartItems.update itemId fun i => { i with deleted := true }) d)

end CartRepository

namespace CartService

def getOrCreate (userId : Option ℕ) (sessionKey : Option String) : CartProg CartView := do
  Prog.ensure (userId.isSome = true ∨ (truthy sessionKey).isSome = true)
    (.throwApp .badRequest "user or sessionKey required for cart" 400)
  Desk.getOrSet (cacheKey userId sessionKey) do
    let found ← userId.elim (CartRepository.findActiveBySession (sessionKey.getD ""))
      CartRepository.findActiveByUser
    match found with
    | some cart => pure (mapCart cart)
    | none => do
      let cart ← CartRepository.create userId sessionKey
      pure (mapCart cart)

def addItem (variantId : ℕ) (quantity : ℤ) (userId : Option ℕ) (sessionKey : Option String) :
    CartProg CartView := do
  let found ← query (.own (.findVariant variantId)) fun _ d =>
    (d.own.productVariants variantId).filter fun v => !v.deleted && v.active
  let variant ← Prog.orThrow (.throwApp .notFound "Variant not found" 404) found
  let mapped ← getOrCreate userId sessionKey
  CartRepository.upsertItem mapped.id variantId quantity variant.salePrice
  Desk.cacheDel (cacheKey userId sessionKey)
  getOrCreate userId sessionKey

def updateItem (itemId : ℕ) (quantity : ℤ) (userId : Option ℕ) (sessionKey : Option String) :
    CartProg CartView := do
  let cart ← getOrCreate userId sessionKey
  Prog.ensure (cart.items.any (fun i => i.id == itemId) = true)
    (.throwApp .notFound "Cart item not found" 404)
  CartRepository.updateItemQty itemId quantity
  Desk.cacheDel (cacheKey userId sessionKey)
  getOrCreate userId sessionKey

def removeItem (itemId : ℕ) (userId : Option ℕ) (sessionKey : Option String) :
    CartProg CartView := do
  let cart ← getOrCreate userId sessionKey
  Prog.ensure (cart.items.any (fun i => i.id == itemId) = true)
    (.throwApp .notFound "Cart item not found" 404)
  CartRepository.softDeleteItem itemId
  Desk.cacheDel (cacheKey userId sessionKey)
  getOrCreate userId sessionKey

end CartService

/-! ### Wishlists -/

namespace WishlistRepository

def getOrCreate (userId : ℕ) : CartProg (Wishlist × List WishlistItem) := do
  let existing ← query (.own (.findWishlist userId)) fun i d =>
    (firstBy i.rank (d.own.wishlists.rows.filter fun w => w.userId == userId && !w.deleted && w.active)).map
      fun w => (w, d.own.wishlistItems.rows.filter fun x => x.wishlistId == w.id && x.deletedAt.isNone)
  match existing with
  | some wishlist => pure wishlist
  | none => atomic (.own (.createWishlist userId)) fun _ d => do
      check (d.shop.users.contains userId) "wishlists_user_id_fkey"
      let wishlist : Wishlist := { id := d.own.wishlists.next, userId }
      let wishlists := d.own.wishlists.insert fun n => { id := n, userId }
      let items := d.own.wishlistItems.rows.filter fun x => x.wishlistId == wishlist.id
      return ((wishlist, items), { d with own := { d.own with wishlists } })

def withWishlistItems (wishlistItems : Table WishlistItem) (d : CartDesk) : CartDesk :=
  { d with own := { d.own with wishlistItems } }

def checkItem (item : WishlistItem) (d : CartDesk) : Except Failure Unit :=
  check (d.own.wishlistItems.rows.all fun x => x.id == item.id || x.deletedAt.isSome ||
    x.wishlistId != item.wishlistId || x.variantId != item.variantId)
    "uq_wishlist_items_wishlist_variant_active"

def restoreItem (id : ℕ) (d : CartDesk) : Except Failure (Unit × CartDesk) := do
  let g := fun x : WishlistItem => { x with deletedAt := none, active := true }
  (d.own.wishlistItems.find? id).elim (.ok ()) fun x => checkItem (g x) d
  return ((), withWishlistItems (d.own.wishlistItems.update id g) d)

def insertItem (wishlistId variantId : ℕ) (d : CartDesk) : Except Failure (Unit × CartDesk) := do
  let sku := ((d.own.productVariants variantId).map ProductVariant.sku).getD ""
  let mk := fun n => ({ id := n, wishlistId, variantId, sku } : WishlistItem)
  check ((d.own.wishlists.find? wishlistId).isSome && (d.own.productVariants variantId).isSome)
    "wishlist_items_fkey"
  checkItem (mk d.own.wishlistItems.next) d
  return ((), withWishlistItems (d.own.wishlistItems.insert mk) d)

def addItem (wishlistId variantId : ℕ) : CartProg Unit := do
  let existing ← query (.own (.findWishlistItem wishlistId variantId)) fun i d =>
    firstBy i.rank (d.own.wishlistItems.rows.filter fun x =>
      x.wishlistId == wishlistId && x.variantId == variantId)
  match existing with
  | some item => atomic (.own (.restoreWishlistItem item.id)) fun _ d => restoreItem item.id d
  | none => atomic (.own (.insertWishlistItem wishlistId variantId)) fun _ d =>
      insertItem wishlistId variantId d

/-- By the id of the item alone. -/
def removeItem (itemId : ℕ) : CartProg Unit :=
  atomic (.own (.removeWishlistItem itemId)) fun i d => do
    let _ ← existing d.own.wishlistItems itemId
    return ((), withWishlistItems (d.own.wishlistItems.update itemId fun x =>
      { x with deletedAt := some i.now, active := false }) d)

end WishlistRepository

namespace OrdersService

structure WishlistView where
  id : ℕ
  name : String
  items : List (ℕ × ℕ × String)
deriving DecidableEq, Repr

def getWishlist (userId : ℕ) : CartProg WishlistView := do
  let wl ← WishlistRepository.getOrCreate userId
  pure ⟨wl.1.id, wl.1.name,
    (wl.2.filter fun x => x.deletedAt.isNone).map fun x => (x.id, x.variantId, x.sku)⟩

def addWishlistItem (userId variantId : ℕ) : CartProg WishlistView := do
  let wl ← WishlistRepository.getOrCreate userId
  WishlistRepository.addItem wl.1.id variantId
  getWishlist userId

/-- Nobody asks whose item it is. -/
def removeWishlistItem (userId itemId : ℕ) : CartProg WishlistView := do
  WishlistRepository.removeItem itemId
  getWishlist userId

end OrdersService

/-! ### Requests -/

/-- `checkout` with its cache call. -/
def CheckoutService.checkout (cfg : PaymentConfig) (token userId : ℕ) (dto : CheckoutDto) :
    CartProg CheckoutResult :=
  let onShop {α : Type} : ShopProg α → CartProg α := Desk.onShop (some (.user userId))
  LockService.withLock (.checkout userId) token do
    let found ← onShop (selectCart userId dto)
    let cart ← Prog.orThrow (.throwApp .badRequest "Cart is empty" 400)
      (found.filter fun c => !c.2.isEmpty)
    onShop (validateTenders userId dto)
    let result ← onShop (placeOrder cfg token userId dto cart.1 cart.2)
    Desk.cacheDel (.user userId)
    pure result

inductive CartRequest where
  | getOrCreate (userId : Option ℕ) (sessionKey : Option String)
  | addItem (variantId : ℕ) (quantity : ℤ) (userId : Option ℕ) (sessionKey : Option String)
  | updateItem (itemId : ℕ) (quantity : ℤ) (userId : Option ℕ) (sessionKey : Option String)
  | removeItem (itemId : ℕ) (userId : Option ℕ) (sessionKey : Option String)
  | getWishlist (userId : ℕ)
  | addWishlistItem (userId variantId : ℕ)
  | removeWishlistItem (userId itemId : ℕ)
  | checkout (cfg : PaymentConfig) (token userId : ℕ) (dto : CheckoutDto)
  | confirmPendingOrder (orderId : ℕ)

def CartRequest.prog : CartRequest → CartProg Unit
  | .getOrCreate userId sessionKey => do let _ ← CartService.getOrCreate userId sessionKey
  | .addItem variantId quantity userId sessionKey => do
    let _ ← CartService.addItem variantId quantity userId sessionKey
  | .updateItem itemId quantity userId sessionKey => do
    let _ ← CartService.updateItem itemId quantity userId sessionKey
  | .removeItem itemId userId sessionKey => do
    let _ ← CartService.removeItem itemId userId sessionKey
  | .getWishlist userId => do let _ ← OrdersService.getWishlist userId
  | .addWishlistItem userId variantId => do let _ ← OrdersService.addWishlistItem userId variantId
  | .removeWishlistItem userId itemId => do let _ ← OrdersService.removeWishlistItem userId itemId
  | .checkout cfg token userId dto => do let _ ← CheckoutService.checkout cfg token userId dto
  | .confirmPendingOrder orderId => Desk.onShop none (confirmPendingOrderAfterCapture orderId)

end ElectronicsCart.Orders
