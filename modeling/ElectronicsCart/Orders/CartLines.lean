import ElectronicsCart.Orders.CartViews
import ElectronicsCart.Lib.Histories

/-!
# The cart as a map

The calls of `CartService` of one user with one active cart make of the rows of `cart_items` what an
abstract cart makes of a map from variants to lines, and every answer shows that map, as long as the
entry of the cart is deleted whenever its request deletes it.
-/

namespace ElectronicsCart.Orders

open Interleaving Relational

/-! ### The map -/

structure CartLine where
  itemId : ℕ
  quantity : ℤ
  unitPrice : ℚ
deriving DecidableEq, Repr

abbrev CartLines := ℕ → Option CartLine

inductive LineRequest where
  | getOrCreate (sessionKey : Option String)
  | addItem (variantId : ℕ) (quantity : ℤ) (sessionKey : Option String)
  | updateItem (itemId : ℕ) (quantity : ℤ) (sessionKey : Option String)
  | removeItem (itemId : ℕ) (sessionKey : Option String)

def LineRequest.prog (userId : ℕ) : LineRequest → CartProg CartView
  | .getOrCreate sessionKey => CartService.getOrCreate (some userId) sessionKey
  | .addItem variantId quantity sessionKey =>
    CartService.addItem variantId quantity (some userId) sessionKey
  | .updateItem itemId quantity sessionKey =>
    CartService.updateItem itemId quantity (some userId) sessionKey
  | .removeItem itemId sessionKey => CartService.removeItem itemId (some userId) sessionKey

/-- What a request makes of the lines, with the prices of the variants; a line keeps its item. -/
def Makes (price : ℕ → Option ℚ) (lines lines' : CartLines) : LineRequest → Prop
  | .getOrCreate _ => lines' = lines
  | .addItem v n _ => ∃ id p, price v = some p ∧ (∀ l, lines v = some l → l.itemId = id) ∧
      lines' = Function.update lines v (some ⟨id, n, p⟩)
  | .updateItem id n _ => ∃ v l, lines v = some l ∧ l.itemId = id ∧
      lines' = Function.update lines v (some { l with quantity := n })
  | .removeItem id _ => ∃ v l, lines v = some l ∧ l.itemId = id ∧
      lines' = Function.update lines v none

def CartItemView.line (i : CartItemView) : CartLine := ⟨i.id, i.quantity, i.unitPrice⟩

def CartView.lines (view : CartView) : CartLines := fun v =>
  (view.items.find? fun i => i.variantId == v).map CartItemView.line

structure ShowsLines (view : CartView) (lines : CartLines) : Prop where
  once : (view.items.map CartItemView.variantId).Nodup
  lines : view.lines = lines

/-- An abstract cart takes the requests and gives the answers.  A request that fails may have been
carried out before. -/
inductive CartFollows (price : ℕ → Option ℚ) (lines : CartLines) :
    List (LineRequest × Except Failure CartView) → CartLines → Prop
  | nil : CartFollows price lines [] lines
  | done {calls : List (LineRequest × Except Failure CartView)} {m m' : CartLines} {q : LineRequest}
      {view : CartView} : CartFollows price lines calls m → Makes price m m' q → ShowsLines view m' →
      CartFollows price lines (calls ++ [(q, .ok view)]) m'
  | failed {calls : List (LineRequest × Except Failure CartView)} {m m' : CartLines}
      {q : LineRequest} {e : Failure} : CartFollows price lines calls m →
      m' = m ∨ Makes price m m' q → CartFollows price lines (calls ++ [(q, .error e)]) m'

/-! ### The rows -/

def ActiveCart (userId : ℕ) (c : Cart) : Prop :=
  c.userId = some userId ∧ c.status = .active ∧ c.deleted = false

instance (userId : ℕ) (c : Cart) : Decidable (ActiveCart userId c) :=
  inferInstanceAs (Decidable (_ ∧ _))

def InCart (userId : ℕ) (d : CartDesk) (r : CartItem) : Prop :=
  ∃ c ∈ d.shop.carts.rows, ActiveCart userId c ∧ c.id = r.cartId

instance (userId : ℕ) (d : CartDesk) (r : CartItem) : Decidable (InCart userId d r) :=
  inferInstanceAs (Decidable (∃ c ∈ _, _))

def lineOf (r : CartItem) : CartLine := ⟨r.id, r.quantity, r.unitPrice⟩

def linesOf (userId : ℕ) (d : CartDesk) : CartLines := fun v =>
  (d.shop.cartItems.rows.find? fun r => decide (InCart userId d r) && !r.deleted && r.variantId == v).map
    lineOf

def salePriceOf (d : CartDesk) (v : ℕ) : Option ℚ := (d.own.productVariants v).map ProductVariant.salePrice

/-- The cart has one row for a variant, deleted or not. -/
def OneRowEach (userId : ℕ) (d : CartDesk) : Prop :=
  ∀ r ∈ d.shop.cartItems.rows, ∀ r' ∈ d.shop.cartItems.rows, InCart userId d r → InCart userId d r' →
    r.variantId = r'.variantId → r.id = r'.id

structure OneCart (userId : ℕ) (d : CartDesk) : Prop where
  single : ∀ a ∈ d.shop.carts.rows, ∀ b ∈ d.shop.carts.rows, ActiveCart userId a →
    ActiveCart userId b → a.id = b.id
  rows : OneRowEach userId d
  /-- a foreign key -/
  carts : ∀ r ∈ d.shop.cartItems.rows, ∃ c ∈ d.shop.carts.rows, c.id = r.cartId
  variants : ∀ r ∈ d.shop.cartItems.rows, InCart userId d r →
    ∃ v, d.own.productVariants r.variantId = some v ∧ v.deleted = false

/-- The view is what the tables say of the user's cart. -/
def CurrentView (userId : ℕ) (d : CartDesk) (view : CartView) : Prop :=
  ∃ c ∈ d.shop.carts.rows, ActiveCart userId c ∧ view = mapCart (cartInclude d c)

def CartCached (userId : ℕ) (d : CartDesk) : Prop :=
  ∀ view, (CartKey.user userId, view) ∈ d.cache → CurrentView userId d view

/-- The deletions reach Redis. -/
def Deleted (c : CartDeskCall) (i : ShopInput) (_ : CartDesk) : Prop :=
  match c with
  | .del _ => i.fails = false
  | _ => True

variable {userId : ℕ} {d d' : CartDesk} {view : CartView} {v : ℕ} {l : CartLine} {r : CartItem}

theorem inCart_congr {r' : CartItem} (hcarts : d'.shop.carts = d.shop.carts)
    (hr : r'.cartId = r.cartId) : InCart userId d' r' ↔ InCart userId d r := by
  rw [InCart, InCart, hcarts, hr]

theorem linesOf_eq_some (h : OneRowEach userId d) : linesOf userId d v = some l ↔
    ∃ r ∈ d.shop.cartItems.rows, InCart userId d r ∧ r.deleted = false ∧ r.variantId = v ∧ lineOf r = l := by
  constructor
  · intro hl
    obtain ⟨r, hr, rfl⟩ := Option.map_eq_some_iff.mp hl
    have hp := List.find?_some hr
    simp only [Bool.and_eq_true, decide_eq_true_eq, Bool.not_eq_true', beq_iff_eq] at hp
    exact ⟨r, List.mem_of_find?_eq_some hr, hp.1.1, hp.1.2, hp.2, rfl⟩
  · rintro ⟨r, hr, hin, hlive, rfl, rfl⟩
    cases hf : d.shop.cartItems.rows.find? fun r' =>
        decide (InCart userId d r') && !r'.deleted && r'.variantId == r.variantId with
    | none =>
      have hnone := List.find?_eq_none.mp hf r hr
      simp [hin, hlive] at hnone
    | some r' =>
      have hp := List.find?_some hf
      simp only [Bool.and_eq_true, decide_eq_true_eq, Bool.not_eq_true', beq_iff_eq] at hp
      have hr' := List.mem_of_find?_eq_some hf
      have hid := h r' hr' r hr hp.1.1 hin hp.2
      rw [linesOf, hf, Table.eq_of_key_eq hr' hr hid]
      rfl

/-! ### Views -/

theorem CurrentView.items (h : OneCart userId d) (hv : CurrentView userId d view) {i : CartItemView} :
    i ∈ view.items ↔ ∃ r ∈ d.shop.cartItems.rows, InCart userId d r ∧ r.deleted = false ∧
      cartItemView r = i := by
  obtain ⟨c, hc, hactive, rfl⟩ := hv
  simp only [mapCart, cartInclude, withItems, List.mem_map, List.mem_filter, Bool.and_eq_true,
    beq_iff_eq, Bool.not_eq_true']
  constructor
  · rintro ⟨_, ⟨_, ⟨⟨r, ⟨hr, hcart, hlive⟩, rfl⟩, -, -⟩, rfl⟩, rfl⟩
    exact ⟨r, hr, ⟨c, hc, hactive, hcart.symm⟩, hlive, rfl⟩
  · rintro ⟨r, hr, hin, hlive, rfl⟩
    obtain ⟨pv, hpv, hdeleted⟩ := h.variants r hr hin
    obtain ⟨c', hc', hactive', hcart⟩ := hin
    have hid := h.single c' hc' c hc hactive' hactive
    refine ⟨r, ⟨(r, some pv), ⟨⟨r, ⟨hr, hcart.symm.trans hid, hlive⟩, by rw [hpv]⟩, hlive, ?_⟩, rfl⟩, rfl⟩
    simp [hdeleted]

theorem lines_eq_some (h : (view.items.map CartItemView.variantId).Nodup) :
    view.lines v = some l ↔ ∃ i ∈ view.items, i.variantId = v ∧ i.line = l := by
  constructor
  · intro hl
    obtain ⟨i, hi, rfl⟩ := Option.map_eq_some_iff.mp hl
    exact ⟨i, List.mem_of_find?_eq_some hi, by simpa using List.find?_some hi, rfl⟩
  · rintro ⟨i, hi, rfl, rfl⟩
    cases hf : view.items.find? fun j => j.variantId == i.variantId with
    | none =>
      have hnone := List.find?_eq_none.mp hf i hi
      simp at hnone
    | some j =>
      have hvariant : j.variantId = i.variantId := by simpa using List.find?_some hf
      rw [CartView.lines, hf, List.inj_on_of_nodup_map h (List.mem_of_find?_eq_some hf) hi hvariant]
      rfl

theorem CurrentView.once (h : OneCart userId d) (hv : CurrentView userId d view) :
    (view.items.map CartItemView.variantId).Nodup := by
  obtain ⟨c, hc, hactive, rfl⟩ := hv
  simp only [mapCart, cartInclude, withItems, List.filter_map, List.map_map, List.filter_filter]
  apply List.Nodup.map_on _ (d.shop.cartItems.nodup.of_map.filter _)
  intro r hr r' hr' hsame
  have hin : ∀ x ∈ d.shop.cartItems.rows, x.cartId = c.id → InCart userId d x :=
    fun x _ hx => ⟨c, hc, hactive, hx.symm⟩
  simp only [List.mem_filter, Bool.and_eq_true, beq_iff_eq] at hr hr'
  obtain ⟨hr, -, hcart, -⟩ := hr
  obtain ⟨hr', -, hcart', -⟩ := hr'
  have hid := h.rows r hr r' hr' (hin r hr hcart) (hin r' hr' hcart') hsame
  exact Table.eq_of_key_eq hr hr' hid

theorem CurrentView.shows (h : OneCart userId d) (hv : CurrentView userId d view) :
    ShowsLines view (linesOf userId d) where
  once := hv.once h
  lines := by
    funext v
    apply Option.ext
    intro l
    rw [lines_eq_some (hv.once h), linesOf_eq_some h.rows]
    constructor
    · rintro ⟨i, hi, rfl, rfl⟩
      obtain ⟨r, hr, hin, hlive, rfl⟩ := (hv.items h).mp hi
      exact ⟨r, hr, hin, hlive, rfl, rfl⟩
    · rintro ⟨r, hr, hin, hlive, rfl, rfl⟩
      exact ⟨cartItemView r, (hv.items h).mpr ⟨r, hr, hin, hlive, rfl⟩, rfl, rfl⟩

theorem CurrentView.row (h : OneCart userId d) (hv : CurrentView userId d view) {id : ℕ}
    (hid : view.items.any (fun i => i.id == id) = true) :
    ∃ r ∈ d.shop.cartItems.rows, InCart userId d r ∧ r.deleted = false ∧ r.id = id := by
  obtain ⟨i, hi, hiid⟩ := List.any_eq_true.mp hid
  obtain ⟨r, hr, hin, hlive, rfl⟩ := (hv.items h).mp hi
  exact ⟨r, hr, hin, hlive, beq_iff_eq.mp hiid⟩

/-! ### CartWrite -/

section CartWrite

variable {T : Table CartItem}

theorem oneCart_update {g : CartItem → CartItem} (hg : ∀ r, key (g r) = key r) (h : OneCart userId d)
    (hcart : ∀ r, (g r).cartId = r.cartId) (hvariant : ∀ r, (g r).variantId = r.variantId) (id : ℕ) :
    OneCart userId (CartRepository.withCartItems (d.shop.cartItems.update id g hg) d) := by
  have hrow : ∀ r ∈ (d.shop.cartItems.update id g hg).rows, ∃ a ∈ d.shop.cartItems.rows,
      a.id = r.id ∧ a.cartId = r.cartId ∧ a.variantId = r.variantId := by
    intro r hr
    obtain ⟨a, ha, rfl⟩ := (Table.mem_update hg).mp hr
    refine ⟨a, ha, ?_⟩
    split
    · exact ⟨(hg a).symm, (hcart a).symm, (hvariant a).symm⟩
    · exact ⟨rfl, rfl, rfl⟩
  refine ⟨h.single, ?_, ?_, ?_⟩
  · intro r hr r' hr' hin hin' hsame
    obtain ⟨a, ha, hid, hac, hav⟩ := hrow r hr
    obtain ⟨b, hb, hid', hbc, hbv⟩ := hrow r' hr'
    have hina : InCart userId d a := (inCart_congr rfl hac.symm).mp hin
    have hinb : InCart userId d b := (inCart_congr rfl hbc.symm).mp hin'
    have hab := h.rows a ha b hb hina hinb (hav.trans (hsame.trans hbv.symm))
    exact hid.symm.trans (hab.trans hid')
  · intro r hr
    obtain ⟨a, ha, -, hac, -⟩ := hrow r hr
    obtain ⟨c, hc, hcid⟩ := h.carts a ha
    exact ⟨c, hc, hcid.trans hac⟩
  · intro r hr hin
    obtain ⟨a, ha, -, hac, hav⟩ := hrow r hr
    obtain ⟨pv, hpv, hdeleted⟩ := h.variants a ha ((inCart_congr rfl hac.symm).mp hin)
    exact ⟨pv, hav ▸ hpv, hdeleted⟩

theorem linesOf_update {g : CartItem → CartItem} (hg : ∀ r, key (g r) = key r) (h : OneCart userId d)
    (hcart : ∀ r, (g r).cartId = r.cartId) (hvariant : ∀ r, (g r).variantId = r.variantId)
    (hr : r ∈ d.shop.cartItems.rows) (hin : InCart userId d r) :
    linesOf userId (CartRepository.withCartItems (d.shop.cartItems.update r.id g hg) d) =
      Function.update (linesOf userId d) r.variantId
        (if (g r).deleted then none else some (lineOf (g r))) := by
  have h' := (oneCart_update hg h hcart hvariant r.id).rows
  funext v
  apply Option.ext
  intro l
  rw [linesOf_eq_some h']
  by_cases hv : v = r.variantId
  · subst hv
    rw [Function.update_self]
    have hmine : ∀ a ∈ d.shop.cartItems.rows, InCart userId d a → a.variantId = r.variantId → a = r :=
      fun a ha hina hsame => Table.eq_of_key_eq ha hr (h.rows a ha r hr hina hin hsame)
    constructor
    · rintro ⟨b, hb, hinb, hlive, hvariant', rfl⟩
      obtain ⟨a, ha, rfl⟩ := (Table.mem_update hg).mp hb
      by_cases hid : key a = r.id
      · obtain rfl : a = r := Table.eq_of_key_eq ha hr hid
        rw [if_pos hid] at hlive ⊢
        rw [if_neg (by simp [hlive])]
      · rw [if_neg hid] at hinb hvariant'
        exact absurd (congrArg key (hmine a ha hinb hvariant')) hid
    · intro hl
      split at hl
      · cases hl
      next hlive =>
        obtain rfl := Option.some.inj hl
        refine ⟨g r, (Table.mem_update hg).mpr ⟨r, hr, if_pos rfl⟩, ?_, ?_, hvariant r, rfl⟩
        · exact (inCart_congr rfl (hcart r)).mpr hin
        · simpa using hlive
  · rw [Function.update_of_ne hv, linesOf_eq_some h.rows]
    constructor
    · rintro ⟨b, hb, hinb, hlive, rfl, rfl⟩
      obtain ⟨a, ha, rfl⟩ := (Table.mem_update hg).mp hb
      by_cases hid : key a = r.id
      · rw [if_pos hid, hvariant, Table.eq_of_key_eq ha hr hid] at hv
        exact absurd rfl hv
      · rw [if_neg hid] at hinb hlive ⊢
        exact ⟨a, ha, hinb, hlive, rfl, rfl⟩
    · rintro ⟨a, ha, hina, hlive, rfl, rfl⟩
      have hid : key a ≠ r.id := by
        intro hid
        exact hv (by rw [Table.eq_of_key_eq ha hr hid])
      exact ⟨a, (Table.mem_update hg).mpr ⟨a, ha, if_neg hid⟩, hina, hlive, rfl, rfl⟩

structure NewRow (userId : ℕ) (d : CartDesk) (r : CartItem) : Prop where
  inCart : InCart userId d r
  alone : ∀ a ∈ d.shop.cartItems.rows, InCart userId d a → a.variantId ≠ r.variantId
  variant : ∃ pv, d.own.productVariants r.variantId = some pv ∧ pv.deleted = false

theorem oneCart_insert {mk : ℕ → CartItem} (hmk : ∀ n, key (mk n) = n) (h : OneCart userId d)
    (hnew : NewRow userId d (mk d.shop.cartItems.next)) :
    OneCart userId (CartRepository.withCartItems (d.shop.cartItems.insert mk hmk) d) := by
  refine ⟨h.single, ?_, ?_, ?_⟩
  · intro r hr r' hr' hin hin' hsame
    rcases (Table.mem_insert hmk).mp hr with hr | rfl <;>
      rcases (Table.mem_insert hmk).mp hr' with hr' | rfl
    · exact h.rows r hr r' hr' hin hin' hsame
    · exact absurd hsame (hnew.alone r hr hin)
    · exact absurd hsame.symm (hnew.alone r' hr' hin')
    · rfl
  · intro r hr
    rcases (Table.mem_insert hmk).mp hr with hr | rfl
    · exact h.carts r hr
    · obtain ⟨c, hc, -, hid⟩ := hnew.inCart
      exact ⟨c, hc, hid⟩
  · intro r hr hin
    rcases (Table.mem_insert hmk).mp hr with hr | rfl
    · exact h.variants r hr hin
    · exact hnew.variant

theorem linesOf_insert {mk : ℕ → CartItem} (hmk : ∀ n, key (mk n) = n) (h : OneCart userId d)
    (hnew : NewRow userId d (mk d.shop.cartItems.next))
    (hlive : (mk d.shop.cartItems.next).deleted = false) :
    linesOf userId (CartRepository.withCartItems (d.shop.cartItems.insert mk hmk) d) =
      Function.update (linesOf userId d) (mk d.shop.cartItems.next).variantId
        (some (lineOf (mk d.shop.cartItems.next))) := by
  have h' := (oneCart_insert hmk h hnew).rows
  funext v
  apply Option.ext
  intro l
  rw [linesOf_eq_some h']
  by_cases hv : v = (mk d.shop.cartItems.next).variantId
  · subst hv
    rw [Function.update_self, Option.some.injEq]
    constructor
    · rintro ⟨b, hb, hinb, -, hsame, rfl⟩
      rcases (Table.mem_insert hmk).mp hb with hb | rfl
      · exact absurd hsame (hnew.alone b hb hinb)
      · rfl
    · rintro rfl
      exact ⟨_, (Table.mem_insert hmk).mpr (.inr rfl), hnew.inCart, hlive, rfl, rfl⟩
  · rw [Function.update_of_ne hv, linesOf_eq_some h.rows]
    constructor
    · rintro ⟨b, hb, hinb, hlive, rfl, rfl⟩
      rcases (Table.mem_insert hmk).mp hb with hb | rfl
      · exact ⟨b, hb, hinb, hlive, rfl, rfl⟩
      · exact absurd rfl hv
    · rintro ⟨a, ha, hina, hlive, rfl, rfl⟩
      exact ⟨a, (Table.mem_insert hmk).mpr (.inl ha), hina, hlive, rfl, rfl⟩

end CartWrite

/-! ### Calls -/

structure CartRead (userId : ℕ) (d : CartDesk) (r : Except Failure CartView) (t : CartDesk) : Prop where
  one : OneCart userId t
  cached : CartCached userId t
  lines : linesOf userId t = linesOf userId d
  variants : t.own.productVariants = d.own.productVariants
  view : ∀ view, r = .ok view → CurrentView userId t view

theorem cartCached_put (h : CartCached userId d) (hv : CurrentView userId d view) :
    CartCached userId (d.put (.user userId) view) := by
  intro view' he
  rcases Desk.mem_put.mp he with he | ⟨he, -⟩
  · obtain rfl := (Prod.mk.inj he).2
    exact hv
  · exact h view' he

theorem findActive_current {rank : ℕ → ℕ} {cart : IncludedCart}
    (h : CartRepository.findActive rank (fun c => c.userId == some userId) d = some cart) :
    CurrentView userId d (mapCart cart) := by
  simp only [CartRepository.findActive, Option.map_eq_some_iff] at h
  obtain ⟨c, hc, rfl⟩ := h
  have hmem := firstBy_mem hc
  simp only [List.mem_filter, Bool.and_eq_true, beq_iff_eq, Bool.not_eq_true'] at hmem
  exact ⟨c, hmem.1, ⟨hmem.2.1.1, hmem.2.1.2, hmem.2.2⟩, rfl⟩

theorem firstBy_eq_none {ρ : Type} [Keyed ρ] {rank : ℕ → ℕ} {rows : List ρ}
    (h : firstBy rank rows = none) : rows = [] := by
  have hnil := List.head?_eq_none_iff.mp h
  exact List.perm_nil.mp (hnil ▸ (List.perm_insertionSort _ rows).symm)

theorem findActive_none {rank : ℕ → ℕ}
    (h : CartRepository.findActive rank (fun c => c.userId == some userId) d = none) :
    ∀ c ∈ d.shop.carts.rows, ¬ ActiveCart userId c := by
  have hnone := firstBy_eq_none (Option.map_eq_none_iff.mp h)
  intro c hc hactive
  have hmem := List.filter_eq_nil_iff.mp hnone c hc
  obtain ⟨huser, hstatus, hdeleted⟩ := hactive
  simp [huser, hstatus, hdeleted] at hmem

theorem linesOf_empty (h : ∀ r ∈ d.shop.cartItems.rows, ¬ InCart userId d r) :
    linesOf userId d = fun _ => none := by
  funext v
  rw [linesOf, Option.map_eq_none_iff, List.find?_eq_none]
  intro r hr
  simp [h r hr]

theorem insertCart_read {sessionKey : Option String} {cart : IncludedCart} (h : OneCart userId d)
    (hc : CartCached userId d) (hnone : ∀ c ∈ d.shop.carts.rows, ¬ ActiveCart userId c)
    (hd : CartRepository.insertCart (some userId) sessionKey d = .ok (cart, d')) :
    CartRead userId d (.ok (mapCart cart)) d' := by
  simp only [CartRepository.insertCart, bind_eq_ok, check_eq_ok, pure_eq_ok, Prod.mk.injEq] at hd
  obtain ⟨-, -, rfl, rfl⟩ := hd
  have hempty : ∀ r ∈ d.shop.cartItems.rows, ¬ InCart userId d r := by
    rintro r - ⟨c, hcm, hactive, -⟩
    exact hnone c hcm hactive
  let d' : CartDesk := { d with
    shop := { d.shop with carts := d.shop.carts.insert fun n => { id := n, userId := some userId } }
    own := { d.own with
      sessionKeys := Function.update d.own.sessionKeys d.shop.carts.next sessionKey } }
  have hnew : ∀ c ∈ d'.shop.carts.rows, ActiveCart userId c → c.id = d.shop.carts.next := by
    intro c hcm hactive
    rcases (Table.mem_insert _).mp hcm with hcm | rfl
    · exact absurd hactive (hnone c hcm)
    · rfl
  have hempty' : ∀ r ∈ d.shop.cartItems.rows, ¬ InCart userId d' r := by
    rintro r hr ⟨c, hcm, hactive, hid⟩
    obtain ⟨c', hcm', hid'⟩ := h.carts r hr
    have hlt : c'.id < d.shop.carts.next := d.shop.carts.fresh c' hcm'
    have hnext := hnew c hcm hactive
    omega
  refine ⟨⟨?_, ?_, ?_, ?_⟩, ?_, ?_, rfl, ?_⟩
  · intro a ha b hb haa hba
    exact (hnew a ha haa).trans (hnew b hb hba).symm
  · intro r hr _ _ hin
    exact absurd hin (hempty' r hr)
  · intro r hr
    obtain ⟨c', hcm', hid'⟩ := h.carts r hr
    exact ⟨c', (Table.mem_insert _).mpr (.inl hcm'), hid'⟩
  · intro r hr hin
    exact absurd hin (hempty' r hr)
  · intro view he
    obtain ⟨c, hcm, hactive, -⟩ := hc view he
    exact absurd hactive (hnone c hcm)
  · exact (linesOf_empty (d := d') hempty').trans (linesOf_empty hempty).symm
  · rintro view ⟨⟩
    exact ⟨_, (Table.mem_insert _).mpr (.inr rfl), ⟨rfl, rfl, rfl⟩, rfl⟩

theorem alone_getOrCreate (sessionKey : Option String) (h : OneCart userId d)
    (hc : CartCached userId d) :
    Alone Deleted (CartRead userId d) (CartService.getOrCreate (some userId) sessionKey) d := by
  have herr : ∀ e, CartRead userId d (.error e) d := fun e => ⟨h, hc, rfl, rfl, fun _ hr => nomatch hr⟩
  have hset : ∀ view t, CartRead userId d (.ok view) t → Alone Deleted (CartRead userId d)
      ((Desk.cacheSet (CartKey.user userId) view).bind fun _ => (pure view : CartProg CartView)) t := by
    intro view t ht
    apply Alone.callBind
    intro i _
    refine ⟨fun _ _ => ?_, fun e he => nomatch he⟩
    cases hf : i.fails with
    | true => exact Alone.done ht
    | false =>
      have hview := ht.view view rfl
      exact Alone.done ⟨⟨ht.one.single, ht.one.rows, ht.one.carts, ht.one.variants⟩,
        cartCached_put ht.cached hview, ht.lines, ht.variants, fun _ hr => Except.ok.inj hr ▸ hview⟩
  apply Alone.ensureBind _ fun _ => herr _
  intro _
  apply Alone.callBind
  intro i _
  refine ⟨fun hit hhit => ?_, fun e he => nomatch he⟩
  cases hit with
  | none =>
    simp only [Option.elim_some, Prog.bind_eq, Prog.bind_assoc]
    apply Alone.queryBind _ fun _ _ _ => herr _
    intro j _ _
    cases hfound : CartRepository.findActive j.rank (fun c => c.userId == some userId) d with
    | some cart =>
      have hview := findActive_current hfound
      exact hset _ _ ⟨h, hc, rfl, rfl, fun _ hr => Except.ok.inj hr ▸ hview⟩
    | none =>
      simp only [Prog.bind_assoc]
      apply Alone.atomicBind _ fun _ _ _ _ => herr _
      intro _ cart t _ _ ht
      exact hset _ _ (insertCart_read h hc (findActive_none hfound) ht)
  | some view =>
    have hentry : d.entry (CartKey.user userId) = some view := by
      cases hf : i.fails with
      | true => simp [hf] at hhit
      | false => simpa [hf, cacheKey] using hhit
    have hview := hc view (Desk.mem_of_entry hentry)
    exact Alone.done ⟨h, hc, rfl, rfl, fun _ hr => Except.ok.inj hr ▸ hview⟩

/-! ### CartWrite of a request -/

def CartWrite (userId : ℕ) (d : CartDesk) (M : CartLines → Prop) (r : Except Failure Unit) (t : CartDesk) :
    Prop :=
  OneCart userId t ∧ t.own.productVariants = d.own.productVariants ∧
    match r with
    | .ok _ => M (linesOf userId t)
    | .error _ => t = d

theorem alone_upsertItem {variantId : ℕ} {quantity : ℤ} {unitPrice : ℚ} (h : OneCart userId d)
    (hv : CurrentView userId d view)
    (hvariant : ∃ pv, d.own.productVariants variantId = some pv ∧ pv.deleted = false) :
    Alone Deleted (CartWrite userId d fun lines' => ∃ id,
        (∀ l, linesOf userId d variantId = some l → l.itemId = id) ∧
      lines' = Function.update (linesOf userId d) variantId (some ⟨id, quantity, unitPrice⟩))
      (CartRepository.upsertItem view.id variantId quantity unitPrice) d := by
  obtain ⟨c, hc, hactive, rfl⟩ := hv
  apply Alone.queryBind _ fun _ _ _ => ⟨h, rfl, rfl⟩
  intro i _ _
  have hin : ∀ r : CartItem, r.cartId = c.id → InCart userId d r := fun r hr => ⟨c, hc, hactive, hr.symm⟩
  cases hfound : firstBy i.rank (d.shop.cartItems.rows.filter fun r =>
      r.cartId == (mapCart (cartInclude d c)).id && r.variantId == variantId) with
  | some r =>
    have hmem := firstBy_mem hfound
    simp only [List.mem_filter, Bool.and_eq_true, beq_iff_eq] at hmem
    obtain ⟨hr, hcart, rfl⟩ := hmem
    apply Alone.atomic _ fun _ _ _ _ => ⟨h, rfl, rfl⟩
    intro _ _ t _ _ ht
    simp only [CartRepository.restoreItem, bind_eq_ok, pure_eq_ok, Prod.mk.injEq] at ht
    obtain ⟨-, -, -, rfl⟩ := ht
    let g : CartItem → CartItem := fun i => { i with quantity, unitPrice, deleted := false }
    refine ⟨oneCart_update (g := g) _ h (fun _ => rfl) (fun _ => rfl) _, rfl, r.id, ?_, ?_⟩
    · intro l hl
      obtain ⟨a, ha, hina, -, hsame, rfl⟩ := (linesOf_eq_some h.rows).mp hl
      exact h.rows a ha r hr hina (hin r hcart) hsame
    · exact linesOf_update (g := g) _ h (fun _ => rfl) (fun _ => rfl) hr (hin r hcart)
  | none =>
    have hnone := List.filter_eq_nil_iff.mp (firstBy_eq_none hfound)
    have hfree : ∀ a ∈ d.shop.cartItems.rows, InCart userId d a → a.variantId ≠ variantId := by
      rintro a ha ⟨c', hc', hactive', hid⟩ rfl
      have hcart := hid.symm.trans (h.single c' hc' c hc hactive' hactive)
      exact hnone a ha (by simp [hcart, mapCart, cartInclude])
    apply Alone.atomic _ fun _ _ _ _ => ⟨h, rfl, rfl⟩
    intro _ _ t _ _ ht
    simp only [CartRepository.insertItem, bind_eq_ok, pure_eq_ok, Prod.mk.injEq] at ht
    obtain ⟨-, -, -, -, -, rfl⟩ := ht
    refine ⟨oneCart_insert _ h ⟨hin _ rfl, hfree, hvariant⟩, rfl, d.shop.cartItems.next, ?_, ?_⟩
    · intro l hl
      obtain ⟨a, ha, hina, -, hsame, -⟩ := (linesOf_eq_some h.rows).mp hl
      exact absurd hsame (hfree a ha hina)
    · exact linesOf_insert _ h ⟨hin _ rfl, hfree, hvariant⟩ rfl

theorem alone_writeRow {g : CartItem → CartItem} (hg : ∀ r, key (g r) = key r) {c : CartDeskCall}
    {f : ShopInput → CartDesk → Except Failure (Unit × CartDesk)} (h : OneCart userId d)
    (hcart : ∀ r, (g r).cartId = r.cartId) (hvariant : ∀ r, (g r).variantId = r.variantId)
    (hr : r ∈ d.shop.cartItems.rows) (hin : InCart userId d r)
    (hf : ∀ i b t, f i d = .ok (b, t) →
      t = CartRepository.withCartItems (d.shop.cartItems.update r.id g hg) d) :
    Alone Deleted (CartWrite userId d fun lines' => lines' = Function.update (linesOf userId d) r.variantId
      (if (g r).deleted then none else some (lineOf (g r)))) (atomic c f) d := by
  apply Alone.atomic _ fun _ _ _ _ => ⟨h, rfl, rfl⟩
  intro i b t _ _ ht
  obtain rfl := hf i b t ht
  exact ⟨oneCart_update hg h hcart hvariant r.id, rfl, linesOf_update hg h hcart hvariant hr hin⟩

/-- How a call ends: it is answered by the cart that it made, or it failed before or after. -/
structure Served (userId : ℕ) (d : CartDesk) (M : CartLines → Prop) (r : Except Failure CartView)
    (t : CartDesk) : Prop where
  one : OneCart userId t
  cached : CartCached userId t
  variants : t.own.productVariants = d.own.productVariants
  done : ∀ view, r = .ok view → CurrentView userId t view ∧ M (linesOf userId t)
  failed : ∀ e, r = .error e → linesOf userId t = linesOf userId d ∨ M (linesOf userId t)

theorem served_failed {M : CartLines → Prop} (h : OneCart userId d) (hc : CartCached userId d)
    (e : Failure) : Served userId d M (.error e) d :=
  ⟨h, hc, rfl, (fun _ hr => nomatch hr), fun _ _ => .inl rfl⟩

theorem alone_finish {M : CartLines → Prop} {write : CartProg Unit} {sessionKey : Option String}
    (hc : CartCached userId d) (hw : Alone Deleted (CartWrite userId d M) write d) :
    Alone Deleted (Served userId d M)
      (write.bind fun _ => (Desk.cacheDel (cacheKey (some userId) sessionKey)).bind fun _ =>
        CartService.getOrCreate (some userId) sessionKey) d := by
  apply Alone.bind hw
  · rintro _ t ⟨ht, hvariants, hM⟩
    apply Alone.callBind
    intro i hi
    have hf : i.fails = false := hi
    refine ⟨fun _ _ => ?_, fun e he => nomatch he⟩
    simp only [hf]
    have hone : OneCart userId (t.drop (CartKey.user userId)) :=
      ⟨ht.single, ht.rows, ht.carts, ht.variants⟩
    have hempty : CartCached userId (t.drop (CartKey.user userId)) := by
      intro view he
      exact absurd rfl (Desk.mem_drop.mp he).2
    refine Alone.mono ?_ (alone_getOrCreate sessionKey hone hempty)
    intro r u hread
    have hlines : linesOf userId u = linesOf userId t := hread.lines
    refine ⟨hread.one, hread.cached, hread.variants.trans hvariants, ?_, ?_⟩
    · exact fun view hr => ⟨hread.view view hr, hlines ▸ hM⟩
    · exact fun _ _ => .inr (hlines ▸ hM)
  · rintro e t ⟨ht, -, rfl⟩
    exact served_failed ht hc e

theorem alone_afterRead {M : CartLines → Prop} {sessionKey : Option String}
    {k : CartView → CartProg CartView} (h : OneCart userId d) (hc : CartCached userId d)
    (hk : ∀ view t, OneCart userId t → CartCached userId t → CurrentView userId t view →
      linesOf userId t = linesOf userId d → t.own.productVariants = d.own.productVariants →
      Alone Deleted (Served userId t M) (k view) t) :
    Alone Deleted (Served userId d M)
      ((CartService.getOrCreate (some userId) sessionKey).bind k) d := by
  apply Alone.bind (alone_getOrCreate sessionKey h hc)
  · intro view t ht
    refine Alone.mono ?_ (hk view t ht.one ht.cached (ht.view view rfl) ht.lines ht.variants)
    intro r u hu
    exact ⟨hu.one, hu.cached, hu.variants.trans ht.variants, hu.done,
      fun e he => (hu.failed e he).imp_left fun hl => hl.trans ht.lines⟩
  · intro e t ht
    exact ⟨ht.one, ht.cached, ht.variants, (fun _ hr => nomatch hr), fun _ _ => .inl ht.lines⟩

theorem alone_writeItem {M : CartLines → Prop} {g : CartItem → CartItem}
    (hg : ∀ r, key (g r) = key r) {c : CartDeskCall}
    {f : ShopInput → CartDesk → Except Failure (Unit × CartDesk)} {itemId : ℕ}
    {sessionKey : Option String} {e : Failure} (h : OneCart userId d) (hc : CartCached userId d)
    (hcart : ∀ r, (g r).cartId = r.cartId) (hvariant : ∀ r, (g r).variantId = r.variantId)
    (hf : ∀ (t : CartDesk) i b u, f i t = .ok (b, u) →
      u = CartRepository.withCartItems (t.shop.cartItems.update itemId g hg) t)
    (hM : ∀ r : CartItem, linesOf userId d r.variantId = some (lineOf r) → r.id = itemId →
      r.deleted = false → M (Function.update (linesOf userId d) r.variantId
        (if (g r).deleted then none else some (lineOf (g r))))) :
    Alone Deleted (Served userId d M) ((CartService.getOrCreate (some userId) sessionKey).bind fun cart =>
      (Prog.ensure (cart.items.any (fun i => i.id == itemId) = true) e).bind fun _ =>
      (atomic c f).bind fun _ => (Desk.cacheDel (cacheKey (some userId) sessionKey)).bind fun _ =>
      CartService.getOrCreate (some userId) sessionKey) d := by
  apply alone_afterRead h hc
  intro view t ht hct hv hlines _
  apply Alone.ensureBind _ fun _ => served_failed ht hct _
  intro hitem
  obtain ⟨r, hr, hin, hlive, rfl⟩ := hv.row ht hitem
  have hwrite := alone_writeRow (c := c) hg ht hcart hvariant hr hin fun i b u => hf t i b u
  apply alone_finish hct
  refine Alone.mono ?_ hwrite
  rintro (e | _) u ⟨hu, hsame, hupdated⟩
  · exact ⟨hu, hsame, hupdated⟩
  · have hline : linesOf userId t r.variantId = some (lineOf r) :=
      (linesOf_eq_some ht.rows).mpr ⟨r, hr, hin, hlive, rfl, rfl⟩
    rw [hlines] at hline hupdated
    exact ⟨hu, hsame, hupdated ▸ hM r hline rfl hlive⟩

theorem alone_lines (q : LineRequest) (h : OneCart userId d) (hc : CartCached userId d) :
    Alone Deleted (Served userId d fun lines' => Makes (salePriceOf d) (linesOf userId d) lines' q)
      (q.prog userId) d := by
  cases q with
  | getOrCreate sessionKey =>
    refine Alone.mono ?_ (alone_getOrCreate sessionKey h hc)
    intro r t ht
    exact ⟨ht.one, ht.cached, ht.variants, fun view hr => ⟨ht.view view hr, ht.lines⟩,
      fun _ _ => .inl ht.lines⟩
  | addItem variantId quantity sessionKey =>
    apply Alone.queryBind _ fun _ _ _ => served_failed h hc _
    intro _ _ _
    apply Alone.orThrowBind _ fun _ => served_failed h hc _
    intro pv hpv
    obtain ⟨hpv, hlive⟩ := Option.filter_eq_some_iff.mp hpv
    simp only [Bool.and_eq_true, Bool.not_eq_true'] at hlive
    apply alone_afterRead h hc
    intro view t ht hct hv hlines hvariants
    apply alone_finish hct
    refine Alone.mono ?_ (alone_upsertItem ht hv ⟨pv, hvariants ▸ hpv, hlive.1⟩)
    rintro (e | _) u ⟨hu, hsame, hM⟩
    · exact ⟨hu, hsame, hM⟩
    · obtain ⟨id, hid, hM⟩ := hM
      rw [hlines] at hid hM
      exact ⟨hu, hsame, id, pv.salePrice, by rw [salePriceOf, hpv]; rfl, hid, hM⟩
  | updateItem itemId quantity sessionKey =>
    let g : CartItem → CartItem := fun i => { i with quantity }
    apply alone_writeItem (g := g) (fun _ => rfl) h hc (fun _ => rfl) fun _ => rfl
    · intro t _ b u hu
      simp only [bind_eq_ok, pure_eq_ok, Prod.mk.injEq] at hu
      obtain ⟨-, -, -, -, -, rfl⟩ := hu
      rfl
    · intro r hline hid hlive
      refine ⟨r.variantId, lineOf r, hline, hid, ?_⟩
      rw [if_neg (by simp [g, hlive])]
      rfl
  | removeItem itemId sessionKey =>
    let g : CartItem → CartItem := fun i => { i with deleted := true }
    apply alone_writeItem (g := g) (fun _ => rfl) h hc (fun _ => rfl) fun _ => rfl
    · intro t _ b u hu
      simp only [bind_eq_ok, pure_eq_ok, Prod.mk.injEq] at hu
      obtain ⟨-, -, -, rfl⟩ := hu
      rfl
    · intro r hline hid _
      exact ⟨r.variantId, lineOf r, hline, hid, by rw [if_pos rfl]⟩

/-! ### Runs -/

/-- The calls of the user make of the rows what the abstract cart makes of the map. -/
theorem cart_refines_map (userId : ℕ) (d d' : CartDesk)
    (calls : List (LineRequest × Except Failure CartView)) (hone : OneCart userId d)
    (hcached : CartCached userId d) (h : Pool.History Deleted (LineRequest.prog userId) d calls d') :
    OneRowEach userId d' ∧ CartFollows (salePriceOf d) (linesOf userId d) calls (linesOf userId d') := by
  have hall : OneCart userId d' ∧ CartCached userId d' ∧ d'.own.productVariants = d.own.productVariants ∧
      CartFollows (salePriceOf d) (linesOf userId d) calls (linesOf userId d') := by
    apply Pool.History.invariant h (P := fun calls t => OneCart userId t ∧ CartCached userId t ∧
      t.own.productVariants = d.own.productVariants ∧
      CartFollows (salePriceOf d) (linesOf userId d) calls (linesOf userId t)) ⟨hone, hcached, rfl, .nil⟩
    rintro calls t q r u ⟨ht, hct, hvariants, hfollows⟩ hr
    have hserved := ran_alone (alone_lines q ht hct) hr
    have hprice : salePriceOf t = salePriceOf d := by
      funext v
      rw [salePriceOf, salePriceOf, hvariants]
    refine ⟨hserved.one, hserved.cached, hserved.variants.trans hvariants, ?_⟩
    cases r with
    | ok view =>
      obtain ⟨hview, hmakes⟩ := hserved.done view rfl
      exact hfollows.done (hprice ▸ hmakes) (hview.shows hserved.one)
    | error e => exact hfollows.failed (hprice ▸ hserved.failed e rfl)
  exact ⟨hall.1.rows, hall.2.2.2⟩

/-! ### Two calls -/

/-- A customer without a cart, and a variant. -/
def emptyHanded : CartDesk where
  shop := { users := [7] }
  own := { productVariants := fun _ => some { sku := "SKU", salePrice := 100 } }

theorem oneCart_emptyHanded : OneCart 7 emptyHanded where
  single := fun _ ha => nomatch ha
  rows := fun _ hr => nomatch hr
  carts := fun _ hr => nomatch hr
  variants := fun _ hr => nomatch hr

/-- The inputs of a call none of whose calls fails. -/
def lineInputs : List ShopInput := List.replicate 11 { reply := {} }

@[irreducible] def afterLine (q : LineRequest) (d : CartDesk) : CartDesk :=
  (Pool.solo (q.prog 7) d lineInputs).state

@[irreducible] def answerOf (q : LineRequest) (d : CartDesk) : Except Failure CartView :=
  (Pool.solo (q.prog 7) d lineInputs).result?.getD (.error .database)

theorem ran_call {ok : CartDeskCall → ShopInput → CartDesk → Prop} {q : LineRequest} {d : CartDesk}
    (ha : Pool.SoloAdmits ok (q.prog 7) d lineInputs)
    (hr : (Pool.solo (q.prog 7) d lineInputs).result?.isSome = true) :
    Pool.Ran ok (q.prog 7) d (answerOf q d) (afterLine q d) := by
  obtain ⟨r, hr⟩ := Option.isSome_iff_exists.mp hr
  have hanswer : answerOf q d = r := by
    unfold answerOf
    rw [hr, Option.getD_some]
  have hafter : (Pool.solo (q.prog 7) d lineInputs).state = afterLine q d := by
    unfold afterLine
    rfl
  exact ⟨lineInputs, ha, hanswer ▸ hr, hafter⟩

instance (c : CartDeskCall) (i : ShopInput) (d : CartDesk) : Decidable (Deleted c i d) := by
  unfold Deleted
  split <;> infer_instance

def twoOfIt : LineRequest := .addItem 0 2 none

def threeOfIt : LineRequest := .updateItem 0 3 none

/-- Two of a variant, then three. -/
theorem cart_refines_map_changed :
    (answerOf threeOfIt (afterLine twoOfIt emptyHanded)).toOption.map (fun view => view.lines 0) =
        some (some ⟨0, 3, 100⟩) ∧
      OneRowEach 7 (afterLine threeOfIt (afterLine twoOfIt emptyHanded)) ∧
      CartFollows (salePriceOf emptyHanded) (linesOf 7 emptyHanded)
        [(twoOfIt, answerOf twoOfIt emptyHanded),
          (threeOfIt, answerOf threeOfIt (afterLine twoOfIt emptyHanded))]
        (linesOf 7 (afterLine threeOfIt (afterLine twoOfIt emptyHanded))) := by
  have hadd : Pool.Ran Deleted (twoOfIt.prog 7) emptyHanded _ (afterLine twoOfIt emptyHanded) :=
    ran_call (by decide +kernel) (by decide +kernel)
  have hchange : Pool.Ran Deleted (threeOfIt.prog 7) (afterLine twoOfIt emptyHanded) _
      (afterLine threeOfIt (afterLine twoOfIt emptyHanded)) :=
    ran_call (by decide +kernel) (by decide +kernel)
  have hhistory := Pool.History.snoc (Pool.History.snoc .nil hadd) hchange
  have hrefines := cart_refines_map 7 _ _ _ oneCart_emptyHanded (fun _ he => nomatch he) hhistory
  exact ⟨by decide +kernel, hrefines⟩

theorem follows_nil {price : ℕ → Option ℚ} {lines m : CartLines} (h : CartFollows price lines [] m) :
    m = lines := by
  generalize hcalls : ([] : List (LineRequest × Except Failure CartView)) = calls at h
  cases h with
  | nil => rfl
  | done => exact absurd hcalls (by simp)
  | failed => exact absurd hcalls (by simp)

theorem follows_single {price : ℕ → Option ℚ} {lines m : CartLines} {q : LineRequest}
    {view : CartView} (h : CartFollows price lines [(q, .ok view)] m) :
    Makes price lines m q ∧ ShowsLines view m := by
  generalize hcalls : [(q, Except.ok view)] = calls at h
  cases h with
  | nil => cases hcalls
  | done hbefore hmakes hshows =>
    obtain ⟨rfl, hlast⟩ := List.append_inj' (show [] ++ [_] = _ from hcalls) rfl
    obtain ⟨rfl, hview⟩ := Prod.mk.inj (List.singleton_inj.mp hlast)
    obtain rfl := Except.ok.inj hview
    exact ⟨follows_nil hbefore ▸ hmakes, hshows⟩
  | failed hbefore hm =>
    obtain ⟨rfl, hlast⟩ := List.append_inj' (show [] ++ [_] = _ from hcalls) rfl
    simp at hlast

/-- When the deletion of the entry fails the answer is the cart before the call. -/
theorem added_item_missing :
    ¬ ∀ (userId : ℕ) (d d' : CartDesk) (calls : List (LineRequest × Except Failure CartView)),
      OneCart userId d → CartCached userId d →
      Pool.History (fun _ _ _ => True) (LineRequest.prog userId) d calls d' →
      OneRowEach userId d' ∧ CartFollows (salePriceOf d) (linesOf userId d) calls (linesOf userId d') := by
  intro h
  let inputs : List ShopInput := lineInputs.take 7 ++ [{ fails := true, reply := {} }, { reply := {} }]
  let view : CartView := ⟨0, some 7, none, "INR", .active, 0, []⟩
  have hadd : Pool.Ran (fun _ _ _ => True) (twoOfIt.prog 7) emptyHanded (.ok view) _ :=
    ⟨inputs, Pool.soloAdmits_of_forall fun _ _ _ _ => trivial, by decide +kernel, rfl⟩
  obtain ⟨-, hfollows⟩ := h 7 _ _ _ oneCart_emptyHanded (fun _ he => nomatch he) (.snoc .nil hadd)
  obtain ⟨⟨id, p, -, -, hm⟩, hshows⟩ := follows_single hfollows
  have hnone : view.lines 0 = none := rfl
  rw [hshows.lines, hm] at hnone
  simp at hnone

end ElectronicsCart.Orders
