import ElectronicsCart.Orders.Carts

/-!
# What a checkout charges

`mapCart` leaves out a line whose variant was deleted, `checkout` takes every line of the cart.  The
lines and the amount of the draft order are compared with the view of the same cart.
-/

namespace ElectronicsCart.Orders

open Interleaving Relational Payments

structure BilledLine where
  variantId : ℕ
  sku : String
  quantity : ℤ
  unitPrice : ℚ
  lineTotal : ℚ
deriving DecidableEq

def CartItemView.billed (v : CartItemView) : BilledLine :=
  ⟨v.variantId, v.sku, v.quantity, v.unitPrice, v.lineTotal⟩

def OrderItem.billed (i : OrderItem) : BilledLine :=
  ⟨i.variantId, i.sku, i.quantity, i.unitPrice, i.lineTotal⟩

/-- The line that `create_draft_order` makes of a cart item. -/
def orderLine (i : CartItem) : BilledLine := ⟨i.variantId, i.sku, i.quantity, i.unitPrice, lineTotal i⟩

def storedItems (d : CartDesk) (c : Cart) : List CartItem := (withItems d.shop c).2

def ChargesView (d : CartDesk) (c : Cart) : Prop :=
  (storedItems d c).map orderLine = (mapCart (cartInclude d c)).items.map CartItemView.billed ∧
    amountOf (storedItems d c) = (mapCart (cartInclude d c)).subtotal

instance (d : CartDesk) (c : Cart) : Decidable (ChargesView d c) := inferInstanceAs (Decidable (_ ∧ _))

/-! ### The draft order -/

theorem insertOrderItems_rows {orderId : ℕ} {items : List CartItem} {s s' : Shop}
    (h : insertOrderItems orderId items s = .ok s') :
    ∃ added, s'.orderItems.rows = s.orderItems.rows ++ added ∧
      added.map OrderItem.billed = items.map orderLine ∧ ∀ r ∈ added, r.orderId = orderId := by
  induction items generalizing s with
  | nil =>
    cases h
    exact ⟨[], by simp, rfl, by simp⟩
  | cons i items ih =>
    simp only [insertOrderItems, bind_eq_ok, check_eq_ok] at h
    obtain ⟨-, -, h⟩ := h
    obtain ⟨added, hrows, hlines, hof⟩ := ih h
    refine ⟨⟨s.orderItems.next, orderId, i.variantId, i.sku, i.quantity, i.unitPrice, lineTotal i⟩ ::
      added, ?_, ?_, ?_⟩
    · rw [hrows]
      simp [Table.insert]
    · rw [List.map_cons, List.map_cons, hlines]
      rfl
    · exact List.forall_mem_cons.mpr ⟨rfl, hof⟩

theorem insertOrder_charges {cart : Cart} {items : List CartItem} {ctx : CheckoutContext}
    {now random : ℕ} {order : Order} {s s' : Shop}
    (h : insertOrder cart items ctx now random s = .ok (order, s')) :
    (order.subtotal = ctx.amount ∧ order.grandTotal = ctx.amount) ∧
      ∃ added, s'.orderItems.rows = s.orderItems.rows ++ added ∧
        added.map OrderItem.billed = items.map orderLine ∧ ∀ r ∈ added, r.orderId = order.id := by
  simp only [insertOrder, bind_eq_ok, check_eq_ok, pure_eq_ok, Prod.mk.injEq] at h
  obtain ⟨-, -, -, -, -, -, t, ht, rfl, rfl⟩ := h
  obtain ⟨added, hrows, hlines, hof⟩ := insertOrderItems_rows ht
  exact ⟨⟨rfl, rfl⟩, added, hrows, hlines, hof⟩

/-! ### The view -/

/-- The variant of the line was not deleted. -/
def isShown (d : CartDesk) (i : CartItem) : Bool :=
  (d.own.productVariants i.variantId).any fun v => !v.deleted

def shownItems (d : CartDesk) (c : Cart) : List CartItem := (storedItems d c).filter (isShown d)

theorem mapCart_items (d : CartDesk) (c : Cart) :
    (mapCart (cartInclude d c)).items = (shownItems d c).map cartItemView ∧
      (mapCart (cartInclude d c)).subtotal = amountOf (shownItems d c) := by
  have hitems : (((cartInclude d c).items.filter fun i =>
      !i.1.deleted && i.2.any fun v => !v.deleted).map Prod.fst) = shownItems d c := by
    have hkept : ∀ i ∈ storedItems d c, i.deleted = false := by
      intro i hi
      have hp := (List.mem_filter.mp hi).2
      rw [Bool.and_eq_true, Bool.not_eq_true'] at hp
      exact hp.2
    show (((storedItems d c).map fun i => (i, d.own.productVariants i.variantId)).filter _).map
      Prod.fst = _
    rw [List.filter_map, List.map_map, shownItems]
    refine (List.map_id _).trans (List.filter_congr fun i hi => ?_)
    simp [hkept i hi, isShown]
  constructor
  · rw [← hitems]
    rfl
  · rw [← hitems]
    rfl

theorem chargesView_iff (d : CartDesk) (c : Cart) :
    ChargesView d c ↔ ∀ i ∈ storedItems d c, isShown d i = true := by
  obtain ⟨hitems, hsubtotal⟩ := mapCart_items d c
  unfold ChargesView
  rw [hitems, hsubtotal, List.map_map]
  constructor
  · rintro ⟨hlines, -⟩
    have hlen := congrArg List.length hlines
    rw [List.length_map, List.length_map, shownItems] at hlen
    exact List.length_filter_eq_length_iff.mp hlen.symm
  · intro h
    have hall : shownItems d c = storedItems d c := List.filter_eq_self.mpr h
    rw [hall]
    exact ⟨rfl, rfl⟩

/-- A draft order has the lines of the cart and their sum, and these are what the view shows exactly
when no line's variant is deleted. -/
theorem checkout_charges_view_iff (d : CartDesk) (c : Cart) (userId : ℕ) (dto : CheckoutDto) :
    (∀ now random s order s',
      insertOrder c (storedItems d c) (contextOf userId dto c (storedItems d c)) now random s =
        .ok (order, s') →
      (order.subtotal = amountOf (storedItems d c) ∧ order.grandTotal = amountOf (storedItems d c)) ∧
        ∃ added, s'.orderItems.rows = s.orderItems.rows ++ added ∧
          added.map OrderItem.billed = (storedItems d c).map orderLine ∧
          ∀ r ∈ added, r.orderId = order.id) ∧
      (ChargesView d c ↔ ∀ i ∈ storedItems d c, isShown d i = true) :=
  ⟨fun _ _ _ _ _ h => insertOrder_charges h, chargesView_iff d c⟩

/-- A cart with one line whose variant was deleted afterwards. -/
def staleCart : Cart := { id := 0, userId := some 0 }

def staleDesk : CartDesk where
  shop := { cartItems := Table.empty.insert fun n =>
    { id := n, cartId := 0, variantId := 5, sku := "SKU", quantity := 2, unitPrice := 100 } }
  own := { productVariants := fun _ => some { sku := "SKU", salePrice := 100, deleted := true } }

/-- The view is empty and the checkout would charge 200. -/
theorem deleted_variant_charged :
    ¬ ChargesView staleDesk staleCart ∧ (mapCart (cartInclude staleDesk staleCart)).items = [] ∧
      (mapCart (cartInclude staleDesk staleCart)).subtotal = 0 ∧
      (storedItems staleDesk staleCart).map orderLine = [⟨5, "SKU", 2, 100, 200⟩] ∧
      amountOf (storedItems staleDesk staleCart) = 200 := by
  decide +kernel

end ElectronicsCart.Orders
