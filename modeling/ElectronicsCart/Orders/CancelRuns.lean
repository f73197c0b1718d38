import ElectronicsCart.Inventory.ReleaseRuns
import ElectronicsCart.Orders.ReturnRuns
import ElectronicsCart.Orders.StatusEffects

/-!
# Cancellations that do not finish

`cancel` commits the status first and then releases the reservations of the order one by one.  A
release that fails leaves the order cancelled with active reservations, and `canCancel` refuses
every later call.  While a cancelled order has active reservations, the cancellation that wrote the
status owes their release; it pays as long as its calls go through.
-/

namespace ElectronicsCart.Orders

open Interleaving Relational Inventory

inductive CancelRequest where
  | cancel (token orderId userId : ℕ) (dto : CancelOrderDto) (isAdmin : Bool)
  /-- a release by an admin -/
  | release (token reservationId : ℕ)
deriving DecidableEq, Repr

/-- The order on whose behalf a request makes its calls. -/
def CancelRequest.caller : CancelRequest → Option ℕ
  | .cancel _ orderId _ _ _ => some orderId
  | .release _ _ => none

def CancelRequest.body : CancelRequest → ShopProg Unit
  | .cancel token orderId userId dto isAdmin => Orders.cancel token orderId userId dto isAdmin
  | .release token reservationId => releaseReservation token reservationId

def CancelRequest.prog (r : CancelRequest) : Prog (Option ℕ × ShopCall) ShopInput Shop Failure Unit :=
  r.body.signed r.caller

/-- Requests that run side by side from state `s`. -/
def cancelPool (requests : List CancelRequest) (s : Shop) :
    Pool (Option ℕ × ShopCall) ShopInput Shop Failure Unit :=
  ⟨requests.map CancelRequest.prog, s⟩

def Released (orderId : ℕ) (s : Shop) : Prop := activeReservations orderId s = []

instance (orderId : ℕ) (s : Shop) : Decidable (Released orderId s) :=
  inferInstanceAs (Decidable (_ = _))

def Stranded (orderId : ℕ) (s : Shop) : Prop := Cancelled orderId s ∧ ¬ Released orderId s

instance (orderId : ℕ) (s : Shop) : Decidable (Stranded orderId s) :=
  inferInstanceAs (Decidable (_ ∧ _))

/-- A call of the loop over the reservations does what it is made for. -/
def goesThrough (l : ShopCall) (i : ShopInput) (s : Shop) : Bool :=
  match l with
  | .order (.findReservations _) => !i.fails
  | .stock (.findReservation id) =>
    !i.fails && (s.reservations.find? id).any fun r => r.status == .active && !r.deleted
  | .acquire (.stock w v) _ => !i.fails && (s.locks (.stock w v)).isNone
  | .stock (.releaseRows r rows) => !i.fails && (releaseRows r rows s).isOk
  | .stock _ => !i.fails
  | .release (.stock _ _) _ => !i.fails
  | _ => true

/-- As long as the order of a cancellation is stranded, the calls of its loop go through. -/
def Completes (l : Option ℕ × ShopCall) (i : ShopInput) (s : Shop) : Prop :=
  (l.1.all fun orderId => !decide (Stranded orderId s) || goesThrough l.2 i s) = true

instance (l : Option ℕ × ShopCall) (i : ShopInput) (s : Shop) : Decidable (Completes l i s) :=
  inferInstanceAs (Decidable (_ = _))

/-! ### What every call keeps -/

/-- What a reservation refers to exists, and its quantity fits a movement. -/
def Movable (r : StockReservation) (s : Shop) : Prop :=
  ((s.warehouses.find? r.warehouseId).isSome && s.variants.contains r.variantId &&
    fitsInt4 r.quantity && decide (r.quantity ≠ 0)) = true

def Storable (s : Shop) : Prop := ∀ r ∈ s.reservations.rows, Movable r s

instance (s : Shop) : Decidable (Storable s) :=
  inferInstanceAs (Decidable (∀ r ∈ s.reservations.rows, _ = _))

/-- Reservations are released only, and cancelled orders stay cancelled. -/
structure Shrinks (s s' : Shop) : Prop where
  warehouses : s'.warehouses = s.warehouses
  variants : s'.variants = s.variants
  reservations : ∀ r' ∈ s'.reservations.rows, ∃ r ∈ s.reservations.rows,
    r' = r ∨ r' = { r with status := .released }
  cancelled : ∀ id, Cancelled id s → Cancelled id s'

theorem Shrinks.of_eq {s s' : Shop} (hw : s'.warehouses = s.warehouses)
    (hv : s'.variants = s.variants) (hr : s'.reservations = s.reservations)
    (ho : s'.orders = s.orders) : Shrinks s s' := by
  refine ⟨hw, hv, fun r hmem => ⟨r, hr ▸ hmem, .inl rfl⟩, fun id hc => ?_⟩
  rw [Cancelled, ho]
  exact hc

theorem Shrinks.trans {a b c : Shop} (h : Shrinks a b) (h' : Shrinks b c) : Shrinks a c := by
  refine ⟨h'.warehouses.trans h.warehouses, h'.variants.trans h.variants, fun r'' hr'' => ?_,
    fun id hc => h'.cancelled id (h.cancelled id hc)⟩
  obtain ⟨r', hr', hcase'⟩ := h'.reservations r'' hr''
  obtain ⟨r, hr, hcase⟩ := h.reservations r' hr'
  refine ⟨r, hr, ?_⟩
  rcases hcase' with rfl | rfl <;> rcases hcase with rfl | rfl
  · exact .inl rfl
  · exact .inr rfl
  · exact .inr rfl
  · exact .inr rfl

section Facts

variable {s s' : Shop} {orderId : ℕ} {r : StockReservation}

theorem mem_activeReservations : r ∈ activeReservations orderId s ↔
    r ∈ s.reservations.rows ∧ r.orderId = some orderId ∧ r.status = .active ∧ r.deleted = false := by
  simp [activeReservations, and_assoc]

theorem Shrinks.active (h : Shrinks s s') (hr : r ∈ activeReservations orderId s') :
    r ∈ activeReservations orderId s := by
  rw [mem_activeReservations] at hr ⊢
  obtain ⟨hmem, hrest⟩ := hr
  obtain ⟨r₀, hr₀, rfl | rfl⟩ := h.reservations r hmem
  · exact ⟨hr₀, hrest⟩
  · exact ReservationStatus.noConfusion hrest.2.1

theorem Shrinks.released (h : Shrinks s s') (hs : Released orderId s) : Released orderId s' := by
  rw [Released, List.eq_nil_iff_forall_not_mem] at hs ⊢
  exact fun r hr => hs r (h.active hr)

theorem Shrinks.movable (h : Shrinks s s') (hs : Movable r s) : Movable r s' := by
  rw [Movable, h.warehouses, h.variants]
  exact hs

theorem Shrinks.storable (h : Shrinks s s') (hs : Storable s) : Storable s' := by
  intro r hr
  obtain ⟨r₀, hr₀, rfl | rfl⟩ := h.reservations r hr
  · exact h.movable (hs r hr₀)
  · exact h.movable (r := r₀) (hs r₀ hr₀)

end Facts

def shrinking {L : Type} : Discipline L ShopInput Shop where
  rely := Shrinks
  guar _ _ := Shrinks
  refl _ := .of_eq rfl rfl rfl rfl
  trans := Shrinks.trans

/-! ### Programs that only shrink -/

def Shrinking {α : Type} (p : ShopProg α) : Prop :=
  p.Every (fun _ _ _ => True) fun _ _ s s' => Shrinks s s'

section Programs

variable {α : Type}

theorem shrinking_query {l : ShopCall} {f : ShopInput → Shop → α} : Shrinking (query l f) :=
  every_query fun _ _ _ => .of_eq rfl rfl rfl rfl

theorem shrinking_atomic {l : ShopCall} {f : ShopInput → Shop → Except Failure (α × Shop)}
    (h : ∀ i s b s', f i s = .ok (b, s') → Shrinks s s') : Shrinking (atomic l f) :=
  every_atomic (fun _ _ _ => .of_eq rfl rfl rfl rfl) fun i s b s' _ _ hf => h i s b s' hf

theorem shrinking_withLock {key : ShopLock} {token : ℕ} {p : ShopProg α} (hp : Shrinking p) :
    Shrinking (LockService.withLock key token p) :=
  LockService.every_withLock (fun _ _ _ _ _ _ => ⟨.of_eq rfl rfl rfl rfl, .of_eq rfl rfl rfl rfl⟩) hp

theorem insertMovement_shrinks {mk : ℕ → InventoryMovement} {hmk : ∀ n, key (mk n) = n} {s s' : Shop}
    (h : insertMovement mk hmk s = .ok s') : Shrinks s s' := by
  simp only [insertMovement, bind_eq_ok, check_eq_ok, pure_eq_ok] at h
  obtain ⟨-, -, -, -, rfl⟩ := h
  exact .of_eq rfl rfl rfl rfl

theorem shrinking_createMovement (w v : ℕ) (type : MovementType) (n : ℤ) (ref : String) (id : ℕ)
    (notes : Option String) : Shrinking (createMovement w v type n ref id notes) := by
  refine shrinking_atomic fun i s b s' h => ?_
  simp only [bind_eq_ok, pure_eq_ok, Prod.mk.injEq] at h
  obtain ⟨t, ht, -, rfl⟩ := h
  exact insertMovement_shrinks ht

theorem releaseRows_shrinks {r : StockReservation} {rows : List InventoryRow} {s s' : Shop} {u : Unit}
    (h : releaseRows r rows s = .ok (u, s')) :
    Shrinks s s' ∧ ∀ a ∈ s'.reservations.rows, a.id = r.id → a.status = .released := by
  simp only [releaseRows, bind_eq_ok, existing_eq_ok, pure_eq_ok, Prod.mk.injEq, Prod.exists] at h
  obtain ⟨-, T, -, a, ha, -, rfl⟩ := h
  have hkey : ∀ a : StockReservation, key { a with status := .released } = key a := fun _ => rfl
  refine ⟨⟨rfl, rfl, fun b hb => ?_, fun _ hc => hc⟩, ?_⟩
  · obtain ⟨c, hc, rfl⟩ := (Table.mem_update hkey).mp hb
    refine ⟨c, hc, ?_⟩
    split
    · exact .inr rfl
    · exact .inl rfl
  · exact Table.forall_update hkey (fun _ _ _ _ => rfl) fun _ _ hne hid => (hne hid).elim

/-- What `releaseReservation` does with the rows it has read. -/
def giveBack (r : StockReservation) (rows : List InventoryRow) : ShopProg Unit :=
  (atomic (.stock (.releaseRows r rows)) fun _ s => releaseRows r rows s).bind fun _ =>
    createMovement r.warehouseId r.variantId .reservationRelease r.quantity "stock_reservation" r.id none

/-- The critical section of `releaseReservation`. -/
def releaseSection (r : StockReservation) : ShopProg Unit :=
  (query (.stock (.findRows r.warehouseId r.variantId)) fun i s =>
    findRows i.rank r.warehouseId r.variantId s.inventory).bind (giveBack r)

theorem shrinking_giveBack (r : StockReservation) (rows : List InventoryRow) :
    Shrinking (giveBack r rows) := by
  refine Prog.Every.bind ?_ fun _ => shrinking_createMovement _ _ _ _ _ _ _
  exact shrinking_atomic fun i s b s' h => (releaseRows_shrinks h).1

theorem shrinking_releaseSection (r : StockReservation) : Shrinking (releaseSection r) :=
  Prog.Every.bind shrinking_query fun rows => shrinking_giveBack r rows

theorem shrinking_releaseReservation (token id : ℕ) : Shrinking (releaseReservation token id) := by
  refine Prog.Every.bind shrinking_query fun found => Prog.Every.bind (Prog.every_orThrow _ _) fun r => ?_
  exact Prog.Every.bind (Prog.every_ensure _ _) fun _ => shrinking_withLock (shrinking_releaseSection r)

theorem calls_giveBack (r : StockReservation) (rows : List InventoryRow) :
    Calls quiet (giveBack r rows) := by
  refine Calls.bind (.atomic rfl fun i s b s' h => .inl ?_) fun _ => calls_createMovement _ _ _ _ _ _ _
  simp only [releaseRows, bind_eq_ok, existing_eq_ok, pure_eq_ok, Prod.mk.injEq, Prod.exists] at h
  obtain ⟨-, T, -, -, -, -, rfl⟩ := h
  exact ⟨rfl, rfl, rfl, rfl, rfl⟩

theorem calls_releaseSection (r : StockReservation) : Calls quiet (releaseSection r) :=
  Calls.bind (.query rfl) fun rows => calls_giveBack r rows

theorem shrinking_releaseEach (token : ℕ) (rs : List StockReservation) :
    Shrinking (releaseEach token rs) := by
  induction rs with
  | nil => exact Prog.every_done _
  | cons r rs ih => exact Prog.Every.bind (shrinking_releaseReservation token r.id) fun _ => ih

theorem transitionOrder_shrinks {orderId now : ℕ} {before : OrderStatus} {note : String} {u : Unit}
    {s s' : Shop} (h : transitionOrder orderId before .cancelled note now s = .ok (u, s')) :
    Shrinks s s' ∧ ∀ id, Cancelled id s' → id = orderId ∨ Cancelled id s := by
  have hkey := key_setStatus .cancelled now
  simp only [transitionOrder, bind_eq_ok, existing_eq_ok, pure_eq_ok, Prod.mk.injEq] at h
  obtain ⟨o, ho, -, hs'⟩ := h
  have horders : s'.orders = s.orders.update orderId (setStatus .cancelled now) hkey := by rw [← hs']
  have hother : ∀ id, id ≠ orderId → (Cancelled id s' ↔ Cancelled id s) := by
    intro id hid
    rw [Cancelled, Cancelled, horders, Table.find?_update_ne hkey hid]
  refine ⟨⟨by rw [← hs'], by rw [← hs'], fun r hr => ⟨r, ?_, .inl rfl⟩, fun id hc => ?_⟩, fun id hc => ?_⟩
  · rw [← hs'] at hr
    exact hr
  · by_cases hid : id = orderId
    · rw [cancelled_iff, horders, hid]
      exact ⟨_, Table.find?_update_self hkey ho, rfl⟩
    · exact (hother id hid).mpr hc
  · by_cases hid : id = orderId
    · exact .inl hid
    · exact .inr ((hother id hid).mp hc)

end Programs

/-! ### The loop over the reservations -/

def cancelWorld (caller : Option ℕ) : World ShopCall ShopInput Shop :=
  ⟨fun l i s => Completes (caller, l) i s, Storable⟩

theorem calm_of_quiet {α : Type} {p : ShopProg α} {caller : Option ℕ} {orderId : ℕ}
    (hp : Shrinking p) (hq : Calls quiet p) :
    p.Calm (cancelWorld caller) shrinking (Stranded orderId) (Released orderId) := by
  refine Prog.Every.imp (fun _ _ _ _ => trivial) ?_ (hp.and hq)
  rintro l i t t' ⟨-, hinv⟩ ⟨hsh, hl, he⟩
  refine ⟨hsh.storable hinv, hsh, fun hd => ⟨?_, fun h => hd.2 (hsh.released h)⟩, hsh.released⟩
  have hc := hd.1
  rw [Cancelled, (he.same hl).orders] at hc
  exact hc

/-- The order is cancelled and no other reservation of it is active. -/
def Left (orderId : ℕ) (rs : List StockReservation) (s : Shop) : Prop :=
  Cancelled orderId s ∧ ∀ r ∈ activeReservations orderId s, r ∈ rs

/-- All of it is released, or the call went through and left these reservations. -/
def LeftAfter (orderId : ℕ) (rs : List StockReservation) (r : Except Failure Unit) (s : Shop) : Prop :=
  Released orderId s ∨ r = .ok () ∧ Left orderId rs s

abbrev LoopHolds {α : Type} (orderId : ℕ) (Q : Except Failure α → Shop → Prop) (p : ShopProg α)
    (s : Shop) : Prop :=
  Holds (cancelWorld (some orderId)) shrinking shrinking Q p s

section Loop

variable {orderId token : ℕ} {s t : Shop} {rs : List StockReservation}

theorem Shrinks.left (h : Shrinks s t) (hs : Left orderId rs s) : Left orderId rs t :=
  ⟨h.cancelled _ hs.1, fun r hr => hs.2 r (h.active hr)⟩

theorem Shrinks.leftAfter {r : Except Failure Unit} (h : Shrinks s t)
    (hs : LeftAfter orderId rs r s) : LeftAfter orderId rs r t :=
  hs.imp h.released fun hr => ⟨hr.1, h.left hr.2⟩

theorem left_nil : Left orderId [] s → Released orderId s :=
  fun h => List.eq_nil_iff_forall_not_mem.mpr fun r hr => List.not_mem_nil (h.2 r hr)

theorem through {l : ShopCall} {i : ShopInput} (ho : (cancelWorld (some orderId)).ok l i s)
    (hc : Cancelled orderId s) (hn : ¬ Released orderId s) : goesThrough l i s = true := by
  have hst : Stranded orderId s := ⟨hc, hn⟩
  simpa [cancelWorld, Completes, hst] using ho

theorem createMovement_left {r : StockReservation} (hm : Movable r s) (hl : Left orderId rs s) :
    LoopHolds orderId (LeftAfter orderId rs) (createMovement r.warehouseId r.variantId
      .reservationRelease r.quantity "stock_reservation" r.id none) s := by
  refine holds_atomic fun t ht _ i ho => ⟨.of_eq rfl rfl rfl rfl, fun e t' he ht' _ => ?_, ?_⟩
  · by_cases hn : Released orderId t
    · exact .inl (ht'.released hn)
    have hfails : i.fails = false := by simpa [goesThrough] using through ho (ht.left hl).1 hn
    have hmt := ht.movable hm
    simp only [Movable, Bool.and_eq_true, decide_eq_true_eq, List.contains_iff_mem] at hmt
    rcases he with he | he
    · rw [hfails] at he
      cases he
    · simp [insertMovement, check, demand, hmt, bind, Except.bind, pure, Except.pure] at he
  · intro _ u _ hu
    simp only [bind_eq_ok, pure_eq_ok, Prod.mk.injEq] at hu
    obtain ⟨v, hv, -, rfl⟩ := hu
    have hsh := insertMovement_shrinks hv
    exact ⟨hsh.storable ‹_›, hsh, fun t' ht' _ => .inr ⟨rfl, (ht.trans (hsh.trans ht')).left hl⟩⟩

theorem withStockLock_left {w v : ℕ} {fn : ShopProg Unit} (before : Shop → Prop)
    (hcalm : Shrinking fn) (hquiet : Calls quiet fn)
    (hstable : ∀ t t', Shrinks t t' → before t → before t')
    (hcancelled : ∀ t, before t → Cancelled orderId t)
    (hbody : ∀ t, before t → LoopHolds orderId (LeftAfter orderId rs) fn t) (hs : before s) :
    LoopHolds orderId (LeftAfter orderId rs) (LockService.withLock (.stock w v) token fn) s := by
  have hall : (LockService.withLock (.stock w v) token fn).Calm (cancelWorld (some orderId)) shrinking
      (Stranded orderId) (Released orderId) :=
    calm_of_quiet (shrinking_withLock hcalm) (.withLock rfl rfl hquiet)
  refine settle_atomicBind (fun _ _ h => h.released) (fun _ _ h => .inl h) hall fun t ht hi hn i ho => ?_
  have hbt := hstable s t ht hs
  have hgo : (!i.fails && (t.locks (.stock w v)).isNone) = true := through ho (hcancelled t hbt) hn
  simp only [Bool.and_eq_true, Bool.not_eq_true', Option.isNone_iff_eq_none] at hgo
  let u : Shop := { t with locks := Function.update t.locks (.stock w v) (some token) }
  have htu : Shrinks t u := .of_eq rfl rfl rfl rfl
  refine ⟨hgo.1, true, u, ?_, ?_⟩
  · have hfree : Lockable.locks ShopCall t (.stock w v) = none := hgo.2
    simp only [LockService.take, if_pos hfree]
    rfl
  refine Holds.ensureBind (fun _ => ?_) fun h => (h rfl).elim
  refine Holds.andFinally (Holds.mono ?_ (hbody u (hstable t u htu hbt))) (htu.storable hi)
  intro r x _ hq
  refine holds_atomic fun y hy hiy i' ho' => ⟨.of_eq rfl rfl rfl rfl, fun e z he hz _ => ?_, ?_⟩
  · rcases hy.leftAfter hq with hrel | ⟨-, hleft⟩
    · exact .inl (hz.released hrel)
    by_cases hn' : Released orderId y
    · exact .inl (hz.released hn')
    have hgo' : (!i'.fails) = true := through ho' hleft.1 hn'
    rw [Bool.not_eq_true'] at hgo'
    rcases he with he | he
    · rw [hgo'] at he
      cases he
    · cases he
  · intro _ z _ hz
    obtain ⟨-, rfl⟩ := Prod.mk.inj (Except.ok.inj hz)
    have hdrop : Shrinks y (LockService.drop ShopCall (.stock w v) token y) := by
      rcases LockService.drop_cases (L := ShopCall) (.stock w v) token y with ⟨-, hd⟩ | hd
      · rw [hd]
        exact .of_eq rfl rfl rfl rfl
      · rw [hd]
        exact .of_eq rfl rfl rfl rfl
    refine ⟨hdrop.storable hiy, hdrop, fun z' hz' _ z'' hz'' _ => ?_⟩
    exact (hy.trans (hdrop.trans (hz'.trans hz''))).leftAfter hq

theorem releaseSection_left {a r : StockReservation} (hid : a.id = r.id)
    (hs : Left orderId (r :: rs) s) (hm : Movable a s) :
    LoopHolds orderId (LeftAfter orderId rs) (releaseSection a) s := by
  have hcalm : (releaseSection a).Calm (cancelWorld (some orderId)) shrinking (Stranded orderId)
      (Released orderId) := calm_of_quiet (shrinking_releaseSection a) (calls_releaseSection a)
  refine settle_queryBind (fun _ _ h => h.released) (fun _ _ h => .inl h) hcalm
    fun t ht hi hn i ho => ?_
  have hgo : (!i.fails) = true := through ho (ht.left hs).1 hn
  refine ⟨by simpa using hgo, ?_⟩
  have hcalm' : ∀ rows, (giveBack a rows).Calm (cancelWorld (some orderId)) shrinking
      (Stranded orderId) (Released orderId) :=
    fun rows => calm_of_quiet (shrinking_giveBack a rows) (calls_giveBack a rows)
  refine settle_atomicBind (fun _ _ h => h.released) (fun _ _ h => .inl h) (hcalm' _)
    fun u hu hiu hnu i' ho' => ?_
  have hsu : Shrinks s u := ht.trans hu
  have hgo' : (!i'.fails && (releaseRows a _ u).isOk) = true := through ho' (hsu.left hs).1 hnu
  rw [Bool.and_eq_true, Bool.not_eq_true'] at hgo'
  cases hv : releaseRows a (findRows i.rank a.warehouseId a.variantId t.inventory) u with
  | error e =>
    rw [hv] at hgo'
    cases hgo'.2
  | ok v =>
    obtain ⟨hshrinks, hreleased⟩ := releaseRows_shrinks hv
    refine ⟨hgo'.1, v.1, v.2, rfl, ?_⟩
    have hleft : Left orderId rs v.2 := by
      have hall := (hsu.trans hshrinks).left hs
      refine ⟨hall.1, fun b hb => ?_⟩
      obtain ⟨hmem, -, hactive, -⟩ := mem_activeReservations.mp hb
      rcases List.mem_cons.mp (hall.2 b hb) with rfl | hrest
      · rw [hreleased b hmem hid.symm] at hactive
        cases hactive
      · exact hrest
    exact createMovement_left ((hsu.trans hshrinks).movable hm) hleft

theorem releaseReservation_left {r : StockReservation} (hs : Left orderId (r :: rs) s) :
    LoopHolds orderId (LeftAfter orderId rs) (releaseReservation token r.id) s := by
  have hcalm : (releaseReservation token r.id).Calm (cancelWorld (some orderId)) shrinking
      (Stranded orderId) (Released orderId) :=
    calm_of_quiet (shrinking_releaseReservation token r.id) (calls_releaseReservation token r.id)
  refine settle_queryBind (fun _ _ h => h.released) (fun _ _ h => .inl h) hcalm
    fun t ht hi hn i ho => ?_
  have hleft : Left orderId (r :: rs) t := ht.left hs
  have hgo : (!i.fails && (t.reservations.find? r.id).any fun a => a.status == .active && !a.deleted)
      = true := through ho hleft.1 hn
  simp only [Bool.and_eq_true, Bool.not_eq_true', Option.any_eq_true, beq_iff_eq] at hgo
  obtain ⟨hfails, a, ha, hactive, hlive⟩ := hgo
  refine ⟨hfails, ?_⟩
  obtain ⟨hmem, hid⟩ := Table.find?_mem ha
  simp only [ha, Option.filter_some, hlive, Bool.not_false, if_true]
  refine Holds.orThrowBind (fun b hb => ?_) fun h => (Option.some_ne_none a h).elim
  obtain rfl : a = b := Option.some.inj hb
  refine Holds.ensureBind (fun _ => ?_) fun h => (h hactive).elim
  change LoopHolds orderId (LeftAfter orderId rs)
    (LockService.withLock (.stock a.warehouseId a.variantId) token (releaseSection a)) t
  refine withStockLock_left (fun t => Left orderId (r :: rs) t ∧ Movable a t)
    (shrinking_releaseSection a) (calls_releaseSection a)
    (fun t t' h hb => ⟨h.left hb.1, h.movable hb.2⟩) (fun t h => h.1.1)
    (fun t h => releaseSection_left hid h.1 h.2) ⟨hleft, hi a hmem⟩

theorem releaseEach_left (hs : Left orderId rs s) (hi : Storable s):
    LoopHolds orderId (fun _ => Released orderId) (releaseEach token rs) s := by
  induction rs generalizing s with
  | nil => exact fun t ht _ => ht.released (left_nil hs)
  | cons r rs ih =>
    refine Holds.bind (Holds.mono ?_ (releaseReservation_left hs)) hi
    rintro (e | a) t hit ht
    · rcases ht with ht | ⟨h, -⟩
      · exact ht
      · cases h
    · rcases ht with ht | ⟨-, ht⟩
      · have hcalm : (releaseEach token rs).Calm (cancelWorld (some orderId)) shrinking
            (Stranded orderId) (Released orderId) :=
          calm_of_quiet (shrinking_releaseEach token rs) (calls_releaseEach token rs)
        exact hcalm.holds (fun _ _ h => h.released) ht
      · exact ih ht hit

/-- What a cancellation does once the status is written. -/
def releaseActive (token orderId : ℕ) : ShopProg Unit :=
  (query (.order (.findReservations orderId)) fun i s =>
    (activeReservations orderId s).insertionSort fun a b => i.rank a.id ≤ i.rank b.id).bind
      (releaseEach token)

theorem calm_releaseActive (caller : Option ℕ) (x : ℕ) :
    (releaseActive token orderId).Calm (cancelWorld caller) shrinking (Stranded x) (Released x) := by
  refine calm_of_quiet (Prog.Every.bind shrinking_query fun rs => shrinking_releaseEach token rs) ?_
  exact Calls.bind (.query rfl) fun rs => calls_releaseEach token rs

theorem releaseActive_released (hs : Cancelled orderId s) :
    LoopHolds orderId (fun _ => Released orderId) (releaseActive token orderId) s := by
  refine settle_queryBind (fun _ _ h => h.released) (fun _ _ h => h) (calm_releaseActive _ orderId)
    fun t ht hi hn i ho => ?_
  have hc : Cancelled orderId t := ht.cancelled _ hs
  have hgo : (!i.fails) = true := through ho hc hn
  refine ⟨by simpa using hgo, releaseEach_left ⟨hc, fun r hr => ?_⟩ hi⟩
  exact (List.mem_insertionSort _).mpr hr

end Loop

/-! ### Requests -/

section Requests

variable {x orderId token : ℕ} {caller : Option ℕ}

theorem cancelOrder_incurs {order : Order} (hid : order.id = orderId) (dto : CancelOrderDto) :
    (cancelOrder token order dto).Incurs (cancelWorld (some orderId)) shrinking (Stranded x)
      (Released x) := by
  have hreason : Shrinking (setCancellationReason order.id dto.cancellationReasonId) := by
    refine shrinking_atomic fun i s b s' h => ?_
    simp only [bind_eq_ok, existing_eq_ok, check_eq_ok, pure_eq_ok, Prod.mk.injEq] at h
    obtain ⟨-, -, -, -, -, rfl⟩ := h
    exact .of_eq rfl rfl rfl rfl
  refine Prog.Calm.bind_incurs (calm_of_quiet hreason (calls_setCancellationReason _ _)) fun _ => ?_
  refine incurs_atomicBind (fun _ _ => .of_eq rfl rfl rfl rfl) fun i s b u _ hi hu => ?_
  obtain ⟨hsh, hcancelled⟩ := transitionOrder_shrinks hu
  refine ⟨hsh.storable hi, hsh, fun hd => ?_, (calm_releaseActive _ x).incurs⟩
  rcases hcancelled x hd.1 with hx | hold
  · rw [hid] at hx ⊢
    subst hx
    exact .inr (releaseActive_released hd.1)
  · exact .inl ⟨hold, fun h => hd.2 (hsh.released h)⟩

theorem withLock_incurs {key : ShopLock} {fn : ShopProg Unit}
    (h : fn.Incurs (cancelWorld caller) shrinking (Stranded x) (Released x)) :
    (LockService.withLock key token fn).Incurs (cancelWorld caller) shrinking (Stranded x)
      (Released x) := by
  have hset : ∀ (m : LockStore ShopLock) (s : Shop), Shrinks s (Lockable.setLocks ShopCall m s) :=
    fun m s => .of_eq rfl rfl rfl rfl
  have hacquire : (LockService.acquire key token : ShopProg Bool).Calm (cancelWorld caller) shrinking
      (Stranded x) (Released x) := by
    refine calm_of_quiet (shrinking_atomic fun i s b s' h => ?_) (.atomic rfl fun i s b s' h => .inl ?_)
    <;> rcases LockService.take_cases (Except.ok.inj h) with ⟨-, -, rfl⟩ | ⟨-, rfl⟩
    · exact hset _ s
    · exact .of_eq rfl rfl rfl rfl
    · exact ⟨rfl, rfl, rfl, rfl, rfl⟩
    · exact .refl _
  have hrelease : (LockService.release key token : ShopProg Unit).Calm (cancelWorld caller) shrinking
      (Stranded x) (Released x) := by
    refine calm_of_quiet (shrinking_atomic fun i s b s' h => ?_) (.atomic rfl fun i s b s' h => .inl ?_)
    <;> obtain ⟨-, rfl⟩ := Prod.mk.inj (Except.ok.inj h)
    <;> rcases LockService.drop_cases (L := ShopCall) key token s with ⟨-, hd⟩ | hd <;> rw [hd]
    · exact hset _ s
    · exact .of_eq rfl rfl rfl rfl
    · exact ⟨rfl, rfl, rfl, rfl, rfl⟩
    · exact .refl _
  refine hacquire.bind_incurs fun got => Prog.Calm.bind_incurs trivial fun _ => ?_
  exact h.andFinally (fun _ _ h => h.released) hrelease

theorem request_incurs (r : CancelRequest) :
    r.body.Incurs (cancelWorld r.caller) shrinking (Stranded x) (Released x) := by
  cases r with
  | cancel token orderId userId dto isAdmin =>
    refine withLock_incurs ?_
    simp only [requireOrder, findOrderWithItems, Prog.bind_eq, Prog.bind_assoc]
    refine incurs_queryBind (fun _ _ => .of_eq rfl rfl rfl rfl) fun i s _ _ => ?_
    cases hf : (s.orders.find? orderId).filter fun o => !o.deleted with
    | none => trivial
    | some order =>
      have hid : order.id = orderId := (Table.find?_mem (Option.filter_eq_some_iff.mp hf).1).2
      simp only [Option.map_some, Prog.orThrow, Prog.done_ok_bind]
      refine Prog.Calm.bind_incurs trivial fun _ => Prog.Calm.bind_incurs trivial fun _ => ?_
      exact cancelOrder_incurs hid dto
  | release token id =>
    exact (calm_of_quiet (shrinking_releaseReservation token id)
      (calls_releaseReservation token id)).incurs

end Requests

/-- When all cancellations and releases have ended, no cancelled order holds stock, if none did at
the start and the calls of every cancellation went through after its status was written. -/
theorem cancellations_complete (requests : List CancelRequest) (s : Shop)
    (sched : List (ℕ × ShopInput)) (hs : Storable s) (hstart : ∀ x, ¬ Stranded x s)
    (hok : (cancelPool requests s).Admits Completes sched)
    (hend : ((cancelPool requests s).run sched).ended = true) (x : ℕ) :
    ¬ Stranded x ((cancelPool requests s).run sched).state := by
  have hfirst : (cancelPool requests s).Answerable ⟨Completes, Storable⟩ shrinking (Stranded x)
      (Released x) := by
    refine ⟨hs, fun t ht => ?_, fun hd => (hstart x hd).elim⟩
    obtain ⟨r, -, rfl⟩ := List.mem_map.mp ht
    exact (request_incurs r).signed (fun _ _ _ h => h) (fun _ => Iff.rfl) (fun _ _ h => h)
      fun _ _ _ _ h => h
  have hlast := hfirst.run (fun _ _ _ _ h => h) hok
  intro hd
  exact hd.2 (hlast.settled hend hd)

theorem Stranded.of_eq {x : ℕ} {s t : Shop} (ho : t.orders = s.orders)
    (hr : t.reservations = s.reservations) (h : Stranded x s) : Stranded x t := by
  rw [Stranded, Cancelled, Released, activeReservations, ho, hr]
  exact h

theorem cancel_refused {ok : ShopCall → ShopInput → Shop → Prop} {s : Shop}
    {token orderId userId : ℕ} {dto : CancelOrderDto} {isAdmin : Bool} (hs : Cancelled orderId s) :
    Alone ok (fun r t => (∃ e, r = .error e) ∧ t.orders = s.orders ∧ t.reservations = s.reservations)
      (cancel token orderId userId dto isAdmin) s := by
  refine Alone.withLock_blind (fun e => ⟨⟨e, rfl⟩, rfl, rfl⟩) (fun _ _ _ h => h)
    (fun _ _ h => ⟨⟨_, rfl⟩, h.2⟩) fun m => ?_
  obtain ⟨o, ho, hst⟩ := cancelled_iff.mp hs
  simp only [Prog.bind_eq]
  refine requireOrder_alone (fun o' ho' _ => ?_) fun e => ⟨⟨e, rfl⟩, rfl, rfl⟩
  obtain rfl : o = o' := Option.some.inj (ho.symm.trans ho')
  refine Alone.ensureBind (fun _ => ?_) fun _ => ⟨⟨_, rfl⟩, rfl, rfl⟩
  refine Alone.ensureBind (fun hcan => ?_) fun _ => ⟨⟨_, rfl⟩, rfl, rfl⟩
  rw [hst] at hcan
  cases hcan

theorem not_stranded_of_live {s : Shop} (h : ∀ o ∈ s.orders.rows, o.status ≠ .cancelled) (x : ℕ) :
    ¬ Stranded x s := by
  rintro ⟨hc, -⟩
  obtain ⟨o, ho, hst⟩ := cancelled_iff.mp hc
  exact h o (Table.find?_mem ho).1 hst

def reservedOrder : Shop := { twoReservations with
  users := [1]
  carts := oneCart
  orders := pendingOrder
  reservations := twoReservations.reservations.mapRows fun r => { r with orderId := some 0 } }

/-- The user cancels the order, an admin releases its first reservation. -/
def cancelBesideRelease : List CancelRequest := [.cancel 0 0 1 {} false, .release 1 0]

/-- The release comes after the cancellation has ended. -/
theorem cancellations_complete_in_turn :
    ¬ Stranded 0 ((cancelPool cancelBesideRelease reservedOrder).run
      (turns (List.replicate 18 0 ++ [1]))).state :=
  cancellations_complete cancelBesideRelease reservedOrder (turns (List.replicate 18 0 ++ [1]))
    (by decide +kernel) (not_stranded_of_live (by decide +kernel)) (by decide +kernel)
    (by decide +kernel) 0

/-- The release comes between the query of the cancellation and its loop. -/
def releasedMeanwhile : List (ℕ × ShopInput) :=
  turns (List.replicate 5 0 ++ List.replicate 6 1 ++ List.replicate 2 0)

theorem cancelled_order_keeps_stock :
    let final := (cancelPool cancelBesideRelease reservedOrder).run releasedMeanwhile
    (∀ x, ¬ Stranded x reservedOrder) ∧ final.ended = true ∧
      final.threads[0]?.any Prog.hasThrown = true ∧ Stranded 0 final.state ∧
      ∀ token userId dto isAdmin r t, Pool.Ran (fun _ _ _ => True)
        (cancel token 0 userId dto isAdmin) final.state r t → Stranded 0 t := by
  intro final
  have hstranded : Stranded 0 final.state := by decide +kernel
  refine ⟨not_stranded_of_live (by decide +kernel), by decide +kernel, by decide +kernel, hstranded, ?_⟩
  intro token userId dto isAdmin r t hr
  obtain ⟨-, ho, hres⟩ := ran_alone (cancel_refused hstranded.1) hr
  exact hstranded.of_eq ho hres

end ElectronicsCart.Orders
