import ElectronicsCart.Access.Views

/-!
# Whose data a cached read gives back

The owner is checked only by the function that fills the cache.  A refused read is
refused again from any store the reads produce, unless somebody who passes the check
has filled the entry of its key before.
-/

namespace ElectronicsCart.Access

section Checks

variable (parseUuid : String → Option String) (db : Database)

/-- A read for a customer, of a row whose owner is set to another one. -/
def Read.Foreign : Read → Prop
  | order idOrNumber customerId =>
    ∃ o, findByIdOrNumber parseUuid db {} idOrNumber = .ok (some o) ∧
      deniedTo customerId o.customerId = true
  | payment paymentId actorId isAdmin =>
    isAdmin = false ∧ ∃ p, findPaymentById parseUuid db {} paymentId = .ok (some p) ∧
      notYours actorId p.customerId = true
  | orderPayments orderId actorId isAdmin =>
    isAdmin = false ∧ ∃ rows, findByOrderId parseUuid db {} orderId = .ok rows ∧
      ∃ p ∈ rows, notYours actorId p.customerId = true
  | claim id customerId =>
    ∃ c, findClaim parseUuid db {} 0 id = .ok (some c) ∧ deniedTo customerId c.customerId = true

/-- The database answers, the row is there and the check lets the caller through. -/
def Read.Admitted (q : QueryInput) : Read → Prop
  | order idOrNumber customerId =>
    ∃ o, findByIdOrNumber parseUuid db q idOrNumber = .ok (some o) ∧
      deniedTo customerId o.customerId = false
  | payment paymentId actorId isAdmin =>
    ∃ p, findPaymentById parseUuid db q paymentId = .ok (some p) ∧
      (isAdmin = true ∨ notYours actorId p.customerId = false)
  | orderPayments orderId actorId isAdmin =>
    ∃ rows, findByOrderId parseUuid db q orderId = .ok rows ∧
      (isAdmin = true ∨ ∀ p ∈ rows, notYours actorId p.customerId = false)
  | claim id customerId =>
    (∃ c, findClaim parseUuid db q 0 id = .ok (some c) ∧ deniedTo customerId c.customerId = false) ∧
      ∃ entries, timeline parseUuid db q id = .ok entries

end Checks

section Factories

variable {rt : Runtime} {parseUuid : String → Option String} {db : Database} {q : QueryInput}

theorem fetch_quiet {α : Type} {n : ℕ} {rows : Except Failure α} {a : α}
    (h : fetch q n rows = .ok a) : fetch {} n rows = .ok a := by
  cases hfail : q.fails n with
  | true => simp [fetch, hfail] at h
  | false =>
    simp only [fetch, hfail, Bool.false_eq_true, if_false] at h
    simp [fetch, h]

theorem findByIdOrNumber_quiet {idOrNumber : String} {o : Option OrderRow}
    (h : findByIdOrNumber parseUuid db q idOrNumber = .ok o) :
    findByIdOrNumber parseUuid db {} idOrNumber = .ok o := by
  unfold findByIdOrNumber at h ⊢
  by_cases hkey : matchesUuid (jsTrim idOrNumber) = true
  · simp only [hkey, if_true] at h ⊢
    exact fetch_quiet h
  · simp only [hkey, if_false, Bool.false_eq_true] at h ⊢
    exact fetch_quiet h

theorem forM_assertCanAccess (actorId : String) (rows : List PaymentRow) :
    rows.forM (fun p => assertCanAccess actorId p.customerId) =
      if ∀ p ∈ rows, notYours actorId p.customerId = false then .ok ()
      else .error (.throwApp .forbidden "Not your payment" 403) := by
  induction rows with
  | nil => simp [pure, Except.pure]
  | cons p rows ih =>
    cases hp : notYours actorId p.customerId with
    | true => simp [assertCanAccess, hp, bind, Except.bind]
    | false => simp [assertCanAccess, hp, bind, Except.bind, ← ih]

theorem order_factory_ok (idOrNumber : String) (customerId : Option String) :
    (∃ v, orderFactory rt parseUuid db q idOrNumber customerId = .ok v) ↔
      (Read.order idOrNumber customerId).Admitted parseUuid db q := by
  simp only [orderFactory, Read.Admitted]
  cases hfind : findByIdOrNumber parseUuid db q idOrNumber with
  | error e => simp [bind, Except.bind]
  | ok found =>
    cases found with
    | none => simp [bind, Except.bind]
    | some o => cases hdenied : deniedTo customerId o.customerId <;>
        simp [bind, Except.bind, hdenied]

theorem payment_factory_ok (paymentId actorId : String) (isAdmin : Bool) :
    (∃ v, paymentFactory rt parseUuid db q paymentId actorId isAdmin = .ok v) ↔
      (Read.payment paymentId actorId isAdmin).Admitted parseUuid db q := by
  simp only [paymentFactory, Read.Admitted]
  cases hfind : findPaymentById parseUuid db q paymentId with
  | error e => simp [bind, Except.bind]
  | ok found =>
    cases found with
    | none => simp [bind, Except.bind]
    | some p =>
      cases isAdmin with
      | true => simp [bind, Except.bind, pure, Except.pure]
      | false => cases hyours : notYours actorId p.customerId <;>
          simp [bind, Except.bind, pure, Except.pure, assertCanAccess, hyours]

theorem order_payments_factory_ok (orderId actorId : String) (isAdmin : Bool) :
    (∃ v, orderPaymentsFactory rt parseUuid db q orderId actorId isAdmin = .ok v) ↔
      (Read.orderPayments orderId actorId isAdmin).Admitted parseUuid db q := by
  simp only [orderPaymentsFactory, Read.Admitted, forM_assertCanAccess]
  cases hfind : findByOrderId parseUuid db q orderId with
  | error e => simp [bind, Except.bind]
  | ok rows =>
    cases isAdmin with
    | true => simp [bind, Except.bind, pure, Except.pure]
    | false =>
      by_cases hyours : ∀ p ∈ rows, notYours actorId p.customerId = false
      · simpa [bind, Except.bind, pure, Except.pure, if_pos hyours] using hyours
      · simp [bind, Except.bind, hyours]

theorem claim_factory_ok (id : String) (customerId : Option String) :
    (∃ v, claimFactory rt parseUuid db q id customerId = .ok v) ↔
      (Read.claim id customerId).Admitted parseUuid db q := by
  simp only [claimFactory, Read.Admitted]
  cases hfind : findClaim parseUuid db q 0 id with
  | error e => simp [bind, Except.bind]
  | ok found =>
    cases found with
    | none => simp [bind, Except.bind]
    | some c =>
      cases hdenied : deniedTo customerId c.customerId with
      | true => simp [bind, Except.bind, hdenied]
      | false => cases htimeline : timeline parseUuid db q id <;>
          simp [bind, Except.bind, pure, Except.pure, hdenied]

theorem factory_ok (r : Read) :
    (∃ v, r.factory rt parseUuid db q = .ok v) ↔ r.Admitted parseUuid db q := by
  cases r with
  | order idOrNumber customerId => exact order_factory_ok idOrNumber customerId
  | payment paymentId actorId isAdmin => exact payment_factory_ok paymentId actorId isAdmin
  | orderPayments orderId actorId isAdmin =>
    exact order_payments_factory_ok orderId actorId isAdmin
  | claim id customerId => exact claim_factory_ok id customerId

theorem orderFactory_view {idOrNumber : String} {customerId : Option String} {v : JsValue}
    (hv : orderFactory rt parseUuid db q idOrNumber customerId = .ok v) :
    ∃ o, v = orderView rt o := by
  simp only [orderFactory, bind_eq_ok] at hv
  obtain ⟨found, hfind, hv⟩ := hv
  cases found with
  | none => simp at hv
  | some o =>
    simp only at hv
    split at hv
    · simp at hv
    · exact ⟨o, by simpa using hv.symm⟩

theorem paymentFactory_view {paymentId actorId : String} {isAdmin : Bool} {v : JsValue}
    (hv : paymentFactory rt parseUuid db q paymentId actorId isAdmin = .ok v) :
    ∃ p, v = mapPayment rt p := by
  simp only [paymentFactory, bind_eq_ok] at hv
  obtain ⟨found, hfind, hv⟩ := hv
  cases found with
  | none => simp at hv
  | some p =>
    simp only at hv
    split at hv
    · obtain ⟨_, _, hview⟩ := bind_eq_ok.mp hv
      exact ⟨p, (pure_eq_ok.mp hview).symm⟩
    · exact ⟨p, (pure_eq_ok.mp hv).symm⟩

theorem orderPaymentsFactory_view {orderId actorId : String} {isAdmin : Bool} {v : JsValue}
    (hv : orderPaymentsFactory rt parseUuid db q orderId actorId isAdmin = .ok v) :
    ∃ rows : List PaymentRow, v = .array (rows.map (mapPayment rt)) := by
  simp only [orderPaymentsFactory, bind_eq_ok] at hv
  obtain ⟨rows, hfind, hv⟩ := hv
  split at hv
  · obtain ⟨_, _, hview⟩ := bind_eq_ok.mp hv
    exact ⟨rows, (pure_eq_ok.mp hview).symm⟩
  · exact ⟨rows, (pure_eq_ok.mp hv).symm⟩

theorem claimFactory_view {id : String} {customerId : Option String} {v : JsValue}
    (hv : claimFactory rt parseUuid db q id customerId = .ok v) :
    ∃ c entries, v = claimView rt c entries := by
  simp only [claimFactory, bind_eq_ok] at hv
  obtain ⟨found, hfind, hv⟩ := hv
  cases found with
  | none => simp at hv
  | some c =>
    simp only at hv
    split at hv
    · simp at hv
    · obtain ⟨entries, _, hview⟩ := bind_eq_ok.mp hv
      exact ⟨c, entries, (pure_eq_ok.mp hview).symm⟩

theorem factory_entry {r : Read} {v : JsValue} (hv : r.factory rt parseUuid db q = .ok v) :
    (CacheService.entry rt v).isSome := by
  cases r with
  | order idOrNumber customerId =>
    obtain ⟨o, rfl⟩ := orderFactory_view hv
    simp [orderView]
  | payment paymentId actorId isAdmin =>
    obtain ⟨p, rfl⟩ := paymentFactory_view hv
    simp [mapPayment]
  | orderPayments orderId actorId isAdmin =>
    obtain ⟨rows, rfl⟩ := orderPaymentsFactory_view hv
    simp
  | claim id customerId =>
    obtain ⟨c, entries, rfl⟩ := claimFactory_view hv
    simp [claimView]

theorem foreign_not_admitted {r : Read} (hr : r.Foreign parseUuid db) :
    ¬ r.Admitted parseUuid db q := by
  intro hadmitted
  cases r with
  | order idOrNumber customerId =>
    obtain ⟨o, hfind, hdenied⟩ := hr
    obtain ⟨o', hfind', hadmits⟩ := hadmitted
    have hsame : o' = o := by simpa [hfind] using (findByIdOrNumber_quiet hfind').symm
    simp [hsame, hdenied] at hadmits
  | payment paymentId actorId isAdmin =>
    obtain ⟨hcustomer, p, hfind, hyours⟩ := hr
    obtain ⟨p', hfind', hadmits⟩ := hadmitted
    have hquiet : findPaymentById parseUuid db {} paymentId = .ok (some p') := fetch_quiet hfind'
    have hsame : p' = p := by simpa [hfind] using hquiet.symm
    simp [hcustomer, hsame, hyours] at hadmits
  | orderPayments orderId actorId isAdmin =>
    obtain ⟨hcustomer, rows, hfind, p, hp, hyours⟩ := hr
    obtain ⟨rows', hfind', hadmits⟩ := hadmitted
    have hquiet : findByOrderId parseUuid db {} orderId = .ok rows' := fetch_quiet hfind'
    have hsame : rows' = rows := by simpa [hfind] using hquiet.symm
    subst hsame
    rcases hadmits with hadmin | hall
    · simp [hcustomer] at hadmin
    · simp [hall p hp] at hyours
  | claim id customerId =>
    obtain ⟨c, hfind, hdenied⟩ := hr
    obtain ⟨⟨c', hfind', hadmits⟩, _⟩ := hadmitted
    have hquiet : findClaim parseUuid db {} 0 id = .ok (some c') := fetch_quiet hfind'
    have hsame : c' = c := by simpa [hfind] using hquiet.symm
    simp [hsame, hdenied] at hadmits

end Factories

/-! ### Sequences of reads -/

/-- A read by anybody, or an entry that is lost: its time is over, or Redis drops it. -/
inductive Event where
  | read (r : Read) (i : ReadInput)
  | expire (key : String)

section Sequences

variable (rt : Runtime) (parseUuid : String → Option String) (db : Database)

def applyEvent (store : CacheStore) : Event → CacheStore
  | .read r i => (r.call rt parseUuid db i store).2
  | .expire key => Function.update store key none

def cacheAfter (events : List Event) : CacheStore :=
  events.foldl (applyEvent rt parseUuid db) fun _ => none

/-- Among the events, a read of the key was let through by its own check and stored, and
the entry was not lost since. -/
def Opened (parseUuid : String → Option String) (db : Database) (key : String)
    (events : List Event) : Prop :=
  ∃ before r i after, events = before ++ .read r i :: after ∧ r.key = key ∧
    r.Admitted parseUuid db i.database ∧ i.redis.setFails = false ∧ Event.expire key ∉ after

def libraryEvent : Event → ReadThrough.Event String JsValue Failure
  | .read r i => .access (CacheService.access i.redis r.key (r.factory rt parseUuid db i.database))
  | .expire key => .evict key

variable {rt parseUuid db}

theorem applyEvent_eq (store : CacheStore) (e : Event) :
    applyEvent rt parseUuid db store e =
      ReadThrough.step (CacheService.entry rt) store (libraryEvent rt parseUuid db e) := by
  cases e with
  | read r i => simp [applyEvent, Read.call, libraryEvent, ReadThrough.step, CacheService.getOrSet_eq]
  | expire key => rfl

theorem cacheAfter_eq (events : List Event) :
    cacheAfter rt parseUuid db events =
      ReadThrough.run (CacheService.entry rt) (fun _ => none)
        (events.map (libraryEvent rt parseUuid db)) := by
  simp only [cacheAfter, ReadThrough.run, List.foldl_map]
  congr 1
  funext store e
  exact applyEvent_eq store e

theorem kept (e : Event) :
    ReadThrough.Kept (CacheService.entry rt) (libraryEvent rt parseUuid db e) := by
  intro a v ha hv
  cases e with
  | read r i =>
    simp only [libraryEvent, ReadThrough.Event.access.injEq] at ha
    rw [← ha] at hv
    exact factory_entry hv
  | expire key => simp [libraryEvent] at ha

theorem evict_mem {key : String} {events : List Event} :
    ReadThrough.Event.evict key ∈ events.map (libraryEvent rt parseUuid db) ↔
      Event.expire key ∈ events := by
  simp only [List.mem_map]
  constructor
  · intro ⟨e, he, hkey⟩
    cases e with
    | read r i => simp [libraryEvent] at hkey
    | expire k =>
      simp only [libraryEvent, ReadThrough.Event.evict.injEq] at hkey
      exact hkey ▸ he
  · exact fun h => ⟨_, h, rfl⟩

theorem filled_iff (key : String) (events : List Event) :
    ReadThrough.Filled key (events.map (libraryEvent rt parseUuid db)) ↔
      Opened parseUuid db key events := by
  constructor
  · intro ⟨before, a, after, h, hkey, hfills, hevict⟩
    obtain ⟨first, rest, rfl, rfl, hrest⟩ := List.map_eq_append_iff.mp h
    obtain ⟨e, last, rfl, he, rfl⟩ := List.map_eq_cons_iff.mp hrest
    cases e with
    | read r i =>
      simp only [libraryEvent, ReadThrough.Event.access.injEq] at he
      subst he
      have hadmitted : r.Admitted parseUuid db i.database := factory_ok r |>.mp hfills.2
      exact ⟨first, r, i, last, rfl, hkey, hadmitted, hfills.1, fun h => hevict (evict_mem.mpr h)⟩
    | expire k => simp [libraryEvent] at he
  · intro ⟨before, r, i, after, h, hkey, hadmitted, hset, hexpire⟩
    have hfills : (CacheService.access i.redis r.key
        (r.factory rt parseUuid db i.database)).Fills := ⟨hset, factory_ok r |>.mpr hadmitted⟩
    refine ⟨before.map (libraryEvent rt parseUuid db), _,
      after.map (libraryEvent rt parseUuid db), ?_, hkey, hfills,
      fun h => hexpire (evict_mem.mp h)⟩
    simp [h, libraryEvent]

/-- After any reads, by anybody, a read for a customer of another customer's data fails as
on an empty cache exactly when Redis hides the entry, or no read of the same key let
through by the check has left one. -/
theorem foreign_read_refused_iff (history : List Event) (r : Read) (i : ReadInput)
    (hforeign : r.Foreign parseUuid db) :
    (∃ e, (r.call rt parseUuid db i fun _ => none).1 = .error e) ∧
      ((r.call rt parseUuid db i (cacheAfter rt parseUuid db history)).1 =
          (r.call rt parseUuid db i fun _ => none).1 ↔
        i.redis.getFails = true ∨ ¬ Opened parseUuid db r.key history) := by
  have hrefused : ∃ e, r.factory rt parseUuid db i.database = .error e := by
    cases hfactory : r.factory rt parseUuid db i.database with
    | error e => exact ⟨e, rfl⟩
    | ok v => exact absurd ((factory_ok r).mp ⟨v, hfactory⟩) (foreign_not_admitted hforeign)
  obtain ⟨e, he⟩ := hrefused
  simp only [Read.call, CacheService.getOrSet_eq, cacheAfter_eq]
  refine ⟨⟨e, ?_⟩, ?_⟩
  · rw [ReadThrough.read_empty]
    exact he
  · have hkept : ∀ x ∈ history.map (libraryEvent rt parseUuid db),
        ReadThrough.Kept (CacheService.entry rt) x := by
      intro x hx
      obtain ⟨event, _, rfl⟩ := List.mem_map.mp hx
      exact kept event
    have hiff := ReadThrough.refused_iff
      (a := CacheService.access i.redis r.key (r.factory rt parseUuid db i.database)) hkept he
    have hopened : ReadThrough.Filled r.key (history.map (libraryEvent rt parseUuid db)) ↔
        Opened parseUuid db r.key history := filled_iff r.key history
    rw [hiff, ← hopened]
    rfl

end Sequences

/-! ### A payment read twice -/

def ownPayment : PaymentRow where
  id := "p1"
  orderId := "o1"
  customerId := some "alice"
  gatewayId := "g1"
  gatewayCode := "razorpay"
  paymentMethodId := none
  amount := "99.50"
  currency := "INR"
  refundedAmount := "0"
  status := .captured
  gatewayOrderId := none
  gatewayPaymentId := some "pay_1"
  authorizedAt := none
  capturedAt := some 0
  failedAt := none
  createdAt := 0
  updatedAt := 0

def onePayment : Database := ⟨[], [ownPayment], [], []⟩

/-- The owner's read, and the same read by another customer. -/
def ownRead : Read := .payment "p1" "alice" false
def otherRead : Read := .payment "p1" "bob" false

theorem other_read_foreign : otherRead.Foreign some onePayment :=
  ⟨rfl, ownPayment, rfl, by decide⟩

theorem foreign_read_refused_iff_other :
    (∃ e, (otherRead.call .plain some onePayment {} fun _ => none).1 = .error e) ∧
      ((otherRead.call .plain some onePayment {}
          (cacheAfter .plain some onePayment [.read ownRead {}, .expire ownRead.key])).1 =
          (otherRead.call .plain some onePayment {} fun _ => none).1 ↔
        ({} : ReadInput).redis.getFails = true ∨
          ¬ Opened some onePayment otherRead.key [.read ownRead {}, .expire ownRead.key]) :=
  foreign_read_refused_iff [.read ownRead {}, .expire ownRead.key] otherRead {} other_read_foreign

/-- Bob is given Alice's payment, which he is refused on an empty cache. -/
theorem payment_read_by_another_customer :
    otherRead.Foreign some onePayment ∧
      (otherRead.call .plain some onePayment {} fun _ => none).1 =
        .error (.throwApp .forbidden "Not your payment" 403) ∧
      (otherRead.call .plain some onePayment {}
        (cacheAfter .plain some onePayment [.read ownRead {}])).1 =
        .ok (.object (JsValue.revivedFields .plain
          [("id", .string "p1"), ("orderId", .string "o1"), ("customerId", .string "alice"),
           ("gatewayId", .string "g1"), ("gatewayCode", .string "razorpay"),
           ("paymentMethodId", .null), ("amount", amountOf .plain "99.50"),
           ("currency", .string "INR"), ("refundedAmount", amountOf .plain "0"),
           ("status", .string "captured"), ("gatewayOrderId", .null),
           ("gatewayPaymentId", .string "pay_1"), ("authorizedAt", .null),
           ("capturedAt", .date 0), ("failedAt", .null), ("createdAt", .date 0),
           ("updatedAt", .date 0)])) :=
  ⟨other_read_foreign, rfl, rfl⟩

end ElectronicsCart.Access
