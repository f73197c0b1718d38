import ElectronicsCart.Shipping.TrackingRuns

/-!
# What an RTO leaves behind

`createRto` inserts its row, returns the shipment where the status graph lets it, and publishes two
events.  The row is in no transaction: what is rejected after it leaves it there.
-/

namespace ElectronicsCart.Shipping

open Interleaving Relational ShipmentRepository ShippingService ReverseLogisticsService

def afterRto (status : ShipmentStatus) : ShipmentStatus :=
  if canTransition status ShipmentStatus.returned.text then .returned else status

structure NoRto (s s' : ShippingState) : Prop where
  rtos : s'.rtos = s.rtos
  shipments : s'.shipments = s.shipments
  published : s'.published = s.published

/-- One RTO row, the shipment returned where that is legal, and both events. -/
structure OneRto (forward : Shipment) (s s' : ShippingState) : Prop where
  row : ∃ rto, rto.forwardShipmentId = forward.id ∧ s'.rtos.rows = s.rtos.rows ++ [rto] ∧
    s'.published = s.published ++ rtoEvents forward rto
  status : statusOf s' = Function.update (statusOf s) forward.id (some (afterRto forward.status))

/-- No call but that of the cache fails once there is a new RTO row. -/
def GoesThrough (start : ShippingState) (l : ShippingCall) (i : ShippingInput) (s : ShippingState) :
    Prop :=
  match l with
  | .invalidateShipment _ => True
  | _ => i.fails = false ∨ s.rtos.rows.length = start.rtos.rows.length

/-! ### The lists of statuses -/

theorem canReturn_of_returnable {status : ShipmentStatus} (h : returnable.contains status = true)
    (hne : status ≠ .dispatched) :
    canTransition status ShipmentStatus.returned.text = true := by
  cases status <;> first | exact absurd rfl hne | revert h; decide +kernel

theorem afterRto_of_not_returnable {status : ShipmentStatus}
    (h : ¬ returnable.contains status = true) : afterRto status = status := by
  cases status <;> first | exact absurd (by decide) h | decide +kernel

/-! ### The call -/

section Call

variable {start s s' : ShippingState} {forward : Shipment}

theorem append_apart {id now : ℕ} {data : EventData} {u : Unit}
    (h : appendTrackingEvent id data now s = .ok (u, s')) :
    s'.rtos = s.rtos ∧ s'.published = s.published := by
  simp only [appendTrackingEvent, bind_eq_ok, check_eq_ok, pure_eq_ok] at h
  obtain ⟨status, -, -, -, occurredAt, -, h⟩ := h
  obtain ⟨-, rfl⟩ := Prod.mk.inj h
  exact ⟨rfl, rfl⟩

theorem NoRto.trans {s s' s'' : ShippingState} (h : NoRto s s') (h' : NoRto s' s'') : NoRto s s'' :=
  ⟨h'.rtos.trans h.rtos, h'.shipments.trans h.shipments, h'.published.trans h.published⟩

theorem insertRto_adds {ok : ShippingCall → ShippingInput → ShippingState → Prop}
    (reason : Option String) :
    Alone ok (fun r t => match r with
      | .ok rto => rto.forwardShipmentId = forward.id ∧ t.rtos.rows = s.rtos.rows ++ [rto] ∧
        t.shipments = s.shipments ∧ t.published = s.published
      | .error _ => NoRto s t) (insertRto forward reason) s := by
  refine Alone.atomic (fun i rto t _ _ ht => ?_) fun _ _ _ _ => ⟨rfl, rfl, rfl⟩
  simp only [bind_eq_ok, check_eq_ok, pure_eq_ok] at ht
  obtain ⟨-, -, ht⟩ := ht
  obtain ⟨rfl, rfl⟩ := Prod.mk.inj ht
  exact ⟨rfl, rfl, rfl, rfl⟩

theorem returnForward_done (rto : RtoShipment) (hfound : findById forward.id s = some forward)
    (hne : forward.status ≠ .dispatched) (hadded : s.rtos.rows.length ≠ start.rtos.rows.length) :
    Alone (GoesThrough start) (fun r t => r = .ok () ∧
      statusOf t = Function.update (statusOf s) forward.id (some (afterRto forward.status)) ∧
      t.rtos = s.rtos ∧ t.published = s.published) (returnForward forward rto) s := by
  obtain ⟨-, hstatus⟩ := findById_some hfound
  unfold returnForward
  split
  next hreturnable =>
    have hlegal := canReturn_of_returnable hreturnable hne
    have hafter : afterRto forward.status = .returned := by rw [afterRto, if_pos hlegal]
    refine Alone.ensureBind (fun _ => ?_) fun h => absurd hlegal h
    refine Alone.atomicBind (fun i b u _ _ hu => ?_) fun i e ho he => ?_
    · obtain ⟨-, hwritten, -⟩ := statusOf_update hu fun _ => rfl
      obtain ⟨a, -, rfl⟩ := updateShipment_cases hu
      have hnow := congrFun hwritten forward.id
      rw [Function.update_self] at hnow
      refine Alone.atomic (fun i b v _ _ hv => ?_) fun i e ho he => ?_
      · obtain ⟨hrtos, hpublished⟩ := append_apart hv
        refine ⟨rfl, ?_, hrtos, hpublished⟩
        rw [(alike_appendEvent hv).status, hwritten, hafter]
      · rcases he with hf | he
        · rcases ho with ho | ho
          · exact absurd (hf.symm.trans ho) (by decide)
          · exact absurd ho hadded
        · exact absurd he (append_taken hnow rfl rfl e)
    · rcases he with hf | he
      · rcases ho with ho | ho
        · exact absurd (hf.symm.trans ho) (by decide)
        · exact absurd ho hadded
      · obtain ⟨a, ha, -⟩ := Option.map_eq_some_iff.mp hstatus
        simp [updateShipment, ha] at he
  next hstays =>
    refine Alone.done ⟨rfl, ?_, rfl, rfl⟩
    rw [afterRto_of_not_returnable hstays, ← hstatus, Function.update_eq_self]

/-- How `createRto` ends. -/
def RtoOutcome (dto : CreateRtoDto) (s : ShippingState) :
    Except Failure RtoResult → ShippingState → Prop
  | .ok _, t => ∃ forward, findById dto.forwardShipmentId s = some forward ∧ OneRto forward s t
  | .error _, t => NoRto s t

theorem RtoOutcome.setLocks {dto : CreateRtoDto} {r : Except Failure RtoResult}
    {m : LockStore ShippingLock} (h : RtoOutcome dto s r s') :
    RtoOutcome dto s r (Lockable.setLocks ShippingCall m s') := by
  cases r with
  | ok res =>
    obtain ⟨forward, hfound, hrow, hstatus⟩ := h
    exact ⟨forward, hfound, hrow, hstatus⟩
  | error e => exact ⟨h.rtos, h.shipments, h.published⟩

theorem RtoOutcome.added {dto : CreateRtoDto} {res : RtoResult} (h : RtoOutcome dto s (.ok res) s') :
    s'.rtos.rows.length ≠ s.rtos.rows.length := by
  obtain ⟨forward, -, ⟨rto, -, hrows, -⟩, -⟩ := h
  rw [hrows, List.length_append, List.length_singleton]
  omega

theorem announceRto_done {dto : CreateRtoDto} {rto : RtoShipment}
    (hfound : findById dto.forwardShipmentId start = some forward)
    (hrto : rto.forwardShipmentId = forward.id) (hrows : s.rtos.rows = start.rtos.rows ++ [rto])
    (hpublished : s.published = start.published)
    (hstatus : statusOf s =
      Function.update (statusOf start) forward.id (some (afterRto forward.status)))
    (k : Unit → RtoResult) :
    Alone (GoesThrough start) (RtoOutcome dto start)
      ((announceRto forward rto).bind fun u => pure (k u)) s := by
  refine Alone.callBind fun i _ => ⟨fun u _ => Alone.done ⟨forward, hfound, ?_⟩, fun e he => nomatch he⟩
  dsimp only
  split
  · exact ⟨⟨rto, hrto, hrows, by rw [hpublished]⟩, hstatus⟩
  · exact ⟨⟨rto, hrto, hrows, by rw [hpublished]⟩, hstatus⟩

theorem createRto_ends (token : ℕ) (dto : CreateRtoDto)
    (hne : ∀ a, findById dto.forwardShipmentId s = some a → a.status ≠ .dispatched) :
    Alone (GoesThrough s) (RtoOutcome dto s) (createRto token dto) s := by
  refine Alone.withLock (R := RtoOutcome dto s) (fun e i _ _ => ⟨rfl, rfl, rfl⟩) (fun _ => ?_)
    (fun r t ht => ?_) fun r i t ht ho hf => ?_
  · generalize hlocks : Lockable.setLocks ShippingCall _ s = u
    have hsame : u = { s with locks := u.locks } := by rw [← hlocks]; rfl
    have hno : NoRto s u := by rw [hsame]; exact ⟨rfl, rfl, rfl⟩
    have hfind : findById dto.forwardShipmentId u = findById dto.forwardShipmentId s := by
      rw [hsame]
      rfl
    simp only [requireShipment, Prog.bind_eq, Prog.bind_assoc]
    refine Alone.queryBind (fun i _ _ => ?_) fun _ _ _ => hno
    refine Alone.orThrowBind (fun forward hforward => ?_) fun _ => hno
    have hfound : findById dto.forwardShipmentId s = some forward := hfind ▸ hforward
    obtain ⟨hid, -⟩ := findById_some hfound
    refine Alone.bind (insertRto_adds dto.reason) (fun rto v hv => ?_) fun e v hv => hno.trans hv
    obtain ⟨hrto, hadded, hshipments, hunpublished⟩ := hv
    have hrows : v.rtos.rows = s.rtos.rows ++ [rto] := by rw [hadded, hno.rtos]
    have hstatusOf : statusOf v = statusOf s := by
      funext j
      rw [statusOf, statusOf, hshipments, hno.shipments]
    have hnow : findById forward.id v = some forward := by
      rw [hid, findById, hshipments]
      exact hforward
    have hlonger : v.rtos.rows.length ≠ s.rtos.rows.length := by
      rw [hrows, List.length_append, List.length_singleton]
      omega
    refine Alone.bind (returnForward_done rto hnow (hne forward hfound) hlonger) (fun _ t ht => ?_)
      fun e t ht => by cases ht.1
    obtain ⟨-, hstatus, hrtos, hpublished⟩ := ht
    refine announceRto_done hfound hrto ?_ ?_ ?_ fun _ => _
    · rw [hrtos, hrows]
    · rw [hpublished, hunpublished, hno.published]
    · rw [hstatus, hstatusOf]
  · rcases LockService.drop_cases (L := ShippingCall) (.rto dto.forwardShipmentId) token t
      with ⟨-, hd⟩ | hd
    · rw [hd]
      exact ht.setLocks
    · rw [hd]
      exact ht
  · cases r with
    | ok res =>
      rcases ho with ho | ho
      · exact absurd (hf.symm.trans ho) (by decide)
      · exact absurd ho ht.added
    | error e => exact ht

end Call

/-- For every shipment that is not just dispatched: one RTO, or none and an error. -/
theorem createRto_one_or_none (token : ℕ) (dto : CreateRtoDto) (s s' : ShippingState)
    (r : Except Failure RtoResult)
    (hne : ∀ a, findById dto.forwardShipmentId s = some a → a.status ≠ .dispatched)
    (hran : Pool.Ran (GoesThrough s) (createRto token dto) s r s') :
    (∃ res forward, r = .ok res ∧ findById dto.forwardShipmentId s = some forward ∧
      OneRto forward s s') ∨ ∃ e, r = .error e ∧ NoRto s s' := by
  have hends := ran_alone (createRto_ends token dto hne) hran
  cases r with
  | ok res =>
    obtain ⟨forward, hfound, hone⟩ := hends
    exact .inl ⟨res, forward, rfl, hfound, hone⟩
  | error e => exact .inr ⟨e, rfl, hends⟩

/-- The shipment of `outForDelivery` when it has only been dispatched. -/
def dispatched : ShippingState :=
  { outForDelivery with
    shipments := outForDelivery.shipments.update 0 fun a => { a with status := .dispatched } }

/-- An RTO by itself, none of whose calls fails. -/
def rtoAsked (s : ShippingState) : Pool ShippingCall ShippingInput ShippingState Failure RtoResult :=
  Pool.solo (createRto 0 ⟨0, none⟩) s (List.replicate 8 { reply := {} })

/-- A parcel that is out for delivery. -/
theorem outForDelivery_returned :
    statusOf (rtoAsked outForDelivery).state 0 = some .returned ∧
    (rtoAsked outForDelivery).state.rtos.rows.length = 1 := by
  have hresult : (rtoAsked outForDelivery).result?.map Except.isOk = some true := by decide +kernel
  obtain ⟨r, hr, hok⟩ := Option.map_eq_some_iff.mp hresult
  have hadmits : Pool.SoloAdmits (GoesThrough outForDelivery) (createRto 0 ⟨0, none⟩) outForDelivery
      (List.replicate 8 { reply := {} }) := by
    refine Pool.soloAdmits_of_forall fun i hi l t => ?_
    rw [List.eq_of_mem_replicate hi]
    unfold GoesThrough
    split
    · trivial
    · exact .inl rfl
  rcases createRto_one_or_none 0 ⟨0, none⟩ outForDelivery _ r (by decide +kernel)
    ⟨_, hadmits, hr, rfl⟩ with ⟨res, forward, -, hfound, ⟨rto, -, hrows, -⟩, hstatus⟩ | ⟨e, rfl, -⟩
  · have hforward : forward.id = 0 ∧ forward.status = .outForDelivery := by
      obtain ⟨hid, hnow⟩ := findById_some hfound
      exact ⟨hid, Option.some.inj (hnow.symm.trans (by decide +kernel))⟩
    constructor
    · rw [rtoAsked, hstatus, hforward.1, Function.update_self, hforward.2]
      decide +kernel
    · rw [rtoAsked, hrows]
      rfl
  · cases hok

/-- A delivered shipment gets its RTO row and both events and stays delivered; one that was only
dispatched gets the row and an error. -/
theorem rto_without_return :
    ((rtoAsked delivered).result?.map Except.isOk = some true ∧
      (rtoAsked delivered).state.rtos.rows.length = 1 ∧
      (rtoAsked delivered).state.published.length = 2 ∧
      statusOf (rtoAsked delivered).state 0 = some .delivered) ∧
    (rtoAsked dispatched).result? =
        some (.error (invalidTransition .dispatched ShipmentStatus.returned.text)) ∧
      (rtoAsked dispatched).state.rtos.rows.length = 1 := by
  decide +kernel

end ElectronicsCart.Shipping
