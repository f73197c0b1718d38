import ElectronicsCart.Shipping.StatusRuns
import ElectronicsCart.Core.Alone

/-!
# The tracking record over whole runs

A shipment's status is stored twice, in the shipment and in its tracking record.  `transitionStatus`
writes both, `syncTracking` records what the carrier says, and `createRto` writes the shipment only.
The runs here are sequential: any requests, each finished before the next.
-/

namespace ElectronicsCart.Shipping

open Interleaving Relational ShipmentRepository

/-- Every shipment has a tracking record with its status. -/
def InStep (s : ShippingState) : Prop :=
  ∀ a ∈ s.shipments.rows, trackedOf s a.id = some a.status

instance (s : ShippingState) : Decidable (InStep s) :=
  inferInstanceAs (Decidable (∀ a ∈ s.shipments.rows, trackedOf s a.id = some a.status))

structure InStepBut (id : ℕ) (target : ShipmentStatus) (s : ShippingState) : Prop where
  status : statusOf s id = some target
  others : ∀ j current, j ≠ id → statusOf s j = some current → trackedOf s j = some current

section Records

variable {s s' : ShippingState} {id : ℕ} {target current : ShipmentStatus}

theorem inStep_iff : InStep s ↔ ∀ j current, statusOf s j = some current →
    trackedOf s j = some current := by
  constructor
  · intro h j current hc
    obtain ⟨a, ha, rfl⟩ := Option.map_eq_some_iff.mp hc
    obtain ⟨hmem, hkey⟩ := Table.find?_mem ha
    rw [← h a hmem]
    exact congrArg _ hkey.symm
  · intro h a ha
    refine h a.id a.status ?_
    have hfind : s.shipments.find? a.id = some a := Table.find?_eq_some_iff.mpr ⟨ha, rfl⟩
    rw [statusOf, hfind, Option.map_some]

theorem InStep.alike (h : InStep s) (ha : Alike s s') : InStep s' := by
  rw [inStep_iff] at h ⊢
  rwa [ha.status, ha.tracked]

theorem InStepBut.alike (h : InStepBut id target s) (ha : Alike s s') : InStepBut id target s' := by
  constructor
  · rw [ha.status, h.status]
  · intro j current hj
    rw [ha.status, ha.tracked]
    exact h.others j current hj

theorem InStep.but (h : InStep s) (hs : statusOf s id = some target) : InStepBut id target s :=
  ⟨hs, fun j current _ hc => inStep_iff.mp h j current hc⟩

theorem InStep.write (h : InStep s) (hs : statusOf s' = Function.update (statusOf s) id (some target))
    (ht : trackedOf s' = trackedOf s) : InStepBut id target s' := by
  constructor
  · rw [hs, Function.update_self]
  · intro j current hj hc
    rw [hs, Function.update_of_ne hj] at hc
    rw [ht]
    exact inStep_iff.mp h j current hc

theorem InStepBut.catchUp (h : InStepBut id target s) (hs : statusOf s' = statusOf s)
    (ht : trackedOf s' = Function.update (trackedOf s) id (some target)) : InStep s' := by
  rw [inStep_iff]
  intro j current hc
  rw [hs] at hc
  by_cases hj : j = id
  · subst hj
    rw [ht, Function.update_self, ← h.status, hc]
  · rw [ht, Function.update_of_ne hj]
    exact h.others j current hj hc

end Records

/-! ### The writes -/

section Writes

variable {s s' : ShippingState} {id now : ℕ} {status : ShipmentStatus} {location : Option String}

theorem tracked_update {T : Table ShipmentTracking} {row : ShipmentTracking}
    {g : ShipmentTracking → ShipmentTracking} (hg : ∀ t, key (g t) = key t)
    (hshipment : ∀ t, (g t).shipmentId = t.shipmentId) (hstatus : ∀ t, (g t).currentStatus = status)
    (hrow : (T.first? fun t => t.shipmentId == id) = some row) (j : ℕ) :
    ((T.update row.id g hg).first? fun t => t.shipmentId == j).map ShipmentTracking.currentStatus =
      Function.update (fun j => (T.first? fun t => t.shipmentId == j).map
        ShipmentTracking.currentStatus) id (some status) j := by
  rw [Table.first?_update hg fun t => by rw [hshipment]]
  obtain ⟨hmem, hid⟩ := Table.first?_mem hrow
  by_cases hj : j = id
  · subst hj
    have hkey : key row = row.id := rfl
    rw [hrow, Function.update_self, Option.map_some, Option.map_some, if_pos hkey, hstatus]
  · rw [Function.update_of_ne hj, Option.map_map]
    refine Option.map_congr fun other hother => ?_
    obtain ⟨hmem', hid'⟩ := Table.first?_mem hother
    have hne : key other ≠ row.id := by
      intro hkey
      obtain rfl := Table.eq_of_key_eq hmem' hmem hkey
      simp only [beq_iff_eq] at hid hid'
      exact hj (hid'.symm.trans hid)
    rw [Function.comp_apply, if_neg hne]

theorem trackedOf_upsert {t : String} {u : Unit}
    (h : upsertTracking id t location now s = .ok (u, s')) :
    ∃ status, ShipmentStatus.parse t = some status ∧ statusOf s' = statusOf s ∧
      trackedOf s' = Function.update (trackedOf s) id (some status) := by
  simp only [upsertTracking, bind_eq_ok] at h
  obtain ⟨status, hstatus, h⟩ := h
  have hparse : ShipmentStatus.parse t = some status := by
    unfold statusColumn at hstatus
    cases hp : ShipmentStatus.parse t with
    | none => simp [hp] at hstatus
    | some st => simpa [hp] using hstatus
  refine ⟨status, hparse, ?_⟩
  split at h
  next row hrow =>
    simp only [pure_eq_ok] at h
    obtain ⟨-, rfl⟩ := Prod.mk.inj h
    refine ⟨rfl, funext fun j => tracked_update ?_ ?_ ?_ hrow j⟩
    all_goals exact fun _ => rfl
  next hnone =>
    simp only [bind_eq_ok, pure_eq_ok] at h
    obtain ⟨-, -, h⟩ := h
    obtain ⟨-, rfl⟩ := Prod.mk.inj h
    refine ⟨rfl, funext fun j => ?_⟩
    by_cases hj : j = id
    · subst hj
      rw [trackingOf] at hnone
      simp [trackedOf, trackingOf, Table.first?_insert, hnone]
    · simp [trackedOf, trackingOf, Table.first?_insert, Function.update_of_ne hj, Ne.symm hj]

theorem append_taken {data : EventData} (hs : statusOf s id = some status)
    (hd : data.status = status.text) (ht : data.occurredAt = none) (e : Failure) :
    appendTrackingEvent id data now s ≠ .error e := by
  obtain ⟨a, ha, -⟩ := Option.map_eq_some_iff.mp hs
  simp [appendTrackingEvent, statusColumn, hd, ht, ha, check, demand, bind, Except.bind, pure,
    Except.pure]

theorem upsert_taken (hs : statusOf s id = some status) (e : Failure) :
    upsertTracking id status.text location now s ≠ .error e := by
  obtain ⟨a, ha, -⟩ := Option.map_eq_some_iff.mp hs
  simp only [upsertTracking, statusColumn, ShipmentStatus.parse_text, bind, Except.bind,
    Option.elim_some]
  split
  · simp [pure, Except.pure]
  · simp [ha, check, demand, pure, Except.pure]

end Writes

/-! ### Calls in time -/

/-- What the carrier reports is the stored status, one that may follow it, or none that is known. -/
def expected (mapped current : Option ShipmentStatus) : Bool :=
  mapped.all fun m => current.all fun c => m == c || (shipmentTransitions c).contains m

def taken (l : ShippingCall) (i : ShippingInput) (s : ShippingState) : Bool :=
  !i.fails && match l with
    | .insertPackages id packages => (insertPackages id packages s).isOk
    | .insertItems id items => (insertItems id items s).isOk
    | .assignAwb id partnerId awb => (assignAwb id partnerId awb i.now s).isOk
    | _ => true

/-- The tracking record is written all the same when one of these fails. -/
def swallowed : ShippingCall → Bool
  | .appendEvent _ caught => caught
  | .upsertTracking _ _ caught => caught
  | _ => false

def proper (toLowerCase : String → String) (l : ShippingCall) (i : ShippingInput)
    (s : ShippingState) : Bool :=
  match l with
  | .carrier (some id) _ =>
    i.fails || expected (ShippingService.mapCarrierStatus toLowerCase i.reply.status) (statusOf s id)
  | .findShipment _ caught => !caught || !i.fails
  | .applyStatus _ _ _ caught => !caught || !i.fails
  | .applyReturn _ _ => i.fails
  | _ => true

/-- No call is refused while a record is behind, and the status of a shipment does not move past
its record. -/
def InTime (toLowerCase : String → String) (l : ShippingCall) (i : ShippingInput)
    (s : ShippingState) : Prop :=
  (InStep s ∨ swallowed l = true ∨ taken l i s = true) ∧ proper toLowerCase l i s = true

instance (toLowerCase : String → String) (l : ShippingCall) (i : ShippingInput)
    (s : ShippingState) : Decidable (InTime toLowerCase l i s) :=
  inferInstanceAs (Decidable (_ ∧ _))

section Calls

variable {toLowerCase : String → String} {α β : Type}

theorem inStep_of_refused {l : ShippingCall} {i : ShippingInput} {s : ShippingState}
    (ho : InTime toLowerCase l i s) (hl : swallowed l = false) (ht : taken l i s = false) :
    InStep s := by
  rcases ho.1 with h | h | h
  · exact h
  · rw [hl] at h
    cases h
  · rw [ht] at h
    cases h

variable (toLowerCase) in
/-- From tables in step to tables in step, however it ends. -/
abbrev Stays (p : ShippingProg α) : Prop :=
  ∀ s, InStep s → Alone (InTime toLowerCase) (fun _ t => InStep t) p s

theorem stays_of_keeps {p : ShippingProg α} (hp : Keeps p) : Stays toLowerCase p :=
  fun _ hs => Alone.of_every (hp.mono fun _ _ _ _ _ h ht => ht.alike h) hs

theorem stays_bind {p : ShippingProg β} {k : β → ShippingProg α} (hp : Stays toLowerCase p)
    (hk : ∀ b, Stays toLowerCase (k b)) : Stays toLowerCase (p.bind k) :=
  fun s hs => Alone.bind (hp s hs) (fun b t ht => hk b t ht) fun _ _ ht => ht

theorem stays_done (r : Except Failure α) : Stays toLowerCase (.done r) :=
  stays_of_keeps (Prog.every_done r)

theorem stays_orThrowBind {o : Option β} {e : Failure} {k : β → ShippingProg α}
    (hk : ∀ b, Stays toLowerCase (k b)) : Stays toLowerCase ((Prog.orThrow e o).bind k) :=
  stays_bind (stays_of_keeps (Prog.every_orThrow e o)) hk

theorem stays_withLock {key : ShippingLock} {token : ℕ} {p : ShippingProg α}
    (hp : Stays toLowerCase p) : Stays toLowerCase (LockService.withLock key token p) := by
  intro s hs
  have hlocks : ∀ m (t : ShippingState), InStep t → InStep (Lockable.setLocks ShippingCall m t) :=
    fun m t ht => ht.alike (.of_eq rfl rfl rfl)
  exact Alone.withLock_blind (fun _ => hs) (fun _ t m ht => hlocks m t ht) (fun _ _ ht => ht)
    fun m => hp _ (hlocks m s hs)

theorem but_of_keeps {p : ShippingProg α} {id : ℕ} {target : ShipmentStatus} {s : ShippingState}
    (hp : Keeps p) (hs : InStepBut id target s) :
    Alone (InTime toLowerCase) (fun _ t => InStepBut id target t) p s :=
  Alone.of_every (hp.mono fun _ _ _ _ _ h ht => ht.alike h) hs

namespace ShippingService

variable {s : ShippingState} {id : ℕ} {source target : ShipmentStatus}

theorem track_inStep (location : Option String) (hs : InStepBut id target s) :
    Alone (InTime toLowerCase) (fun _ t => InStep t) (track id target.text location false) s := by
  refine Alone.atomic (fun i b u _ _ hu => ?_) fun i e ho he => ?_
  · obtain ⟨status, hparse, hstatus, htracked⟩ := trackedOf_upsert hu
    obtain rfl : target = status := by simpa using hparse
    exact hs.catchUp hstatus htracked
  · refine inStep_of_refused ho rfl ?_
    rcases he with hf | he
    · simp [taken, hf]
    · exact absurd he (upsert_taken hs.status e)

theorem track_caught (location : Option String) (hs : InStepBut id target s) :
    Alone (InTime toLowerCase) (fun _ t => InStepBut id target t)
      (track id target.text location true) s := by
  refine Alone.atomic (fun i b u _ _ hu => ?_) fun i e ho he => hs
  obtain ⟨status, hparse, hstatus, htracked⟩ := trackedOf_upsert hu
  obtain rfl : target = status := by simpa using hparse
  refine (hs.catchUp hstatus htracked).but ?_
  rw [hstatus, hs.status]

theorem moveTo_stays (reason : Option String) :
    Stays toLowerCase (moveTo id source target reason false) := by
  intro s hs
  refine Alone.atomicBind (fun i b u _ _ hu => ?_) fun i e _ _ => hs
  obtain ⟨-, hstatus, htracked⟩ := statusOf_update hu fun _ => rfl
  have hu' : InStepBut id target u := hs.write hstatus htracked
  refine Alone.atomicBind (fun i b v _ _ hv => ?_) fun i e ho he => ?_
  · have hkeeps : Alike u v := alike_appendEvent hv
    refine Alone.bind (track_inStep none (hu'.alike hkeeps)) (fun _ t ht => ?_) fun _ _ ht => ht
    exact Alone.done ht
  · refine inStep_of_refused ho rfl ?_
    rcases he with hf | he
    · simp [taken, hf]
    · exact absurd he (append_taken hu'.status rfl rfl e)

theorem moveTo_caught (reason : Option String) (hs : InStep s) (hid : statusOf s id = some source) :
    Alone (InTime toLowerCase) (fun _ t => InStepBut id target t)
      (moveTo id source target reason true) s := by
  refine Alone.atomicBind (fun i b u _ _ hu => ?_) fun i e ho he => ?_
  · obtain ⟨-, hstatus, htracked⟩ := statusOf_update hu fun _ => rfl
    have hu' : InStepBut id target u := hs.write hstatus htracked
    refine Alone.bind (but_of_keeps (keeps_appendEvent _ _ _) hu') (fun _ t ht => ?_) fun _ _ ht => ht
    refine Alone.bind (track_caught none ht) (fun _ t ht => ?_) fun _ _ ht => ht
    exact Alone.done ht
  · exfalso
    rcases he with hf | he
    · have hproper := ho.2
      simp [proper, hf] at hproper
    · obtain ⟨a, ha, -⟩ := Option.map_eq_some_iff.mp hid
      simp [applyStatus, updateShipment, ha] at he

theorem transitionStatus_stays (status : String) (reason : Option String) :
    Stays toLowerCase (transitionStatus id status reason false) := by
  refine stays_bind (stays_of_keeps (keeps_requireShipment _ _)) fun shipment => ?_
  refine stays_bind (stays_of_keeps (Prog.every_ensure _ _)) fun _ => ?_
  refine stays_orThrowBind fun target => ?_
  have hsync := @stays_of_keeps toLowerCase _ _
    (keeps_syncFulfillment shipment.fulfillmentOrderId status)
  split
  · exact stays_bind hsync fun _ => stays_done _
  · exact stays_bind (moveTo_stays reason) fun updated => stays_bind hsync fun _ => stays_done _

theorem findById_some {shipment : Shipment} (h : findById id s = some shipment) :
    shipment.id = id ∧ statusOf s id = some shipment.status := by
  have hfind := (Option.filter_eq_some_iff.mp h).1
  exact ⟨(Table.find?_mem hfind).2, by rw [statusOf, hfind, Option.map_some]⟩

theorem transitionStatus_caught {shipment : Shipment} (reason : Option String) (hs : InStep s)
    (hfound : findById id s = some shipment) (hedge : target ∈ shipmentTransitions shipment.status)
    (hne : target ≠ shipment.status) :
    Alone (InTime toLowerCase) (fun _ t => InStepBut id target t)
      (transitionStatus id target.text reason true) s := by
  have hcan : canTransition shipment.status target.text = true := canTransition_of_mem hedge
  obtain ⟨-, hid⟩ := findById_some hfound
  simp only [transitionStatus, requireShipment, Prog.bind_eq, Prog.bind_assoc]
  refine Alone.queryBind (fun i _ _ => ?_) fun i ho hf => ?_
  · rw [hfound]
    refine Alone.ensureBind (fun _ => ?_) fun h => absurd hcan h
    rw [ShipmentStatus.parse_text]
    refine Alone.orThrowBind (fun found hfound => ?_) fun h => ?_
    · obtain rfl := Option.some.inj hfound
      rw [if_neg hne]
      refine Alone.bind (moveTo_caught reason hs hid) (fun _ t ht => ?_) fun _ _ ht => ht
      refine Alone.bind (but_of_keeps (keeps_syncFulfillment _ _) ht) (fun _ t ht => ?_)
        fun _ _ ht => ht
      exact Alone.done ht
    · cases h
  · have hproper := ho.2
    simp [proper, hf] at hproper

theorem followCarrier_but {shipment : Shipment} (hs : InStep s)
    (hfound : findById id s = some shipment)
    (hexpected : target = shipment.status ∨ target ∈ shipmentTransitions shipment.status) :
    Alone (InTime toLowerCase) (fun r t => r = .ok () ∧ InStepBut id target t)
      (followCarrier shipment (some target)) s := by
  obtain ⟨rfl, hid⟩ := findById_some hfound
  unfold followCarrier
  dsimp only
  split
  next heq =>
    subst heq
    exact Alone.done ⟨rfl, hs.but hid⟩
  next hne =>
    refine Alone.attemptBind ?_ fun r t ht => Alone.done ⟨rfl, ht⟩
    exact transitionStatus_caught _ hs hfound (hexpected.resolve_left hne) hne

theorem parse_of_unmapped {toLowerCase : String → String} {raw : String}
    (hlower : ∀ status : ShipmentStatus, toLowerCase status.text = status.text)
    (h : mapCarrierStatus toLowerCase raw = none) : ShipmentStatus.parse raw = none := by
  cases hp : ShipmentStatus.parse raw with
  | none => rfl
  | some status =>
    have htext : status.text = raw := by simpa using List.find?_some hp
    rw [mapCarrierStatus, ← htext, hlower] at h
    cases status <;> revert h <;> decide +kernel

theorem recordSync_stays {shipment : Shipment} {sync : CarrierReply}
    {mapped : Option ShipmentStatus}
    (htrack : Alone (InTime toLowerCase) (fun _ t => InStep t)
      (track shipment.id ((mapped.map ShipmentStatus.text).getD sync.status) sync.location false) s) :
    Alone (InTime toLowerCase) (fun _ t => InStep t) (recordSync shipment sync mapped) s := by
  refine Alone.bind htrack (fun _ t ht => ?_) fun _ _ ht => ht
  refine stays_of_keeps ?_ t ht
  refine Prog.Every.bind (keeps_appendEvents _ _) fun _ => ?_
  refine Prog.Every.bind (keeps_recordEta _ _) fun _ => ?_
  exact (keeps_invalidateShipment _).bind fun _ => keeps_getTracking _

theorem syncTracking_stays (token : ℕ)
    (hlower : ∀ status : ShipmentStatus, toLowerCase status.text = status.text) :
    Stays toLowerCase (syncTracking toLowerCase token id) := by
  refine stays_withLock fun s hs => ?_
  simp only [requireShipment, Prog.bind_eq, Prog.bind_assoc]
  refine Alone.queryBind (fun _ _ _ => ?_) fun _ _ _ => hs
  refine Alone.orThrowBind (fun shipment hfound => ?_) fun _ => hs
  obtain ⟨hid, hstatus⟩ := findById_some hfound
  refine Alone.callBind fun i ho => ⟨fun sync hsync => ?_, fun _ _ => hs⟩
  have hreply : i.fails = false ∧ sync = i.reply := by
    cases hf : i.fails <;> simp_all
  cases hmapped : mapCarrierStatus toLowerCase sync.status with
  | none =>
    -- the record refuses a text that is no status
    refine Alone.bind (Alone.done (Q := fun _ t => t = s) rfl) (fun _ t ht => ?_) fun _ _ ht => ht ▸ hs
    subst ht
    refine recordSync_stays (Alone.atomic (fun i b u _ _ hu => ?_) fun _ _ _ _ => hs)
    obtain ⟨status, hparse, -⟩ := trackedOf_upsert hu
    rw [Option.map_none, Option.getD_none, parse_of_unmapped hlower hmapped] at hparse
    cases hparse
  | some target =>
    have hexpected : target = shipment.status ∨ target ∈ shipmentTransitions shipment.status := by
      have hproper := ho.2
      rw [hreply.2] at hmapped
      simpa [proper, hreply.1, hmapped, hid, hstatus, expected] using hproper
    refine Alone.bind (followCarrier_but hs hfound hexpected) (fun _ t ht => ?_)
      fun e t ht => nomatch ht.1
    refine recordSync_stays ?_
    rw [hid]
    exact track_inStep _ ht.2

theorem updateStatus_stays (token : ℕ) (dto : UpdateShipmentStatusDto) :
    Stays toLowerCase (updateStatus token id dto) := by
  refine stays_withLock (stays_bind (transitionStatus_stays _ _) fun updated => ?_)
  refine stays_bind (stays_of_keeps (keeps_invalidateShipment _)) fun _ => ?_
  exact stays_of_keeps (Prog.every_orThrow _ _)

theorem generateLabel_stays (token : ℕ) : Stays toLowerCase (generateLabel token id) := by
  refine stays_withLock (stays_bind (stays_of_keeps (keeps_requireShipment _ _)) fun shipment => ?_)
  refine stays_orThrowBind fun ref => ?_
  refine stays_bind (stays_of_keeps (keeps_carrier _ _)) fun label => ?_
  refine stays_bind (stays_of_keeps (keeps_insertLabel _ _)) fun _ => ?_
  have hlast : ∀ r : LabelResult,
      Stays toLowerCase ((invalidateShipment id).bind fun _ => pure r) :=
    fun r => stays_bind (stays_of_keeps (keeps_invalidateShipment _)) fun _ => stays_done _
  split
  · exact stays_bind (transitionStatus_stays _ _) fun _ => hlast _
  · exact hlast _

theorem dispatch_stays (status : ShipmentStatus) : Stays toLowerCase (dispatch id status) := by
  unfold dispatch
  split
  · refine stays_bind (transitionStatus_stays _ _) fun _ => ?_
    exact stays_bind (transitionStatus_stays _ _) fun _ => stays_done _
  split
  · exact stays_bind (transitionStatus_stays _ _) fun _ => stays_done _
  · exact stays_done _

theorem schedulePickup_stays (token : ℕ) (dto : SchedulePickupDto) :
    Stays toLowerCase (schedulePickup token dto) := by
  refine stays_withLock (stays_bind (stays_of_keeps (keeps_requireShipment _ _)) fun shipment => ?_)
  refine stays_orThrowBind fun ref => ?_
  refine stays_bind (stays_of_keeps (keeps_query _)) fun packages => ?_
  refine stays_bind (stays_of_keeps (keeps_carrier _ _)) fun pickup => ?_
  refine stays_bind (stays_of_keeps (keeps_insertPickup _ _ _ _)) fun requestId => ?_
  refine stays_bind (stays_of_keeps (keeps_linkPickup _ _)) fun _ => ?_
  refine stays_bind (dispatch_stays _) fun _ => ?_
  exact stays_bind (stays_of_keeps (keeps_invalidateShipment _)) fun _ => stays_done _

theorem insertShipment_but {row : ℕ → Shipment} {hrow : ∀ n, key (row n) = n} {s' : ShippingState}
    {shipment : Shipment} (hs : InStep s) (h : insertShipment row hrow s = .ok (shipment, s')) :
    InStepBut shipment.id shipment.status s' := by
  simp only [insertShipment, bind_eq_ok, check_eq_ok, pure_eq_ok] at h
  obtain ⟨-, -, -, -, -, -, -, -, -, -, -, -, -, -, -, -, h⟩ := h
  obtain ⟨rfl, rfl⟩ := Prod.mk.inj h
  have hid : (row s.shipments.next).id = s.shipments.next := hrow _
  refine hs.write (funext fun j => ?_) rfl
  simp only [statusOf]
  rw [Table.find?_insert hrow, hid]
  by_cases hj : j = s.shipments.next
  · rw [if_pos hj, hj, Function.update_self, Option.map_some]
  · rw [if_neg hj, Function.update_of_ne hj, statusOf]

theorem insertShipment_row {row : ℕ → Shipment} {hrow : ∀ n, key (row n) = n}
    {s' : ShippingState} {shipment : Shipment}
    (h : insertShipment row hrow s = .ok (shipment, s')) : shipment = row s.shipments.next := by
  simp only [insertShipment, bind_eq_ok, check_eq_ok, pure_eq_ok] at h
  obtain ⟨-, -, -, -, -, -, -, -, -, -, -, -, -, -, -, -, h⟩ := h
  exact (Prod.mk.inj h).1.symm

/-- The record of one shipment is still to be written, unless the program has failed. -/
def Owes (id : ℕ) (target : ShipmentStatus) : Except Failure Unit → ShippingState → Prop
  | .ok _, t => InStepBut id target t
  | .error _, t => InStep t

theorem creation_step {l : ShippingCall} {f : ShippingInput → ShippingState →
      Except Failure (Unit × ShippingState)} (hl : swallowed l = false)
    (htaken : ∀ i e, f i s = .error e → taken l i s = false)
    (hkeeps : ∀ i b u, f i s = .ok (b, u) → Alike s u) (hs : InStepBut id target s) :
    Alone (InTime toLowerCase) (Owes id target) (atomic l f) s := by
  refine Alone.atomic (fun i b u _ _ hu => hs.alike (hkeeps i b u hu)) fun i e ho he => ?_
  refine inStep_of_refused ho hl ?_
  rcases he with hf | he
  · simp [taken, hf]
  · exact htaken i e he

theorem insertParts_owes (dto : CreateShipmentDto) (shipment : Shipment)
    (hs : InStepBut id target s) :
    Alone (InTime toLowerCase) (Owes id target) (insertParts dto shipment) s := by
  refine Alone.bind (creation_step rfl (fun i e he => ?_) (fun i b u hu => ?_) hs)
    (fun _ t ht => ?_) fun _ _ ht => ht
  · simp [taken, he, Except.isOk, Except.toBool]
  · exact alike_insertPackages hu
  · split
    · exact Alone.done ht
    · refine creation_step rfl (fun i e he => ?_) (fun i b u hu => alike_insertItems hu) ht
      simp [taken, he, Except.isOk, Except.toBool]

theorem assignNumber_owes (shipment : Shipment) (hs : InStepBut id target s) :
    Alone (InTime toLowerCase) (Owes id target) (assignNumber shipment) s := by
  unfold assignNumber
  split
  · exact Alone.done hs
  · refine creation_step rfl (fun i e he => ?_) (fun i b u hu => alike_assignAwb hu) hs
    simp [taken, he, Except.isOk, Except.toBool]

theorem recordShipment_stays (dto : CreateShipmentDto) (order : ShippedOrder)
    (partner : ShippingPartner) (number : String) (reply : CarrierReply) :
    Stays toLowerCase (recordShipment dto order partner number reply) := by
  intro s hs
  refine Alone.atomicBind (fun i shipment u _ _ hu => ?_) fun _ _ _ _ => hs
  have hcreated : InStepBut shipment.id .created u := by
    have hbut := insertShipment_but hs hu
    have hstatus : shipment.status = .created := by rw [insertShipment_row hu, newShipment]
    rwa [hstatus] at hbut
  refine Alone.bind (insertParts_owes dto shipment hcreated) (fun _ t ht => ?_) fun _ _ ht => ht
  refine Alone.bind (assignNumber_owes shipment ht) (fun _ t ht => ?_) fun _ _ ht => ht
  refine Alone.bind (track_inStep none ht) (fun _ t ht => ?_) fun _ _ ht => ht
  exact stays_bind (stays_of_keeps (keeps_appendEvent _ _ _)) (fun _ => stays_done _) t ht

theorem createShipment_stays (token : ℕ) (dto : CreateShipmentDto) :
    Stays toLowerCase (createShipment token dto) := by
  refine stays_withLock (stays_bind (stays_of_keeps (keeps_query _)) fun found => ?_)
  refine stays_orThrowBind fun order => ?_
  refine stays_bind (stays_of_keeps (keeps_choosePartner _)) fun chosen => ?_
  refine stays_orThrowBind fun partner => ?_
  refine stays_bind (stays_of_keeps (Prog.every_ensure _ _)) fun _ => ?_
  refine stays_bind (stays_of_keeps keeps_clock) fun now => ?_
  refine stays_bind (stays_of_keeps (keeps_carrier _ _)) fun reply => ?_
  exact recordShipment_stays dto order partner _ reply

end ShippingService

theorem createRto_stays (token : ℕ) (dto : ReverseLogisticsService.CreateRtoDto) :
    Stays toLowerCase (ReverseLogisticsService.createRto token dto) := by
  refine stays_withLock (stays_bind (stays_of_keeps (ShippingService.keeps_requireShipment _ _))
    fun forward => ?_)
  refine stays_bind (stays_of_keeps (keeps_insertRto _ _)) fun rto => ?_
  have hreturn : Stays toLowerCase (ReverseLogisticsService.returnForward forward rto) := by
    unfold ReverseLogisticsService.returnForward
    split
    · refine stays_bind (stays_of_keeps (Prog.every_ensure _ _)) fun _ s hs => ?_
      refine Alone.atomicBind (fun i b u ho hf _ => ?_) fun _ _ _ _ => hs
      have hproper := ho.2
      simp [proper, hf] at hproper
    · exact stays_done _
  refine stays_bind hreturn fun _ => ?_
  exact stays_bind (stays_of_keeps (keeps_announceRto _ _)) fun _ => stays_done _

theorem request_stays (token : ℕ) (r : ShippingRequest)
    (hlower : ∀ status : ShipmentStatus, toLowerCase status.text = status.text) :
    Stays toLowerCase (r.prog toLowerCase token) := by
  have hdrop : ∀ {α : Type} {p : ShippingProg α}, Stays toLowerCase p →
      Stays toLowerCase (p.bind fun _ => (pure () : ShippingProg Unit)) :=
    fun hp => stays_bind hp fun _ => stays_done _
  cases r with
  | createShipment dto => exact hdrop (ShippingService.createShipment_stays token dto)
  | updateStatus id dto => exact hdrop (ShippingService.updateStatus_stays token dto)
  | generateLabel id => exact hdrop (ShippingService.generateLabel_stays token)
  | schedulePickup dto => exact hdrop (ShippingService.schedulePickup_stays token dto)
  | syncTracking id => exact hdrop (ShippingService.syncTracking_stays token hlower)
  | createRto dto => exact hdrop (createRto_stays token dto)

end Calls

/-! ### Whole runs -/

def tokened (toLowerCase : String → String) (q : ℕ × ShippingRequest) : ShippingProg Unit :=
  q.2.prog toLowerCase q.1

/-- After every call of every sequence of calls. -/
theorem tracking_in_step {toLowerCase : String → String} {start s : ShippingState}
    {calls : List ((ℕ × ShippingRequest) × Except Failure Unit)}
    (hlower : ∀ status : ShipmentStatus, toLowerCase status.text = status.text)
    (hstart : InStep start)
    (h : Pool.History (InTime toLowerCase) (tokened toLowerCase) start calls s) : InStep s := by
  refine h.invariant (P := fun _ t => InStep t) hstart fun _ t q r u ht hr => ?_
  exact ran_alone (request_stays q.1 q.2 hlower t ht) hr

/-- A request by itself, whose calls get the given answer. -/
def answered (r : ShippingRequest) (s : ShippingState) (n : ℕ) (reply : CarrierReply) :
    Pool ShippingCall ShippingInput ShippingState Failure Unit :=
  Pool.solo (tokened id (0, r)) s (List.replicate n { reply })

def delivered : ShippingState :=
  (answered (.updateStatus 0 ⟨"delivered", none⟩) outForDelivery 7 {}).state

theorem tracking_in_step_delivered :
    InStep (answered (.syncTracking 0) delivered 9 { status := "delivered" }).state := by
  have hdelivered : Pool.Ran (InTime id) (tokened id (0, .updateStatus 0 ⟨"delivered", none⟩))
      outForDelivery (.ok ()) delivered :=
    ⟨List.replicate 7 { reply := {} }, by decide +kernel, by decide +kernel, rfl⟩
  have hsynced : Pool.Ran (InTime id) (tokened id (0, .syncTracking 0)) delivered (.ok ())
      (answered (.syncTracking 0) delivered 9 { status := "delivered" }).state :=
    ⟨List.replicate 9 { reply := { status := "delivered" } }, by decide +kernel,
      by decide +kernel, rfl⟩
  exact tracking_in_step (fun _ => rfl) (by decide +kernel) (.snoc (.snoc .nil hdelivered) hsynced)

/-- An RTO returns the shipment but not its record, and the record follows a report that the
shipment refuses. -/
theorem tracking_out_of_step :
    InStep outForDelivery ∧
    (answered (.createRto ⟨0, none⟩) outForDelivery 7 {}).result? = some (.ok ()) ∧
    ¬ InStep (answered (.createRto ⟨0, none⟩) outForDelivery 7 {}).state ∧
    (answered (.syncTracking 0) outForDelivery 11 { status := "packed" }).result? = some (.ok ()) ∧
    ¬ InStep (answered (.syncTracking 0) outForDelivery 11 { status := "packed" }).state := by
  decide +kernel

end ElectronicsCart.Shipping
