import ElectronicsCart.Shipping.Service

/-!
# The status of a shipment over any interleaving

`updateStatus`, `generateLabel`, `schedulePickup`, `syncTracking` and `createRto` hold five different
locks.  Each of them checks a transition against the status it has read; the write that follows does
not look at the row again.
-/

namespace ElectronicsCart.Shipping

open Interleaving Relational ShipmentRepository

/-! ### The two places of a status -/

def statusOf (s : ShippingState) (id : ℕ) : Option ShipmentStatus :=
  (s.shipments.find? id).map Shipment.status

def trackedOf (s : ShippingState) (id : ℕ) : Option ShipmentStatus :=
  (trackingOf id s).map ShipmentTracking.currentStatus

structure Alike (s s' : ShippingState) : Prop where
  status : statusOf s' = statusOf s
  tracked : trackedOf s' = trackedOf s
  partners : s'.partners = s.partners

namespace Alike

theorem refl (s : ShippingState) : Alike s s := ⟨rfl, rfl, rfl⟩

theorem trans {s s' s'' : ShippingState} (h : Alike s s') (h' : Alike s' s'') : Alike s s'' :=
  ⟨h'.status.trans h.status, h'.tracked.trans h.tracked, h'.partners.trans h.partners⟩

theorem of_eq {s s' : ShippingState} (hs : s'.shipments = s.shipments)
    (ht : s'.tracking = s.tracking) (hp : s'.partners = s.partners) : Alike s s' := by
  refine ⟨funext fun id => ?_, funext fun id => ?_, hp⟩
  · rw [statusOf, statusOf, hs]
  · rw [trackedOf, trackedOf, trackingOf, trackingOf, ht]

end Alike

theorem updateShipment_cases {id : ℕ} {g : Shipment → Shipment} {hg : ∀ a, key (g a) = key a}
    {s s' : ShippingState} {b : Shipment} (h : updateShipment id g hg s = .ok (b, s')) :
    ∃ a, s.shipments.find? id = some a ∧ s' = { s with shipments := s.shipments.update id g hg } := by
  unfold updateShipment at h
  split at h
  · cases h
  next a ha =>
    obtain ⟨-, rfl⟩ := Prod.mk.inj (Except.ok.inj h)
    exact ⟨a, ha, rfl⟩

theorem statusOf_update {id : ℕ} {g : Shipment → Shipment} {hg : ∀ a, key (g a) = key a}
    {target : ShipmentStatus} {s s' : ShippingState} {b : Shipment}
    (h : updateShipment id g hg s = .ok (b, s')) (hstatus : ∀ a, (g a).status = target) :
    (∃ current, statusOf s id = some current) ∧
      statusOf s' = Function.update (statusOf s) id (some target) ∧ trackedOf s' = trackedOf s := by
  obtain ⟨a, ha, rfl⟩ := updateShipment_cases h
  refine ⟨⟨a.status, by simp [statusOf, ha]⟩, ?_, rfl⟩
  funext j
  by_cases hj : j = id
  · subst hj
    simp only [statusOf, Function.update_self]
    rw [Table.find?_update_self hg ha, Option.map_some, hstatus]
  · rw [Function.update_of_ne hj, statusOf, statusOf]
    exact congrArg _ (Table.find?_update_ne hg hj)

theorem alike_update {id : ℕ} {g : Shipment → Shipment} {hg : ∀ a, key (g a) = key a}
    {s s' : ShippingState} {b : Shipment} (h : updateShipment id g hg s = .ok (b, s'))
    (hstatus : ∀ a, (g a).status = a.status) : Alike s s' := by
  obtain ⟨a, ha, rfl⟩ := updateShipment_cases h
  refine ⟨?_, rfl, rfl⟩
  funext j
  simp only [statusOf]
  rw [Table.find?_update hg, Option.map_map]
  refine Option.map_congr fun c _ => ?_
  rw [Function.comp_apply]
  split
  · exact hstatus c
  · rfl

theorem alike_appendEvent {shipmentId now : ℕ} {data : EventData} {s s' : ShippingState}
    {u : Unit} (h : appendTrackingEvent shipmentId data now s = .ok (u, s')) : Alike s s' := by
  simp only [appendTrackingEvent, bind_eq_ok, check_eq_ok, pure_eq_ok] at h
  obtain ⟨status, -, -, -, occurredAt, -, h⟩ := h
  obtain ⟨-, rfl⟩ := Prod.mk.inj h
  exact .of_eq rfl rfl rfl

theorem alike_insertPackage {shipmentId : ℕ} {p : PackageDto} {s s' : ShippingState}
    (h : insertPackage shipmentId s p = .ok s') : Alike s s' := by
  simp only [insertPackage, bind_eq_ok, check_eq_ok, pure_eq_ok] at h
  obtain ⟨-, -, -, -, -, -, -, -, rfl⟩ := h
  exact .of_eq rfl rfl rfl

theorem alike_insertItem {shipmentId : ℕ} {item : ShipmentItemDto} {s s' : ShippingState}
    (h : insertItem shipmentId s item = .ok s') : Alike s s' := by
  simp only [insertItem, bind_eq_ok, check_eq_ok, pure_eq_ok] at h
  obtain ⟨-, -, -, -, rfl⟩ := h
  exact .of_eq rfl rfl rfl

theorem alike_foldlM {α : Type} {f : ShippingState → α → Except Failure ShippingState}
    (hf : ∀ a t t', f t a = .ok t' → Alike t t') {as : List α} {s s' : ShippingState}
    (h : as.foldlM f s = .ok s') : Alike s s' := by
  induction as generalizing s with
  | nil =>
    obtain rfl := Except.ok.inj h
    exact .refl s
  | cons a as ih =>
    simp only [List.foldlM_cons, bind_eq_ok] at h
    obtain ⟨t, ht, h⟩ := h
    exact (hf a s t ht).trans (ih h)

theorem alike_insertPackages {shipmentId : ℕ} {packages : List PackageDto} {s s' : ShippingState}
    {u : Unit} (h : insertPackages shipmentId packages s = .ok (u, s')) : Alike s s' := by
  simp only [insertPackages, bind_eq_ok, pure_eq_ok] at h
  obtain ⟨t, ht, h⟩ := h
  obtain ⟨-, rfl⟩ := Prod.mk.inj h
  exact alike_foldlM (fun _ _ _ => alike_insertPackage) ht

theorem alike_insertItems {shipmentId : ℕ} {items : List ShipmentItemDto} {s s' : ShippingState}
    {u : Unit} (h : insertItems shipmentId items s = .ok (u, s')) : Alike s s' := by
  simp only [insertItems, bind_eq_ok, pure_eq_ok] at h
  obtain ⟨t, ht, h⟩ := h
  obtain ⟨-, rfl⟩ := Prod.mk.inj h
  exact alike_foldlM (fun _ _ _ => alike_insertItem) ht

theorem alike_assignAwb {shipmentId partnerId now : ℕ} {awb : String} {s s' : ShippingState}
    {u : Unit} (h : assignAwb shipmentId partnerId awb now s = .ok (u, s')) : Alike s s' := by
  simp only [assignAwb, bind_eq_ok, check_eq_ok, pure_eq_ok] at h
  obtain ⟨-, -, h⟩ := h
  obtain ⟨-, rfl⟩ := Prod.mk.inj h
  exact .of_eq rfl rfl rfl

/-! ### Calls that leave both alone -/

abbrev Keeps {α : Type} (p : ShippingProg α) : Prop :=
  p.Every (fun _ _ _ => True) fun _ _ s s' => Alike s s'

section Keeping

variable {α : Type}

theorem keeps_query {l : ShippingCall} (f : ShippingInput → ShippingState → α) :
    Keeps (query l f) :=
  every_query fun _ s _ => .refl s

theorem keeps_atomic {l : ShippingCall}
    {f : ShippingInput → ShippingState → Except Failure (α × ShippingState)}
    (h : ∀ i s b s', f i s = .ok (b, s') → Alike s s') : Keeps (atomic l f) :=
  every_atomic (fun _ s _ => .refl s) fun i s b s' _ _ hs => h i s b s' hs

theorem keeps_clock : Keeps clock := Prog.every_call fun _ s _ => .refl s

theorem keeps_carrier (shipmentId : Option ℕ) (request : CarrierRequest) :
    Keeps (carrier shipmentId request) :=
  Prog.every_call fun _ s _ => .refl s

theorem keeps_invalidateShipment (shipmentId : ℕ) : Keeps (invalidateShipment shipmentId) := by
  refine Prog.every_call fun i s _ => ?_
  dsimp only
  split
  · exact .refl s
  · exact .of_eq rfl rfl rfl

namespace ShippingService

theorem keeps_requireShipment (id : ℕ) (caught : Bool) : Keeps (requireShipment id caught) :=
  (keeps_query _).bind fun _ => Prog.every_orThrow _ _

theorem keeps_appendEvent (shipmentId : ℕ) (data : EventData) (caught : Bool) :
    Keeps (appendEvent shipmentId data caught) :=
  keeps_atomic fun _ _ _ _ h => alike_appendEvent h

theorem keeps_syncFulfillment (fulfillmentOrderId : Option ℕ) (status : String) :
    Keeps (syncFulfillment fulfillmentOrderId status) := by
  unfold syncFulfillment
  split
  · refine (keeps_atomic fun i s b s' h => ?_).attempt.bind fun _ => Prog.every_done _
    simp only [bind_eq_ok, check_eq_ok, pure_eq_ok] at h
    obtain ⟨-, -, h⟩ := h
    obtain ⟨-, rfl⟩ := Prod.mk.inj h
    exact .of_eq rfl rfl rfl
  · exact Prog.every_done _

theorem keeps_insertLabel (shipmentId : ℕ) (reply : CarrierReply) :
    Keeps (insertLabel shipmentId reply) := by
  refine keeps_atomic fun i s b s' h => ?_
  simp only [bind_eq_ok, check_eq_ok, pure_eq_ok] at h
  obtain ⟨-, -, h⟩ := h
  obtain ⟨-, rfl⟩ := Prod.mk.inj h
  exact .of_eq rfl rfl rfl

theorem keeps_insertPickup (shipment : Shipment) (reply : CarrierReply) (packageCount : ℕ)
    (notes : Option String) : Keeps (insertPickup shipment reply packageCount notes) := by
  refine keeps_atomic fun i s b s' h => ?_
  simp only [bind_eq_ok, check_eq_ok, pure_eq_ok] at h
  obtain ⟨-, -, -, -, h⟩ := h
  obtain ⟨-, rfl⟩ := Prod.mk.inj h
  exact .of_eq rfl rfl rfl

theorem keeps_linkPickup (shipmentId requestId : ℕ) : Keeps (linkPickup shipmentId requestId) :=
  keeps_atomic fun _ _ _ _ h => alike_update h fun _ => rfl

theorem keeps_appendEvents (shipmentId : ℕ) (events : List CarrierEvent) :
    Keeps (appendEvents shipmentId events) := by
  induction events with
  | nil => exact Prog.every_done _
  | cons e es ih => exact (keeps_appendEvent _ _ _).bind fun _ => ih

theorem keeps_recordEta (shipment : Shipment) (eta : Option ℕ) : Keeps (recordEta shipment eta) := by
  cases eta with
  | none => exact Prog.every_done _
  | some eta =>
    refine Prog.Every.bind ?_ fun _ => Prog.Every.bind ?_ fun _ => Prog.every_done _
    · refine keeps_atomic fun i s b s' h => ?_
      obtain ⟨-, rfl⟩ := Prod.mk.inj (Except.ok.inj h)
      exact .of_eq rfl rfl rfl
    · exact keeps_atomic fun _ _ _ _ h => alike_update h fun _ => rfl

theorem keeps_getTracking (shipmentId : ℕ) : Keeps (getTracking shipmentId) := by
  refine Prog.Every.bind (Prog.every_call fun _ s _ => .refl s) fun hit => ?_
  split
  · exact Prog.every_done _
  · refine (keeps_query _).bind fun _ => (Prog.every_orThrow _ _).bind fun view => ?_
    refine Prog.Every.bind (Prog.every_call fun i s _ => ?_) fun _ => Prog.every_done _
    dsimp only
    split
    · exact .refl s
    · exact .of_eq rfl rfl rfl

theorem keeps_choosePartner (partnerId : Option ℕ) : Keeps (choosePartner partnerId) := by
  have hnamed : Keeps (namedPartner partnerId) := by
    cases partnerId with
    | none => exact Prog.every_done _
    | some id => exact keeps_query _
  refine Prog.Every.bind hnamed fun named => ?_
  split
  · exact Prog.every_done _
  · refine (keeps_query _).bind fun primary => ?_
    split
    · exact Prog.every_done _
    · exact keeps_query _

theorem keeps_insertParts (dto : CreateShipmentDto) (shipment : Shipment) :
    Keeps (insertParts dto shipment) := by
  refine Prog.Every.bind (keeps_atomic fun _ _ _ _ h => alike_insertPackages h) fun _ => ?_
  split
  · exact Prog.every_done _
  · exact keeps_atomic fun _ _ _ _ h => alike_insertItems h

theorem keeps_assignNumber (shipment : Shipment) : Keeps (assignNumber shipment) := by
  unfold assignNumber
  split
  · exact Prog.every_done _
  · exact keeps_atomic fun _ _ _ _ h => alike_assignAwb h

end ShippingService

theorem keeps_insertRto (forward : Shipment) (reason : Option String) :
    Keeps (ReverseLogisticsService.insertRto forward reason) := by
  refine keeps_atomic fun i s b s' h => ?_
  simp only [bind_eq_ok, check_eq_ok, pure_eq_ok] at h
  obtain ⟨-, -, h⟩ := h
  obtain ⟨-, rfl⟩ := Prod.mk.inj h
  exact .of_eq rfl rfl rfl

theorem keeps_announceRto (forward : Shipment) (rto : RtoShipment) :
    Keeps (ReverseLogisticsService.announceRto forward rto) := by
  refine Prog.every_call fun i s _ => ?_
  dsimp only
  split
  · exact .of_eq rfl rfl rfl
  · exact .of_eq rfl rfl rfl

end Keeping

/-! ### Edges of the status graph -/

/-- No shipment is lost, and each one keeps its status or takes an edge of the graph. -/
def EdgeStep (s s' : ShippingState) : Prop :=
  ∀ id current, statusOf s id = some current → ∃ next, statusOf s' id = some next ∧
    (next = current ∨ next ∈ shipmentTransitions current)

theorem EdgeStep.of_status {s s' : ShippingState} (h : statusOf s' = statusOf s) : EdgeStep s s' := by
  intro id current hc
  exact ⟨current, by rw [h, hc], .inl rfl⟩

theorem EdgeStep.refl (s : ShippingState) : EdgeStep s s := .of_status rfl

theorem EdgeStep.write {s s' : ShippingState} {id : ℕ} {source target : ShipmentStatus}
    (hsource : statusOf s id = some source)
    (hedge : target = source ∨ target ∈ shipmentTransitions source)
    (h : statusOf s' = Function.update (statusOf s) id (some target)) : EdgeStep s s' := by
  intro j current hc
  by_cases hj : j = id
  · subst hj
    obtain rfl : source = current := Option.some.inj (hsource.symm.trans hc)
    exact ⟨target, by rw [h, Function.update_self], hedge⟩
  · exact ⟨current, by rw [h, Function.update_of_ne hj, hc], .inl rfl⟩

theorem canTransition_cases {current target : ShipmentStatus} {t : String}
    (h : canTransition current t = true) (ht : ShipmentStatus.parse t = some target) :
    target = current ∨ target ∈ shipmentTransitions current := by
  have htext : target.text = t := by simpa using List.find?_some ht
  simp only [canTransition, Bool.or_eq_true, List.any_eq_true, beq_iff_eq, ← htext] at h
  rcases h with h | ⟨next, hnext, h⟩
  · exact .inl (ShipmentStatus.text_injective h).symm
  · rw [ShipmentStatus.text_injective h] at hnext
    exact .inr hnext

theorem canTransition_of_mem {current target : ShipmentStatus}
    (h : target ∈ shipmentTransitions current) : canTransition current target.text = true := by
  simp only [canTransition, Bool.or_eq_true, List.any_eq_true]
  exact .inr ⟨target, h, by simp⟩

def readStatus? : ShippingCall → Option (ℕ × ShipmentStatus)
  | .applyStatus id source _ _ => some (id, source)
  | .applyReturn id source => some (id, source)
  | _ => none

/-- A status write that goes through meets the status that its caller had read. -/
def AsRead (l : ShippingCall) (i : ShippingInput) (s : ShippingState) : Prop :=
  i.fails = true ∨ (readStatus? l).all (fun r => statusOf s r.1 == some r.2) = true

instance (l : ShippingCall) (i : ShippingInput) (s : ShippingState) : Decidable (AsRead l i s) :=
  inferInstanceAs (Decidable (_ ∨ _))

abbrev Follows {α : Type} (p : ShippingProg α) : Prop := p.Every AsRead fun _ _ s s' => EdgeStep s s'

section Following

variable {α β : Type}

theorem follows_of_keeps {p : ShippingProg α} (hp : Keeps p) : Follows p :=
  hp.imp (fun _ _ _ _ => trivial) fun _ _ _ _ _ h => .of_status h.status

theorem follows_ensureBind {c : Prop} [Decidable c] {e : Failure} {k : Unit → ShippingProg α}
    (hk : c → Follows (k ())) : Follows ((Prog.ensure c e).bind k) := by
  by_cases hc : c
  · rw [Prog.ensure, if_pos hc]
    exact hk hc
  · rw [Prog.ensure, if_neg hc]
    exact Prog.every_done _

theorem follows_orThrowBind {o : Option β} {e : Failure} {k : β → ShippingProg α}
    (hk : ∀ b, o = some b → Follows (k b)) : Follows ((Prog.orThrow e o).bind k) := by
  cases o with
  | none => exact Prog.every_done _
  | some b => exact hk b rfl

theorem follows_write {l : ShippingCall} {id : ℕ} {source target : ShipmentStatus}
    {f : ShippingInput → ShippingState → Except Failure (Shipment × ShippingState)}
    (hl : readStatus? l = some (id, source))
    (hedge : target = source ∨ target ∈ shipmentTransitions source)
    (hwrite : ∀ i s b s', f i s = .ok (b, s') →
      statusOf s' = Function.update (statusOf s) id (some target)) : Follows (atomic l f) := by
  refine every_atomic (fun _ s _ => .refl s) fun i s b s' ho hf hs => ?_
  refine .write ?_ hedge (hwrite i s b s' hs)
  rcases ho with ho | ho
  · rw [hf] at ho
    cases ho
  · simpa [hl] using ho

namespace ShippingService

theorem upsertTracking_cases {id now : ℕ} {status : String} {location : Option String}
    {s s' : ShippingState} {u : Unit} (h : upsertTracking id status location now s = .ok (u, s')) :
    ∃ tracking, s' = { s with tracking } := by
  simp only [upsertTracking, bind_eq_ok] at h
  obtain ⟨status, -, h⟩ := h
  split at h
  · simp only [pure_eq_ok] at h
    exact ⟨_, (Prod.mk.inj h).2.symm⟩
  · simp only [bind_eq_ok, pure_eq_ok] at h
    obtain ⟨-, -, h⟩ := h
    exact ⟨_, (Prod.mk.inj h).2.symm⟩

theorem follows_track (shipmentId : ℕ) (status : String) (location : Option String)
    (caught : Bool) : Follows (track shipmentId status location caught) := by
  refine every_atomic (fun _ s _ => .refl s) fun i s b s' _ _ h => ?_
  obtain ⟨tracking, rfl⟩ := upsertTracking_cases h
  exact .of_status rfl

theorem follows_moveTo {shipmentId : ℕ} {source target : ShipmentStatus}
    (hedge : target = source ∨ target ∈ shipmentTransitions source) (reason : Option String)
    (caught : Bool) : Follows (moveTo shipmentId source target reason caught) := by
  refine Prog.Every.bind ?_ fun updated => ?_
  · exact follows_write rfl hedge fun i s b s' h => (statusOf_update h fun _ => rfl).2.1
  refine Prog.Every.bind (follows_of_keeps (keeps_appendEvent _ _ _)) fun _ => ?_
  exact (follows_track _ _ _ _).bind fun _ => Prog.every_done _

theorem follows_transitionStatus (shipmentId : ℕ) (status : String) (reason : Option String)
    (caught : Bool) : Follows (transitionStatus shipmentId status reason caught) := by
  refine Prog.Every.bind (follows_of_keeps (keeps_requireShipment _ _)) fun shipment => ?_
  refine follows_ensureBind fun hcan => follows_orThrowBind fun target htarget => ?_
  have hsync := follows_of_keeps (keeps_syncFulfillment shipment.fulfillmentOrderId status)
  have hedge := canTransition_cases hcan htarget
  split
  · exact hsync.bind fun _ => Prog.every_done _
  · exact (follows_moveTo hedge _ _).bind fun updated => hsync.bind fun _ => Prog.every_done _

theorem follows_withLock {key : ShippingLock} {token : ℕ} {p : ShippingProg α} (hp : Follows p) :
    Follows (LockService.withLock key token p) :=
  LockService.every_withLock (fun _ _ _ s _ _ => ⟨.refl s, .of_status rfl⟩) hp

theorem follows_updateStatus (token shipmentId : ℕ) (dto : UpdateShipmentStatusDto) :
    Follows (updateStatus token shipmentId dto) := by
  refine follows_withLock ((follows_transitionStatus _ _ _ _).bind fun updated => ?_)
  exact (follows_of_keeps (keeps_invalidateShipment _)).bind fun _ => Prog.every_orThrow _ _

theorem follows_generateLabel (token shipmentId : ℕ) : Follows (generateLabel token shipmentId) := by
  refine follows_withLock ?_
  refine Prog.Every.bind (follows_of_keeps (keeps_requireShipment _ _)) fun shipment => ?_
  refine follows_orThrowBind fun ref _ => ?_
  refine Prog.Every.bind (follows_of_keeps (keeps_carrier _ _)) fun label => ?_
  refine Prog.Every.bind (follows_of_keeps (keeps_insertLabel _ _)) fun _ => ?_
  have hlast : ∀ r : LabelResult, Follows ((invalidateShipment shipmentId).bind fun _ => pure r) :=
    fun r => (follows_of_keeps (keeps_invalidateShipment _)).bind fun _ => Prog.every_done _
  split
  · exact (follows_transitionStatus _ _ _ _).bind fun _ => hlast _
  · exact hlast _

theorem follows_dispatch (shipmentId : ℕ) (status : ShipmentStatus) :
    Follows (dispatch shipmentId status) := by
  unfold dispatch
  split
  · refine Prog.Every.bind (follows_transitionStatus _ _ _ _) fun _ => ?_
    exact (follows_transitionStatus _ _ _ _).bind fun _ => Prog.every_done _
  split
  · exact (follows_transitionStatus _ _ _ _).bind fun _ => Prog.every_done _
  · exact Prog.every_done _

theorem follows_schedulePickup (token : ℕ) (dto : SchedulePickupDto) :
    Follows (schedulePickup token dto) := by
  refine follows_withLock ?_
  refine Prog.Every.bind (follows_of_keeps (keeps_requireShipment _ _)) fun shipment => ?_
  refine follows_orThrowBind fun ref _ => ?_
  refine Prog.Every.bind (follows_of_keeps (keeps_query _)) fun packages => ?_
  refine Prog.Every.bind (follows_of_keeps (keeps_carrier _ _)) fun pickup => ?_
  refine Prog.Every.bind (follows_of_keeps (keeps_insertPickup _ _ _ _)) fun requestId => ?_
  refine Prog.Every.bind (follows_of_keeps (keeps_linkPickup _ _)) fun _ => ?_
  refine Prog.Every.bind (follows_dispatch _ _) fun _ => ?_
  exact (follows_of_keeps (keeps_invalidateShipment _)).bind fun _ => Prog.every_done _

theorem follows_followCarrier (shipment : Shipment) (mapped : Option ShipmentStatus) :
    Follows (followCarrier shipment mapped) := by
  unfold followCarrier
  split
  · exact Prog.every_done _
  split
  · exact Prog.every_done _
  · exact (follows_transitionStatus _ _ _ _).attempt.bind fun _ => Prog.every_done _

theorem follows_recordSync (shipment : Shipment) (sync : CarrierReply)
    (mapped : Option ShipmentStatus) : Follows (recordSync shipment sync mapped) := by
  refine Prog.Every.bind (follows_track _ _ _ _) fun _ => follows_of_keeps ?_
  refine Prog.Every.bind (keeps_appendEvents _ _) fun _ => ?_
  refine Prog.Every.bind (keeps_recordEta _ _) fun _ => ?_
  exact (keeps_invalidateShipment _).bind fun _ => keeps_getTracking _

theorem follows_syncTracking (toLowerCase : String → String) (token shipmentId : ℕ) :
    Follows (syncTracking toLowerCase token shipmentId) := by
  refine follows_withLock ?_
  refine Prog.Every.bind (follows_of_keeps (keeps_requireShipment _ _)) fun shipment => ?_
  refine Prog.Every.bind (follows_of_keeps (keeps_carrier _ _)) fun sync => ?_
  exact (follows_followCarrier _ _).bind fun _ => follows_recordSync _ _ _

theorem follows_insertShipment (orderId : ℕ) (row : ℕ → Shipment) (hrow : ∀ n, key (row n) = n) :
    Follows (atomic (.insertShipment orderId) fun _ s => insertShipment row hrow s) := by
  refine every_atomic (fun _ s _ => .refl s) fun i s b s' _ _ h => ?_
  simp only [insertShipment, bind_eq_ok, check_eq_ok, pure_eq_ok] at h
  obtain ⟨-, -, -, -, -, -, -, -, -, -, -, -, -, -, -, -, h⟩ := h
  obtain ⟨-, rfl⟩ := Prod.mk.inj h
  intro id current hc
  obtain ⟨a, ha, rfl⟩ := Option.map_eq_some_iff.mp hc
  refine ⟨a.status, ?_, .inl rfl⟩
  simp only [statusOf]
  rw [Table.find?_insert_of_some hrow ha, Option.map_some]

theorem follows_createShipment (token : ℕ) (dto : CreateShipmentDto) :
    Follows (createShipment token dto) := by
  refine follows_withLock ?_
  refine Prog.Every.bind (follows_of_keeps (keeps_query _)) fun found => ?_
  refine follows_orThrowBind fun order _ => ?_
  refine Prog.Every.bind (follows_of_keeps (keeps_choosePartner _)) fun chosen => ?_
  refine follows_orThrowBind fun partner _ => follows_ensureBind fun _ => ?_
  refine Prog.Every.bind (follows_of_keeps keeps_clock) fun now => ?_
  refine Prog.Every.bind (follows_of_keeps (keeps_carrier _ _)) fun reply => ?_
  refine Prog.Every.bind (follows_insertShipment _ _ _) fun shipment => ?_
  refine Prog.Every.bind (follows_of_keeps (keeps_insertParts _ _)) fun _ => ?_
  refine Prog.Every.bind (follows_of_keeps (keeps_assignNumber _)) fun _ => ?_
  refine Prog.Every.bind (follows_track _ _ _ _) fun _ => ?_
  exact (follows_of_keeps (keeps_appendEvent _ _ _)).bind fun _ => Prog.every_done _

end ShippingService

theorem follows_createRto (token : ℕ) (dto : ReverseLogisticsService.CreateRtoDto) :
    Follows (ReverseLogisticsService.createRto token dto) := by
  refine ShippingService.follows_withLock ?_
  refine Prog.Every.bind (follows_of_keeps (ShippingService.keeps_requireShipment _ _))
    fun forward => ?_
  refine Prog.Every.bind (follows_of_keeps (keeps_insertRto _ _)) fun rto => ?_
  have hreturn : Follows (ReverseLogisticsService.returnForward forward rto) := by
    unfold ReverseLogisticsService.returnForward
    split
    · refine follows_ensureBind fun hcan => ?_
      refine Prog.Every.bind ?_ fun _ => follows_of_keeps (ShippingService.keeps_appendEvent _ _ _)
      have hedge := canTransition_cases hcan (ShipmentStatus.parse_text .returned)
      exact follows_write rfl hedge fun i s b s' h => (statusOf_update h fun _ => rfl).2.1
    · exact Prog.every_done _
  refine hreturn.bind fun _ => ?_
  exact (follows_of_keeps (keeps_announceRto _ _)).bind fun _ => Prog.every_done _

theorem follows_request (toLowerCase : String → String) (token : ℕ) (r : ShippingRequest) :
    Follows (r.prog toLowerCase token) := by
  have hdrop : ∀ {α : Type} {p : ShippingProg α}, Follows p →
      Follows (p.bind fun _ => (pure () : ShippingProg Unit)) :=
    fun hp => hp.bind fun _ => Prog.every_done _
  cases r with
  | createShipment dto => exact hdrop (ShippingService.follows_createShipment token dto)
  | updateStatus id dto => exact hdrop (ShippingService.follows_updateStatus token id dto)
  | generateLabel id => exact hdrop (ShippingService.follows_generateLabel token id)
  | schedulePickup dto => exact hdrop (ShippingService.follows_schedulePickup token dto)
  | syncTracking id => exact hdrop (ShippingService.follows_syncTracking toLowerCase token id)
  | createRto dto => exact hdrop (follows_createRto token dto)

end Following

/-! ### Whole runs -/

/-- A status without an edge stays. -/
def FinalStays (s s' : ShippingState) : Prop :=
  ∀ id current, shipmentTransitions current = [] → statusOf s id = some current →
    statusOf s' id = some current

theorem EdgeStep.finalStays {s s' : ShippingState} (h : EdgeStep s s') : FinalStays s s' := by
  intro id current hfinal hc
  obtain ⟨next, hnext, rfl | hedge⟩ := h id current hc
  · exact hnext
  · rw [hfinal] at hedge
    exact (List.not_mem_nil hedge).elim

section Runs

variable (toLowerCase : String → String) (requests : List ShippingRequest) (start : ShippingState)

/-- Along every schedule of any requests, when each status write meets the status its caller had
read. -/
theorem status_follows_edges (sched : List (ℕ × ShippingInput))
    (h : (shippingPool toLowerCase requests start).Admits AsRead sched) :
    (∀ n, EdgeStep ((shippingPool toLowerCase requests start).run (sched.take n)).state
      ((shippingPool toLowerCase requests start).run (sched.take (n + 1))).state) ∧
    ∀ n id current, shipmentTransitions current = [] →
      statusOf ((shippingPool toLowerCase requests start).run (sched.take n)).state id =
        some current →
      statusOf ((shippingPool toLowerCase requests start).run sched).state id = some current := by
  have hthreads : ∀ t ∈ (shippingPool toLowerCase requests start).threads, Follows t := by
    intro t ht
    obtain ⟨token, hlt, rfl⟩ := List.mem_mapIdx.mp ht
    exact follows_request toLowerCase token _
  refine ⟨Pool.step_run EdgeStep.refl hthreads h, fun n => ?_⟩
  have hstay : ∀ t ∈ (shippingPool toLowerCase requests start).threads,
      t.Every AsRead fun _ _ s s' => FinalStays s s' :=
    fun t ht => (hthreads t ht).mono fun _ _ _ _ _ he => he.finalStays
  have hsplit : (shippingPool toLowerCase requests start).Admits AsRead
      (sched.take n ++ sched.drop n) := by
    rwa [List.take_append_drop]
  have hrun := Pool.related_run (R := FinalStays) (fun _ _ _ _ hc => hc)
    (fun h h' id current hfinal hc => h' id current hfinal (h id current hfinal hc)) hstay hsplit
  rwa [List.take_append_drop] at hrun

end Runs

def outForDelivery : ShippingState where
  orders := Table.empty.insert fun n => { id := n, grandTotal := 100 }
  warehouses := [0]
  partners := Table.empty.insert fun n => { id := n, code := "shiprocket", isPrimary := true }
  shipments := Table.empty.insert fun n =>
    { id := n, shipmentNumber := "SHP-1", orderId := 0, warehouseId := 0, partnerId := 0,
      status := .outForDelivery }
  tracking := Table.empty.insert fun n => ⟨n, 0, .outForDelivery, none, 0⟩

/-- It is delivered, and an RTO is asked for. -/
def deliveredAndReturned : List ShippingRequest :=
  [.updateStatus 0 ⟨"delivered", none⟩, .createRto ⟨0, none⟩]

/-- The given threads take a step each, and no call fails. -/
def smoothly (threads : List ℕ) : List (ℕ × ShippingInput) :=
  threads.map fun j => (j, { reply := {} })

theorem status_follows_edges_in_turn :
    statusOf ((shippingPool id deliveredAndReturned outForDelivery).run
      (smoothly [0, 0, 0, 1, 1, 0, 0, 0, 1, 1, 1])).state 0 = some .delivered := by
  refine (status_follows_edges id deliveredAndReturned outForDelivery
    (smoothly [0, 0, 0, 1, 1, 0, 0, 0, 1, 1, 1]) ?_).2 3 0 .delivered rfl ?_
  · decide +kernel
  · decide +kernel

/-- Both have read the shipment before either writes. -/
theorem delivered_then_returned :
    statusOf ((shippingPool id deliveredAndReturned outForDelivery).run
      (smoothly [0, 0, 1, 1, 1, 0])).state 0 = some .delivered ∧
    statusOf ((shippingPool id deliveredAndReturned outForDelivery).run
      (smoothly [0, 0, 1, 1, 1, 0, 1])).state 0 = some .returned ∧
    ShipmentStatus.returned ∉ shipmentTransitions .delivered := by
  decide +kernel

end ElectronicsCart.Shipping
