import ElectronicsCart.Shipping.TrackingRuns
import ElectronicsCart.Core.LockOutcomes

/-!
# Syncing again

`syncTracking` appends whatever the carrier reports, each time that it is called: all events of the
answer, and the ETA as a change of the ETA.  Two calls that get the same answer are compared here.
-/

namespace ElectronicsCart.Shipping

open Interleaving Relational ShipmentRepository

/-- No tracking event, no ETA and no status has been added or changed. -/
structure SameHistory (id : ℕ) (s s' : ShippingState) : Prop where
  events : s'.events = s.events
  etas : s'.etas = s.etas
  status : statusOf s' id = statusOf s id

structure HistoryGrows (s s' : ShippingState) : Prop where
  events : s.events.rows.length ≤ s'.events.rows.length
  etas : s.etas.rows.length ≤ s'.etas.rows.length

theorem SameHistory.refl (id : ℕ) (s : ShippingState) : SameHistory id s s := ⟨rfl, rfl, rfl⟩

theorem SameHistory.trans {id : ℕ} {s s' s'' : ShippingState} (h : SameHistory id s s')
    (h' : SameHistory id s' s'') : SameHistory id s s'' :=
  ⟨h'.events.trans h.events, h'.etas.trans h.etas, h'.status.trans h.status⟩

theorem HistoryGrows.of_eq {s s' : ShippingState} (he : s'.events = s.events)
    (ha : s'.etas = s.etas) : HistoryGrows s s' :=
  ⟨le_of_eq (by rw [he]), le_of_eq (by rw [ha])⟩

def storable (e : CarrierEvent) : Bool := (ShipmentStatus.parse e.status).isSome && e.occurredAt.isSome

def bringsRow (sync : CarrierReply) : Bool :=
  match sync.events with
  | [] => sync.eta.isSome
  | e :: _ => storable e

section Syncing

variable (toLowerCase : String → String) (id : ℕ) (sync : CarrierReply)

def recordedStatus : Option ShipmentStatus :=
  ShipmentStatus.parse
    (((ShippingService.mapCarrierStatus toLowerCase sync.status).map ShipmentStatus.text).getD
      sync.status)

structure Appends (s : ShippingState) : Prop where
  free : s.locks (.tracking id) = none
  found : (findById id s).isSome = true
  recorded : (recordedStatus toLowerCase sync).isSome = true
  row : bringsRow sync = true

instance (s : ShippingState) : Decidable (Appends toLowerCase id sync s) :=
  decidable_of_iff (s.locks (.tracking id) = none ∧ (findById id s).isSome = true ∧
    (recordedStatus toLowerCase sync).isSome = true ∧ bringsRow sync = true)
    ⟨fun ⟨hfree, hfound, hrecorded, hrow⟩ => ⟨hfree, hfound, hrecorded, hrow⟩,
      fun h => ⟨h.free, h.found, h.recorded, h.row⟩⟩

/-- What the carrier reports is the stored status, or one that may not follow it. -/
def Refuses (s : ShippingState) : Prop :=
  ∀ current target, statusOf s id = some current →
    ShippingService.mapCarrierStatus toLowerCase sync.status = some target →
    target = current ∨ target ∉ shipmentTransitions current

/-- A sync with this answer does not move the shipment. -/
def Stands (s : ShippingState) : Prop :=
  s.locks (.tracking id) ≠ none ∨ findById id s = none ∨ Refuses toLowerCase id sync s

/-- The carrier gives this answer, if it gives one. -/
def Reports (l : ShippingCall) (i : ShippingInput) (_ : ShippingState) : Prop :=
  match l with
  | .carrier _ _ => i.fails = true ∨ i.reply = sync
  | _ => True

/-- The carrier gives this answer, and the calls on which the transition depends go through. -/
def Answers (l : ShippingCall) (i : ShippingInput) (_ : ShippingState) : Prop :=
  match l with
  | .carrier _ _ => i.fails = false ∧ i.reply = sync
  | .acquire _ _ | .findShipment _ _ | .applyStatus _ _ _ _ => i.fails = false
  | _ => True

def Smooth (_ : ShippingCall) (i : ShippingInput) (_ : ShippingState) : Prop :=
  i.fails = false ∧ i.reply = sync

end Syncing

section Answered

variable {sync : CarrierReply} {l : ShippingCall} {i : ShippingInput} {s : ShippingState}

theorem Smooth.reports (h : Smooth sync l i s) : Reports sync l i s := by
  unfold Reports
  split
  · exact .inr h.2
  · trivial

theorem Smooth.answers (h : Smooth sync l i s) : Answers sync l i s := by
  unfold Answers
  split
  · exact h
  all_goals first | exact h.1 | trivial

end Answered

/-! ### What the calls append -/

section Rows

variable {s s' : ShippingState} {id now : ℕ} {u : Unit}

theorem sameHistory_upsert {t : String} {location : Option String}
    (h : upsertTracking id t location now s = .ok (u, s')) : SameHistory id s s' := by
  obtain ⟨tracking, rfl⟩ := ShippingService.upsertTracking_cases h
  exact ⟨rfl, rfl, rfl⟩

theorem upsert_succeeds {t : String} {location : Option String} {current : ShipmentStatus}
    (hs : statusOf s id = some current) (ht : (ShipmentStatus.parse t).isSome = true) (e : Failure) :
    upsertTracking id t location now s ≠ .error e := by
  obtain ⟨a, ha, -⟩ := Option.map_eq_some_iff.mp hs
  obtain ⟨status, hparse⟩ := Option.isSome_iff_exists.mp ht
  simp only [upsertTracking, statusColumn, hparse, bind, Except.bind, Option.elim_some]
  split
  · simp [pure, Except.pure]
  · simp [ha, check, demand, pure, Except.pure]

theorem append_length {data : EventData} (h : appendTrackingEvent id data now s = .ok (u, s')) :
    s'.events.rows.length = s.events.rows.length + 1 ∧ s'.etas = s.etas := by
  simp only [appendTrackingEvent, bind_eq_ok, check_eq_ok, pure_eq_ok] at h
  obtain ⟨status, -, -, -, occurredAt, -, h⟩ := h
  obtain ⟨-, rfl⟩ := Prod.mk.inj h
  exact ⟨by simp [Table.insert], rfl⟩

/-- The data of an event as `syncTracking` hands it on. -/
def eventData (e : CarrierEvent) : EventData :=
  ⟨e.status, e.code, e.description, e.location, some e.occurredAt⟩

theorem append_refused {e : CarrierEvent} (h : storable e = false) :
    ∃ failure, appendTrackingEvent id (eventData e) now s = .error failure := by
  cases hr : appendTrackingEvent id (eventData e) now s with
  | error failure => exact ⟨failure, rfl⟩
  | ok r =>
    exfalso
    simp only [appendTrackingEvent, bind_eq_ok, check_eq_ok] at hr
    obtain ⟨status, hstatus, -, -, occurredAt, hdate, -⟩ := hr
    cases hp : ShipmentStatus.parse e.status with
    | none => simp [statusColumn, eventData, hp] at hstatus
    | some st =>
      cases hd : e.occurredAt with
      | none => simp [eventData, hd] at hdate
      | some date => simp [storable, hp, hd] at h

theorem append_accepted {e : CarrierEvent} {current : ShipmentStatus} (h : storable e = true)
    (hs : statusOf s id = some current) (failure : Failure) :
    appendTrackingEvent id (eventData e) now s ≠ .error failure := by
  obtain ⟨a, ha, -⟩ := Option.map_eq_some_iff.mp hs
  obtain ⟨hp, hd⟩ := (Bool.and_eq_true _ _).mp h
  obtain ⟨status, hp⟩ := Option.isSome_iff_exists.mp hp
  obtain ⟨date, hd⟩ := Option.isSome_iff_exists.mp hd
  simp [appendTrackingEvent, eventData, statusColumn, hp, hd, ha, check, demand, bind, Except.bind,
    pure, Except.pure]

end Rows

section Growth

variable {α : Type}

abbrev HistoryGrowing (p : ShippingProg α) : Prop :=
  p.Every (fun _ _ _ => True) fun _ _ s s' => HistoryGrows s s'

theorem growing_appendEvent (id : ℕ) (data : EventData) (caught : Bool) :
    HistoryGrowing (ShippingService.appendEvent id data caught) := by
  refine every_atomic (fun _ s _ => .of_eq rfl rfl) fun i s b s' _ _ h => ?_
  obtain ⟨hevents, hetas⟩ := append_length h
  exact ⟨by omega, le_of_eq (by rw [hetas])⟩

theorem growing_appendEvents (id : ℕ) (events : List CarrierEvent) :
    HistoryGrowing (ShippingService.appendEvents id events) := by
  induction events with
  | nil => exact Prog.every_done _
  | cons e es ih => exact (growing_appendEvent _ _ _).bind fun _ => ih

theorem growing_updateEta (id eta : ℕ) : HistoryGrowing (ShippingService.updateEta id eta) := by
  refine every_atomic (fun _ s _ => .of_eq rfl rfl) fun i s b s' _ _ h => ?_
  obtain ⟨a, -, rfl⟩ := updateShipment_cases h
  exact .of_eq rfl rfl

theorem growing_recordEta (shipment : Shipment) (eta : Option ℕ) :
    HistoryGrowing (ShippingService.recordEta shipment eta) := by
  cases eta with
  | none => exact Prog.every_done _
  | some eta =>
    refine Prog.Every.bind ?_ fun _ => (growing_updateEta _ _).bind fun _ => Prog.every_done _
    refine every_atomic (fun _ s _ => .of_eq rfl rfl) fun i s b s' _ _ h => ?_
    obtain ⟨-, rfl⟩ := Prod.mk.inj (Except.ok.inj h)
    refine ⟨le_refl _, ?_⟩
    simp [Table.insert]

theorem sameHistory_invalidate (id shipmentId : ℕ) :
    (invalidateShipment shipmentId).Every (fun _ _ _ => True) fun _ _ s s' => SameHistory id s s' := by
  refine Prog.every_call fun i s _ => ?_
  dsimp only
  split
  · exact .refl id s
  · exact ⟨rfl, rfl, rfl⟩

theorem sameHistory_getTracking (id shipmentId : ℕ) :
    (ShippingService.getTracking shipmentId).Every (fun _ _ _ => True)
      fun _ _ s s' => SameHistory id s s' := by
  refine Prog.Every.bind (Prog.every_call fun _ s _ => .refl id s) fun hit => ?_
  split
  · exact Prog.every_done _
  · refine (every_query fun _ s _ => .refl id s).bind fun _ => (Prog.every_orThrow _ _).bind fun view => ?_
    refine Prog.Every.bind (Prog.every_call fun i s _ => ?_) fun _ => Prog.every_done _
    dsimp only
    split
    · exact .refl id s
    · exact ⟨rfl, rfl, rfl⟩

theorem growing_of_same {p : ShippingProg α} (id : ℕ)
    (hp : p.Every (fun _ _ _ => True) fun _ _ s s' => SameHistory id s s') : HistoryGrowing p :=
  hp.mono fun _ _ _ _ _ h => .of_eq h.events h.etas

end Growth

/-! ### The first call -/

namespace ShippingService

section First

variable {toLowerCase : String → String} {id : ℕ} {sync : CarrierReply} {s : ShippingState}
  {ok : ShippingCall → ShippingInput → ShippingState → Prop}

abbrev Still {α : Type} (p : ShippingProg α) : Prop :=
  p.Every (fun _ _ _ => True) fun _ _ s s' => statusOf s' = statusOf s

theorem still_track (shipmentId : ℕ) (status : String) (location : Option String) (caught : Bool) :
    Still (track shipmentId status location caught) := by
  refine every_atomic (fun _ _ _ => rfl) fun i s b s' _ _ h => ?_
  obtain ⟨-, -, hstatus, -⟩ := trackedOf_upsert h
  exact hstatus

theorem still_of_keeps {α : Type} {p : ShippingProg α} (hp : Keeps p) : Still p :=
  hp.mono fun _ _ _ _ _ h => h.status

theorem still_recordSync (shipment : Shipment) (mapped : Option ShipmentStatus) :
    Still (recordSync shipment sync mapped) := by
  refine (still_track _ _ _ _).bind fun _ => still_of_keeps ?_
  refine Prog.Every.bind (keeps_appendEvents _ _) fun _ => ?_
  refine Prog.Every.bind (keeps_recordEta _ _) fun _ => ?_
  exact (keeps_invalidateShipment _).bind fun _ => keeps_getTracking _

theorem moveTo_arrives {source target : ShipmentStatus} (reason : Option String)
    (hs : statusOf s id = some source) :
    Alone (Answers sync) (fun _ t => statusOf t id = some target)
      (moveTo id source target reason true) s := by
  refine Alone.atomicBind (fun i b u _ _ hu => ?_) fun i e ho he => ?_
  · obtain ⟨-, hstatus, -⟩ := statusOf_update hu fun _ => rfl
    have hrest : Still ((appendEvent id ⟨target.text, none, some (reason.getD (moved source target)),
        none, none⟩ true).bind fun _ => (track id target.text none true).bind fun _ => pure b) := by
      refine (still_of_keeps (keeps_appendEvent _ _ _)).bind fun _ => ?_
      exact (still_track _ _ _ _).bind fun _ => Prog.every_done _
    refine Alone.of_every (hrest.mono fun _ _ t t' _ h ht => ?_) ?_
    · rw [h, ht]
    · rw [hstatus, Function.update_self]
  · exfalso
    rcases he with hf | he
    · have hgoes : i.fails = false := ho
      rw [hf] at hgoes
      cases hgoes
    · obtain ⟨a, ha, -⟩ := Option.map_eq_some_iff.mp hs
      simp [applyStatus, updateShipment, ha] at he

theorem transition_refused {shipment : Shipment} {target : ShipmentStatus} (reason : Option String)
    (caught : Bool) (hfound : findById id s = some shipment) (hne : target ≠ shipment.status)
    (hedge : target ∉ shipmentTransitions shipment.status) :
    Alone ok (fun _ t => t = s) (transitionStatus id target.text reason caught) s := by
  have hcan : ¬ canTransition shipment.status target.text = true := by
    intro h
    rcases canTransition_cases h (ShipmentStatus.parse_text target) with h | h
    · exact hne h
    · exact hedge h
  simp only [transitionStatus, requireShipment, Prog.bind_eq, Prog.bind_assoc]
  refine Alone.queryBind (fun i _ _ => ?_) fun _ _ _ => rfl
  rw [hfound]
  exact Alone.ensureBind (fun h => absurd h hcan) fun _ => rfl

theorem followCarrier_refuses {shipment : Shipment} (hfound : findById id s = some shipment) :
    Alone (Answers sync) (fun _ t => Refuses toLowerCase id sync t)
      (followCarrier shipment (mapCarrierStatus toLowerCase sync.status)) s := by
  obtain ⟨rfl, hstatus⟩ := findById_some hfound
  unfold followCarrier
  cases hmapped : mapCarrierStatus toLowerCase sync.status with
  | none =>
    refine Alone.done fun current target _ htarget => ?_
    rw [hmapped] at htarget
    cases htarget
  | some target =>
    have hrefuses : ∀ {t : ShippingState} {current : ShipmentStatus},
        statusOf t shipment.id = some current →
        target = current ∨ target ∉ shipmentTransitions current →
        Refuses toLowerCase shipment.id sync t := by
      intro t current hcurrent h current' target' hcurrent' htarget'
      rw [hmapped] at htarget'
      obtain rfl := Option.some.inj htarget'
      obtain rfl := Option.some.inj (hcurrent.symm.trans hcurrent')
      exact h
    dsimp only
    split
    next heq => exact Alone.done (hrefuses hstatus (.inl heq))
    next hne =>
      by_cases hedge : target ∈ shipmentTransitions shipment.status
      · have harrives : Alone (Answers sync) (fun _ t => statusOf t shipment.id = some target)
            (transitionStatus shipment.id target.text (some "Carrier tracking sync") true) s := by
          have hcan : canTransition shipment.status target.text = true := canTransition_of_mem hedge
          simp only [transitionStatus, requireShipment, Prog.bind_eq, Prog.bind_assoc]
          refine Alone.queryBind (fun i _ _ => ?_) fun i ho hf => ?_
          · rw [hfound]
            refine Alone.ensureBind (fun _ => ?_) fun h => absurd hcan h
            rw [ShipmentStatus.parse_text]
            refine Alone.orThrowBind (fun found hsome => ?_) fun h => by cases h
            obtain rfl := Option.some.inj hsome
            rw [if_neg hne]
            refine Alone.bind (moveTo_arrives _ hstatus) (fun _ t ht => ?_) fun _ _ ht => ht
            have hsync := still_of_keeps (keeps_syncFulfillment shipment.fulfillmentOrderId target.text)
            refine Alone.of_every ?_ ht
            refine (hsync.bind fun _ => Prog.every_done _).mono fun _ _ t t' _ h ht => ?_
            rw [h, ht]
          · have hgoes : i.fails = false := ho
            rw [hf] at hgoes
            cases hgoes
        exact Alone.attemptBind harrives fun _ t ht => Alone.done (hrefuses ht (.inl rfl))
      · refine Alone.attemptBind (transition_refused _ _ hfound hne hedge) fun _ t ht => ?_
        subst ht
        exact Alone.done (hrefuses hstatus (.inr hedge))

theorem syncTracking_stands (token : ℕ) : Alone (Answers sync)
    (fun _ t => Stands toLowerCase id sync t) (syncTracking toLowerCase token id) s := by
  refine Alone.withLock (R := fun _ t => findById id t = none ∨ Refuses toLowerCase id sync t)
    (fun e i ho h => ?_) (fun _ => ?_) (fun r t ht => ?_) fun r i t ht _ _ => .inr ht
  · rcases h with hf | hheld
    · have hgoes : i.fails = false := ho
      rw [hf] at hgoes
      cases hgoes
    · exact .inl hheld
  · generalize Lockable.setLocks ShippingCall _ s = s
    simp only [requireShipment, Prog.bind_eq, Prog.bind_assoc]
    refine Alone.queryBind (fun i _ _ => ?_) fun i ho hf => ?_
    · refine Alone.orThrowBind (fun shipment hfound => ?_) .inl
      refine Alone.callBind fun i ho => ⟨fun reply hreply => ?_, fun e he => ?_⟩
      · obtain ⟨hf, hsync⟩ := ho
        simp only [hf, hsync, Bool.false_eq_true, if_false] at hreply
        obtain rfl := Except.ok.inj hreply
        refine Alone.bind (followCarrier_refuses hfound) (fun _ t ht => ?_) fun _ _ ht => .inr ht
        refine Alone.mono (fun _ _ h => .inr h) (Alone.of_every ?_ ht)
        refine (still_recordSync shipment _).mono fun _ _ t t' _ h ht => ?_
        rw [Refuses, h]
        exact ht
      · simp [ho.1] at he
    · have hgoes : i.fails = false := ho
      rw [hf] at hgoes
      cases hgoes
  · rcases LockService.drop_cases (L := ShippingCall) (.tracking id) token t with ⟨-, hd⟩ | hd
    · rw [hd]
      exact .inr ht
    · rw [hd]
      exact .inr ht

end First

/-! ### The second call -/

section Second

variable {toLowerCase : String → String} {id : ℕ} {sync : CarrierReply} {s : ShippingState}
  {ok : ShippingCall → ShippingInput → ShippingState → Prop}

theorem followCarrier_still {shipment : Shipment} (hfound : findById id s = some shipment)
    (hrefuses : Refuses toLowerCase id sync s) :
    Alone ok (fun r t => r = .ok () ∧ t = s)
      (followCarrier shipment (mapCarrierStatus toLowerCase sync.status)) s := by
  obtain ⟨rfl, hstatus⟩ := findById_some hfound
  unfold followCarrier
  cases hmapped : mapCarrierStatus toLowerCase sync.status with
  | none => exact Alone.done ⟨rfl, rfl⟩
  | some target =>
    dsimp only
    split
    next => exact Alone.done ⟨rfl, rfl⟩
    next hne =>
      have hedge := (hrefuses _ _ hstatus hmapped).resolve_left hne
      exact Alone.attemptBind (transition_refused _ _ hfound hne hedge) fun _ _ ht =>
        Alone.done ⟨rfl, ht⟩

theorem recordSync_same {shipment : Shipment} (hid : shipment.id = id)
    (h : (recordedStatus toLowerCase sync).isSome = true → bringsRow sync = false) :
    Alone ok (fun _ t => SameHistory id s t)
      (recordSync shipment sync (mapCarrierStatus toLowerCase sync.status)) s := by
  subst hid
  refine Alone.atomicBind (fun i b u _ _ hu => ?_) fun _ _ _ _ => .refl _ _
  have hsame := sameHistory_upsert hu
  obtain ⟨status, hparse, -⟩ := trackedOf_upsert hu
  have hrow := h (Option.isSome_iff_exists.mpr ⟨status, hparse⟩)
  cases hevents : sync.events with
  | nil =>
    have heta : sync.eta = none := by simpa [bringsRow, hevents] using hrow
    rw [heta]
    refine Alone.of_every (Prog.Every.mono (fun _ _ t t' _ h ht => SameHistory.trans ht h) ?_) hsame
    refine (Prog.every_done _).bind fun _ => (Prog.every_done _).bind fun _ => ?_
    exact (sameHistory_invalidate _ _).bind fun _ => sameHistory_getTracking _ _
  | cons e es =>
    have hbad : storable e = false := by simpa [bringsRow, hevents] using hrow
    simp only [appendEvents, Prog.bind_eq, Prog.bind_assoc]
    refine Alone.atomicBind (fun i b v _ _ hv => ?_) fun _ _ _ _ => hsame
    obtain ⟨failure, hfailure⟩ : ∃ failure,
        appendTrackingEvent shipment.id (eventData e) i.now u = .error failure := append_refused hbad
    rw [eventData] at hfailure
    rw [hfailure] at hv
    cases hv

theorem syncTracking_same (token : ℕ) (hstands : Stands toLowerCase id sync s)
    (hnone : ¬ Appends toLowerCase id sync s) :
    Alone (Reports sync) (fun _ t => SameHistory id s t) (syncTracking toLowerCase token id) s := by
  refine Alone.withLock (R := fun _ t => SameHistory id s t) (fun _ _ _ _ => .refl _ _)
    (fun hfree => ?_) (fun r t ht => ?_) fun _ _ _ ht _ _ => ht
  · set u := Lockable.setLocks ShippingCall _ s with hu
    have hsame : SameHistory id s u := ⟨rfl, rfl, rfl⟩
    simp only [requireShipment, Prog.bind_eq, Prog.bind_assoc]
    refine Alone.queryBind (fun i _ _ => ?_) fun _ _ _ => hsame
    refine Alone.orThrowBind (fun shipment hfound => ?_) fun _ => hsame
    have hs : findById id s = some shipment := hfound
    have hrefuses : Refuses toLowerCase id sync u := by
      rcases hstands with h | h | h
      · exact absurd hfree h
      · rw [hs] at h
        cases h
      · exact h
    refine Alone.callBind fun i ho => ⟨fun reply hreply => ?_, fun _ _ => hsame⟩
    have hsync : reply = sync := by
      cases hf : i.fails with
      | true => simp [hf] at hreply
      | false =>
        have hanswer : i.reply = sync := by simpa [Reports, hf] using ho
        simp only [hf, Bool.false_eq_true, if_false] at hreply
        exact (Except.ok.inj hreply).symm.trans hanswer
    subst hsync
    refine Alone.bind (followCarrier_still hfound hrefuses) (fun _ t ht => ?_) fun e t ht => by cases ht.1
    obtain ⟨-, rfl⟩ := ht
    refine Alone.mono (fun _ _ h => hsame.trans h) (recordSync_same (findById_some hfound).1 ?_)
    intro hrecorded
    by_contra hrow
    exact hnone ⟨hfree, by rw [hs, Option.isSome_some], hrecorded, by simpa using hrow⟩
  · rcases LockService.drop_cases (L := ShippingCall) (.tracking id) token t with ⟨-, hd⟩ | hd
    · rw [hd]
      exact ⟨ht.events, ht.etas, ht.status⟩
    · rw [hd]
      exact ht

def Longer (s t : ShippingState) : Prop :=
  s.events.rows.length < t.events.rows.length ∨ s.etas.rows.length < t.etas.rows.length

theorem Longer.grows {s t t' : ShippingState} (h : Longer s t) (hg : HistoryGrows t t') :
    Longer s t' := by
  have hevents := hg.events
  have hetas := hg.etas
  unfold Longer at *
  omega

theorem longer_of_growing {α : Type} {p : ShippingProg α} {t : ShippingState}
    (hp : HistoryGrowing p) (h : Longer s t) : Alone ok (fun _ t' => Longer s t') p t :=
  Alone.of_every (hp.mono fun _ _ _ _ _ hg h => h.grows hg) h

theorem recordSync_longer {shipment : Shipment} (hid : shipment.id = id)
    (hs : statusOf s id = some shipment.status)
    (hrecorded : (recordedStatus toLowerCase sync).isSome = true) (hrow : bringsRow sync = true) :
    Alone (Smooth sync) (fun _ t => Longer s t)
      (recordSync shipment sync (mapCarrierStatus toLowerCase sync.status)) s := by
  subst hid
  have hlast : ∀ _ : Unit, HistoryGrowing ((invalidateShipment shipment.id).bind fun _ =>
      getTracking shipment.id) := fun _ => growing_of_same shipment.id
    ((sameHistory_invalidate _ _).bind fun _ => sameHistory_getTracking _ _)
  refine Alone.atomicBind (fun i b u _ _ hu => ?_) fun i e ho he => ?_
  · have hsame := sameHistory_upsert hu
    have hu' : statusOf u shipment.id = some shipment.status := hsame.status.trans hs
    cases hevents : sync.events with
    | nil =>
      obtain ⟨eta, heta⟩ := Option.isSome_iff_exists.mp (by simpa [bringsRow, hevents] using hrow)
      rw [heta]
      simp only [recordEta, appendEvents, Prog.bind_eq, Prog.bind_assoc, Prog.pure_eq,
        Prog.done_ok_bind]
      refine Alone.atomicBind (fun i b v _ _ hv => ?_) fun i e ho he => ?_
      · obtain ⟨-, rfl⟩ := Prod.mk.inj (Except.ok.inj hv)
        refine longer_of_growing ((growing_updateEta _ _).bind fun _ => hlast ()) (.inr ?_)
        simp [Table.insert, hsame.etas]
      · rcases he with hf | he
        · exact absurd (hf.symm.trans ho.1) (by decide)
        · cases he
    | cons e es =>
      have hgood : storable e = true := by simpa [bringsRow, hevents] using hrow
      simp only [appendEvents, Prog.bind_eq, Prog.bind_assoc]
      refine Alone.atomicBind (fun i b v _ _ hv => ?_) fun i failure ho he => ?_
      · have hlength := (append_length hv).1
        rw [hsame.events] at hlength
        refine longer_of_growing ?_ (.inl (by omega))
        refine (growing_appendEvents _ _).bind fun _ => ?_
        exact (growing_recordEta _ _).bind hlast
      · rcases he with hf | he
        · exact absurd (hf.symm.trans ho.1) (by decide)
        · exact absurd he (append_accepted hgood hu' failure)
  · rcases he with hf | he
    · exact absurd (hf.symm.trans ho.1) (by decide)
    · exact absurd he (upsert_succeeds hs hrecorded e)

theorem syncTracking_longer (token : ℕ) (hstands : Stands toLowerCase id sync s)
    (happends : Appends toLowerCase id sync s) :
    Alone (Smooth sync) (fun _ t => Longer s t) (syncTracking toLowerCase token id) s := by
  obtain ⟨hfree, hfound, hrecorded, hrow⟩ := happends
  obtain ⟨shipment, hfound⟩ := Option.isSome_iff_exists.mp hfound
  refine Alone.withLock (R := fun _ t => Longer s t) (fun _ i ho h => ?_) (fun _ => ?_)
    (fun r t ht => ?_) fun _ _ _ ht _ _ => ht
  · rcases h with hf | hheld
    · exact absurd (hf.symm.trans ho.1) (by decide)
    · exact absurd hfree hheld
  · set u := Lockable.setLocks ShippingCall _ s with hu
    have hu' : findById id u = some shipment := hfound
    have hrefuses : Refuses toLowerCase id sync u := by
      rcases hstands with h | h | h
      · exact absurd hfree h
      · rw [hfound] at h
        cases h
      · exact h
    simp only [requireShipment, Prog.bind_eq, Prog.bind_assoc]
    refine Alone.queryBind (fun i _ _ => ?_) fun i ho hf => absurd (hf.symm.trans ho.1) (by decide)
    rw [hu']
    refine Alone.orThrowBind (fun found hsome => ?_) fun h => by cases h
    obtain rfl := Option.some.inj hsome
    refine Alone.callBind fun i ho => ⟨fun reply hreply => ?_, fun e he => ?_⟩
    · simp only [ho.1, ho.2, Bool.false_eq_true, if_false] at hreply
      obtain rfl := Except.ok.inj hreply
      obtain ⟨hid, hstatus⟩ := findById_some hu'
      refine Alone.bind (followCarrier_still hu' hrefuses) (fun _ t ht => ?_) fun e t ht => by cases ht.1
      obtain ⟨-, rfl⟩ := ht
      exact recordSync_longer hid hstatus hrecorded hrow
    · simp [ho.1] at he
  · rcases LockService.drop_cases (L := ShippingCall) (.tracking id) token t with ⟨-, hd⟩ | hd
    · rw [hd]
      exact ht
    · rw [hd]
      exact ht

end Second

/-! ### It always ends -/

theorem finishes_transitionStatus (shipmentId : ℕ) (status : String) (reason : Option String)
    (caught : Bool) : (transitionStatus shipmentId status reason caught).Finishes := by
  refine ((Prog.finishes_call _ _).bind fun _ => Prog.finishes_orThrow _ _).bind fun shipment => ?_
  refine (Prog.finishes_done _).bind fun _ => (Prog.finishes_orThrow _ _).bind fun target => ?_
  have hsync : (syncFulfillment shipment.fulfillmentOrderId status).Finishes := by
    unfold syncFulfillment
    split
    · exact (Prog.finishes_call _ _).attempt.bind fun _ => trivial
    · trivial
  split
  · exact hsync.bind fun _ => trivial
  · refine Prog.Finishes.bind ?_ fun _ => hsync.bind fun _ => trivial
    refine (Prog.finishes_call _ _).bind fun _ => (Prog.finishes_call _ _).bind fun _ => ?_
    exact (Prog.finishes_call _ _).bind fun _ => trivial

theorem finishes_followCarrier (shipment : Shipment) (mapped : Option ShipmentStatus) :
    (followCarrier shipment mapped).Finishes := by
  unfold followCarrier
  split
  · trivial
  split
  · trivial
  · exact (finishes_transitionStatus _ _ _ _).attempt.bind fun _ => trivial

theorem finishes_appendEvents (shipmentId : ℕ) (events : List CarrierEvent) :
    (appendEvents shipmentId events).Finishes := by
  induction events with
  | nil => trivial
  | cons e es ih => exact (Prog.finishes_call _ _).bind fun _ => ih

theorem finishes_recordEta (shipment : Shipment) (eta : Option ℕ) :
    (recordEta shipment eta).Finishes := by
  cases eta with
  | none => trivial
  | some eta =>
    exact (Prog.finishes_call _ _).bind fun _ => (Prog.finishes_call _ _).bind fun _ => trivial

theorem finishes_getTracking (shipmentId : ℕ) : (getTracking shipmentId).Finishes := by
  refine (Prog.finishes_call _ _).bind fun hit => ?_
  split
  · trivial
  · refine (Prog.finishes_call _ _).bind fun _ => (Prog.finishes_orThrow _ _).bind fun _ => ?_
    exact (Prog.finishes_call _ _).bind fun _ => trivial

theorem finishes_syncTracking (toLowerCase : String → String) (token shipmentId : ℕ) :
    (syncTracking toLowerCase token shipmentId).Finishes := by
  refine LockService.finishes_withLock ?_
  refine ((Prog.finishes_call _ _).bind fun _ => Prog.finishes_orThrow _ _).bind fun shipment => ?_
  refine (Prog.finishes_call _ _).bind fun sync => ?_
  refine (finishes_followCarrier _ _).bind fun _ => (Prog.finishes_call _ _).bind fun _ => ?_
  refine (finishes_appendEvents _ _).bind fun _ => (finishes_recordEta _ _).bind fun _ => ?_
  exact (Prog.finishes_call _ _).bind fun _ => finishes_getTracking _

end ShippingService

open ShippingService

/-- A second call with the answer of the first changes nothing exactly when it meets nothing to
append. -/
theorem syncTracking_again_iff (toLowerCase : String → String) (token token' id : ℕ)
    (sync : CarrierReply) (start s : ShippingState) (r : Except Failure TrackingView)
    (hfirst : Pool.Ran (Answers sync) (syncTracking toLowerCase token id) start r s) :
    (∀ r' s', Pool.Ran (Reports sync) (syncTracking toLowerCase token' id) s r' s' →
      SameHistory id s s') ↔ ¬ Appends toLowerCase id sync s := by
  have hstands : Stands toLowerCase id sync s := ran_alone (syncTracking_stands token) hfirst
  constructor
  · intro hsame happends
    have hsmooth : ∀ l t, Smooth sync l { reply := sync } t := fun _ _ => ⟨rfl, rfl⟩
    obtain ⟨r', s', hran⟩ := Pool.exists_ran (finishes_syncTracking toLowerCase token' id) hsmooth s
    have hlonger := ran_alone (syncTracking_longer token' hstands happends) hran
    obtain ⟨hevents, hetas, -⟩ := hsame r' s' (hran.mono fun _ _ _ h => h.reports)
    rw [Longer, hevents, hetas] at hlonger
    omega
  · exact fun hnone r' s' hran => ran_alone (syncTracking_same token' hstands hnone) hran

/-- What a sync answered with `sync` leaves. -/
def synced (sync : CarrierReply) (s : ShippingState) :
    Pool ShippingCall ShippingInput ShippingState Failure TrackingView :=
  Pool.solo (syncTracking id 0 0) s (List.replicate 16 { reply := sync })

theorem ran_synced {sync : CarrierReply} {s : ShippingState} {r : Except Failure TrackingView}
    (hr : (synced sync s).result? = some r) :
    Pool.Ran (Smooth sync) (syncTracking id 0 0) s r (synced sync s).state := by
  refine ⟨List.replicate 16 { reply := sync }, ?_, hr, rfl⟩
  refine Pool.soloAdmits_of_forall fun i hi l t => ?_
  rw [List.eq_of_mem_replicate hi]
  exact ⟨rfl, rfl⟩

/-- A delivery that the carrier reports without events. -/
def delivery : CarrierReply where
  status := "delivered"

/-- The delivery is recorded once. -/
theorem delivery_synced_again :
    SameHistory 0 (synced delivery outForDelivery).state
      (synced delivery (synced delivery outForDelivery).state).state := by
  have hfirst : ((synced delivery outForDelivery).result?).isSome = true := by decide +kernel
  obtain ⟨r, hr⟩ := Option.isSome_iff_exists.mp hfirst
  have hsecond :
      ((synced delivery (synced delivery outForDelivery).state).result?).isSome = true := by
    decide +kernel
  obtain ⟨r', hr'⟩ := Option.isSome_iff_exists.mp hsecond
  have hanswered := (ran_synced hr).mono fun _ _ _ h => h.answers
  have hreported := (ran_synced hr').mono fun _ _ _ h => h.reports
  have hnone : ¬ Appends id 0 delivery (synced delivery outForDelivery).state := by
    decide +kernel
  exact (syncTracking_again_iff id 0 0 0 delivery outForDelivery _ r hanswered).mpr hnone r' _
    hreported

/-- The parcel is seen out for delivery, and is expected at a time. -/
def seen : CarrierReply where
  status := "out_for_delivery"
  events := [{ status := "out_for_delivery", occurredAt := some 3 }]
  eta := some 5

/-- The same answer twice: the event and the ETA are in the history twice, the second time as a
change from the ETA to itself. -/
theorem history_doubled :
    let once := synced seen outForDelivery
    let twice := synced seen once.state
    once.result?.map Except.isOk = some true ∧ twice.result?.map Except.isOk = some true ∧
    (once.state.events.rows.map TrackingEvent.occurredAt = [3] ∧
      twice.state.events.rows.map TrackingEvent.occurredAt = [3, 3]) ∧
    (once.state.etas.rows.map fun row => (row.oldEta, row.newEta)) = [(none, 5)] ∧
    (twice.state.etas.rows.map fun row => (row.oldEta, row.newEta)) = [(none, 5), (some 5, 5)] ∧
    ¬ SameHistory 0 once.state twice.state := by
  refine ⟨by decide +kernel, by decide +kernel, by decide +kernel, by decide +kernel,
    by decide +kernel, fun h => ?_⟩
  have hlength := congrArg (fun T => T.rows.length) h.events
  exact absurd hlength (by decide +kernel)

end ElectronicsCart.Shipping
