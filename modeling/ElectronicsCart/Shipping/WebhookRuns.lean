import ElectronicsCart.Shipping.StatusRuns
import ElectronicsCart.Shipping.Webhooks
import ElectronicsCart.Core.Alone

/-!
# Carrier events and their keys

A delivery is taken for a duplicate when a webhook stands under its idempotency key.  The payload
does not always name the event, so two events can have one key.
-/

namespace ElectronicsCart.Shipping

open Interleaving Relational ShipmentRepository

/-! ### The carriers stay -/

abbrev KeepsPartners {α : Type} (p : ShippingProg α) : Prop :=
  p.Every (fun _ _ _ => True) fun _ _ s s' => s'.partners = s.partners

section Partners

theorem partners_of_keeps {α : Type} {p : ShippingProg α} (hp : Keeps p) : KeepsPartners p :=
  hp.mono fun _ _ _ _ _ h => h.partners

theorem partners_track (shipmentId : ℕ) (status : String) (location : Option String)
    (caught : Bool) : KeepsPartners (ShippingService.track shipmentId status location caught) := by
  refine every_atomic (fun _ _ _ => rfl) fun i s b s' _ _ h => ?_
  obtain ⟨tracking, rfl⟩ := ShippingService.upsertTracking_cases h
  rfl

theorem partners_moveTo (shipmentId : ℕ) (source target : ShipmentStatus) (reason : Option String)
    (caught : Bool) :
    KeepsPartners (ShippingService.moveTo shipmentId source target reason caught) := by
  refine Prog.Every.bind ?_ fun updated => ?_
  · refine every_atomic (fun _ _ _ => rfl) fun i s b s' _ _ h => ?_
    obtain ⟨a, -, rfl⟩ := updateShipment_cases h
    rfl
  refine Prog.Every.bind (partners_of_keeps (ShippingService.keeps_appendEvent _ _ _)) fun _ => ?_
  exact (partners_track _ _ _ _).bind fun _ => Prog.every_done _

theorem partners_transitionStatus (shipmentId : ℕ) (status : String) (reason : Option String)
    (caught : Bool) :
    KeepsPartners (ShippingService.transitionStatus shipmentId status reason caught) := by
  refine Prog.Every.bind (partners_of_keeps (ShippingService.keeps_requireShipment _ _))
    fun shipment => ?_
  refine Prog.Every.bind (Prog.every_ensure _ _) fun _ => ?_
  refine Prog.Every.bind (Prog.every_orThrow _ _) fun target => ?_
  have hsync := partners_of_keeps
    (ShippingService.keeps_syncFulfillment shipment.fulfillmentOrderId status)
  split
  · exact hsync.bind fun _ => Prog.every_done _
  · exact (partners_moveTo _ _ _ _ _).bind fun _ => hsync.bind fun _ => Prog.every_done _

theorem partners_syncTracking (toLowerCase : String → String) (token shipmentId : ℕ) :
    KeepsPartners (ShippingService.syncTracking toLowerCase token shipmentId) := by
  refine LockService.every_withLock (fun _ _ _ _ _ _ => ⟨rfl, rfl⟩) ?_
  refine Prog.Every.bind (partners_of_keeps (ShippingService.keeps_requireShipment _ _))
    fun shipment => ?_
  refine Prog.Every.bind (partners_of_keeps (keeps_carrier _ _)) fun sync => ?_
  refine Prog.Every.bind ?_ fun _ => ?_
  · unfold ShippingService.followCarrier
    split
    · exact Prog.every_done _
    split
    · exact Prog.every_done _
    · exact (partners_transitionStatus _ _ _ _).attempt.bind fun _ => Prog.every_done _
  · refine Prog.Every.bind (partners_track _ _ _ _) fun _ => partners_of_keeps ?_
    refine Prog.Every.bind (ShippingService.keeps_appendEvents _ _) fun _ => ?_
    refine Prog.Every.bind (ShippingService.keeps_recordEta _ _) fun _ => ?_
    exact (keeps_invalidateShipment _).bind fun _ => ShippingService.keeps_getTracking _

end Partners

/-! ### What stands under a key -/

def filed (partnerId : ℕ) (key : String) (t : CarrierDesk) : Option ℕ :=
  (t.webhooks.first? (matching partnerId key)).map ShippingWebhook.id

/-- The carriers are the same, and a webhook that is found under a key still is. -/
structure Grows (t u : CarrierDesk) : Prop where
  partners : u.shipping.partners = t.shipping.partners
  filed : ∀ partnerId key n, filed partnerId key t = some n → filed partnerId key u = some n

namespace Grows

theorem refl (t : CarrierDesk) : Grows t t := ⟨rfl, fun _ _ _ h => h⟩

theorem trans {t u v : CarrierDesk} (h : Grows t u) (h' : Grows u v) : Grows t v :=
  ⟨h'.partners.trans h.partners, fun p k n hn => h'.filed p k n (h.filed p k n hn)⟩

theorem of_eq {t u : CarrierDesk} (hp : u.shipping.partners = t.shipping.partners)
    (hw : u.webhooks = t.webhooks) : Grows t u := by
  refine ⟨hp, fun p k n h => ?_⟩
  rwa [Shipping.filed, hw]

end Grows

abbrev Growing {α : Type} (p : CarrierProg α) : Prop :=
  p.Every (fun _ _ _ => True) fun _ _ t u => Grows t u

section Growth

variable {α : Type}

theorem growing_query {l : CarrierCall} (f : ShippingInput → CarrierDesk → α) :
    Growing (query l f) :=
  every_query fun _ t _ => .refl t

theorem growing_inShipping {p : ShippingProg α} (hp : KeepsPartners p) : Growing (inShipping p) := by
  have hzoom : (inShipping p).Every (fun _ _ _ => True) fun m _ t u =>
      ∃ l s', m = .shipping l ∧ s'.partners = t.shipping.partners ∧ u = { t with shipping := s' } :=
    hp.zoom fun _ _ _ _ => trivial
  refine hzoom.mono ?_
  rintro m i t u - ⟨l, s', -, hpartners, rfl⟩
  exact .of_eq hpartners rfl

theorem growing_enqueueWebhook (id : ℕ) : Growing (enqueueWebhook id) := by
  refine every_atomic (fun _ t _ => .refl t) fun i t b u _ _ h => ?_
  obtain ⟨-, rfl⟩ := Prod.mk.inj (Except.ok.inj h)
  exact .of_eq rfl rfl

theorem filed_update {T : Table ShippingWebhook} {g : ShippingWebhook → ShippingWebhook}
    {id partnerId : ℕ} {k : String} (hg : ∀ w, key (g w) = key w)
    (hm : ∀ w, matching partnerId k (g w) = matching partnerId k w) :
    ((T.update id g hg).first? (matching partnerId k)).map ShippingWebhook.id =
      (T.first? (matching partnerId k)).map ShippingWebhook.id := by
  rw [Table.first?_update hg hm, Option.map_map]
  refine Option.map_congr fun w _ => ?_
  rw [Function.comp_apply]
  split
  · exact hg w
  · rfl

theorem growing_markWebhook (id : ℕ) (status : WebhookProcessingStatus) :
    Growing (markWebhook id status) := by
  refine every_atomic (fun _ t _ => .refl t) fun i t b u _ _ h => ?_
  simp only [bind_eq_ok, check_eq_ok, pure_eq_ok] at h
  obtain ⟨-, -, h⟩ := h
  obtain ⟨-, rfl⟩ := Prod.mk.inj h
  refine ⟨rfl, fun p k n hn => ?_⟩
  refine (filed_update ?_ ?_).trans hn
  all_goals exact fun _ => rfl

theorem insertWebhook_cases {rt : Runtime} {partnerId id : ℕ} {shipmentId : Option ℕ}
    {d : CarrierDelivery} {t u : CarrierDesk}
    (h : insertWebhook rt partnerId shipmentId d t = .ok (id, u)) :
    Grows t u ∧ filed partnerId (idempotencyKey rt d.payload) u = some id := by
  simp only [insertWebhook, bind_eq_ok, check_eq_ok, pure_eq_ok] at h
  obtain ⟨-, -, -, hnone, h⟩ := h
  obtain ⟨rfl, rfl⟩ := Prod.mk.inj h
  refine ⟨⟨rfl, fun p k n hn => ?_⟩, ?_⟩
  · obtain ⟨w, hw, rfl⟩ := Option.map_eq_some_iff.mp hn
    rw [filed, Table.first?_insert, hw, Option.some_or, Option.map_some]
  · rw [Option.isNone_iff_eq_none] at hnone
    rw [filed, Table.first?_insert, hnone, Option.none_or]
    simp [matching]

variable (rt : Runtime) (toLowerCase : String → String)

theorem growing_applyWebhook (token : ℕ) (row : ShippingWebhook) :
    Growing (applyWebhook toLowerCase token row) := by
  unfold applyWebhook
  split
  · exact Prog.every_done _
  · refine growing_inShipping (Prog.Every.bind (partners_syncTracking _ _ _) fun _ => ?_)
    exact partners_of_keeps (ShippingService.keeps_appendEvent _ _ _)

theorem growing_processWebhook (token id : ℕ) : Growing (processWebhook toLowerCase token id) := by
  refine Prog.Every.bind (growing_query _) fun found => ?_
  split
  · exact Prog.every_done _
  split
  · exact Prog.every_done _
  · refine Prog.Every.tryCatch ?_ fun err =>
      (growing_markWebhook _ _).bind fun _ => Prog.every_done _
    exact (growing_applyWebhook toLowerCase token _).bind fun _ => growing_markWebhook _ _

theorem growing_shipmentFor (awb : String) : Growing (shipmentFor awb) := by
  unfold shipmentFor
  split
  · exact Prog.every_done _
  · exact growing_query _

theorem growing_storeNew (partnerId : ℕ) (d : CarrierDelivery) :
    Growing (storeNew rt toLowerCase partnerId d) := by
  refine Prog.Every.bind (growing_shipmentFor _) fun shipment => ?_
  refine Prog.Every.bind ?_ fun id => ?_
  · exact every_atomic (fun _ t _ => .refl t) fun _ _ _ _ _ _ h => (insertWebhook_cases h).1
  refine Prog.Every.bind (growing_enqueueWebhook _) fun _ => ?_
  refine Prog.Every.bind ?_ fun _ => Prog.every_done _
  exact Prog.Every.tryCatch (growing_processWebhook _ _ _) fun _ => Prog.every_done _

theorem growing_receiveShiprocket (fallbackId : ℕ) (d : CarrierDelivery) :
    Growing (receiveShiprocket rt toLowerCase fallbackId d) := by
  refine Prog.Every.bind (growing_query _) fun partnerId => ?_
  refine Prog.Every.bind (Prog.every_ensure _ _) fun _ => ?_
  refine LockService.every_withLock (fun _ _ _ t _ _ => ⟨.refl t, .of_eq rfl rfl⟩) ?_
  refine Prog.Every.bind (growing_query _) fun existing => ?_
  split
  · split
    · exact Prog.every_done _
    · exact (growing_enqueueWebhook _).bind fun _ => Prog.every_done _
  · exact growing_storeNew _ _ _ _

end Growth

/-! ### One delivery -/

/-- The answer names the webhook under the key, and says whether it was there before. -/
structure Answered (partnerId : ℕ) (key : String) (t : CarrierDesk) (res : ReceiveResult)
    (u : CarrierDesk) : Prop where
  stands : filed partnerId key u = some res.webhookId
  found : ∀ n, filed partnerId key t = some n → res.duplicate = true ∧ res.webhookId = n
  known : res.duplicate = true → filed partnerId key t = some res.webhookId

section Deliveries

variable {rt : Runtime} {toLowerCase : String → String} {t : CarrierDesk} {partnerId : ℕ}
  {d : CarrierDelivery}

abbrev anyCall (_ : CarrierCall) (_ : ShippingInput) (_ : CarrierDesk) : Prop := True

theorem stays_filed {α : Type} {p : CarrierProg α} {k : String} {n : ℕ} (hp : Growing p)
    (h : filed partnerId k t = some n) :
    Alone anyCall (fun _ u => filed partnerId k u = some n) p t :=
  Alone.of_every (hp.mono fun _ _ _ _ _ hg hf => hg.filed _ _ _ hf) h

theorem storeNew_answered : Alone anyCall
    (Returns fun res u => res.duplicate = false ∧
      filed partnerId (idempotencyKey rt d.payload) u = some res.webhookId)
    (storeNew rt toLowerCase partnerId d) t := by
  refine Alone.bind (Alone.any _ _) (fun shipment t' _ => ?_) fun _ _ _ => trivial
  refine Alone.atomicBind (fun i id u _ _ hu => ?_) fun _ _ _ _ => trivial
  obtain ⟨-, hfiled⟩ := insertWebhook_cases hu
  refine Alone.bind (stays_filed (growing_enqueueWebhook id) hfiled) (fun _ v hv => ?_)
    fun _ _ _ => trivial
  have hinline : Growing (tryCatch (processWebhook toLowerCase d.token id) fun _ => pure ()) :=
    Prog.Every.tryCatch (growing_processWebhook _ _ _) fun _ => Prog.every_done _
  refine Alone.bind (stays_filed hinline hv) (fun _ w hw => ?_) fun _ _ _ => trivial
  exact Alone.done ⟨rfl, hw⟩

theorem storeWebhook_answered : Alone anyCall
    (Returns (Answered partnerId (idempotencyKey rt d.payload) t))
    (storeWebhook rt toLowerCase partnerId d) t := by
  refine Alone.queryBind (fun i _ _ => ?_) fun _ _ _ => trivial
  cases hfirst : t.webhooks.first? (matching partnerId (idempotencyKey rt d.payload)) with
  | some w =>
    have hfiled : filed partnerId (idempotencyKey rt d.payload) t = some w.id := by
      rw [filed, hfirst, Option.map_some]
    have hsame : ∀ n, filed partnerId (idempotencyKey rt d.payload) t = some n →
        true = true ∧ w.id = n := by
      intro n hn
      exact ⟨rfl, Option.some.inj (hfiled.symm.trans hn)⟩
    dsimp only
    split
    · exact Alone.done ⟨hfiled, hsame, fun _ => hfiled⟩
    · refine Alone.bind (stays_filed (growing_enqueueWebhook _) hfiled) (fun _ u hu => ?_)
        fun _ _ _ => trivial
      exact Alone.done ⟨hu, hsame, fun _ => hfiled⟩
  | none =>
    have hnone : filed partnerId (idempotencyKey rt d.payload) t = none := by
      rw [filed, hfirst, Option.map_none]
    refine Alone.mono ?_ storeNew_answered
    rintro (e | res) u h
    · trivial
    · obtain ⟨hdup, hstands⟩ := h
      refine ⟨hstands, fun n hn => ?_, fun hd => ?_⟩
      · rw [hnone] at hn
        cases hn
      · rw [hdup] at hd
        cases hd

theorem receiveShiprocket_answered (fallbackId : ℕ) : Alone anyCall
    (Returns (Answered (shiprocketPartner fallbackId t.shipping) (idempotencyKey rt d.payload) t))
    (receiveShiprocket rt toLowerCase fallbackId d) t := by
  refine Alone.queryBind (fun i _ _ => ?_) fun _ _ _ => trivial
  refine Alone.ensureBind (fun _ => ?_) fun _ => trivial
  refine Alone.withLock_blind (fun _ => trivial) (fun r u m h => ?_) (fun _ _ _ => trivial)
    fun m => ?_
  · cases r with
    | error e => trivial
    | ok res => exact ⟨h.stands, h.found, h.known⟩
  · refine Alone.mono ?_ storeWebhook_answered
    rintro (e | res) u h
    · trivial
    · exact ⟨h.stands, h.found, h.known⟩

end Deliveries

/-! ### Sequences of deliveries -/

/-- A delivery that reports an event of the carrier, or the job of the queue for a webhook. -/
inductive WebhookRequest (ε : Type) where
  | receive (event : ε) (d : CarrierDelivery)
  | job (token webhookId : ℕ)

structure Answer (ε : Type) where
  event : ε
  delivery : CarrierDelivery
  result : ReceiveResult

section Sequences

variable {ε : Type}

def WebhookRequest.prog (rt : Runtime) (toLowerCase : String → String) (fallbackId : ℕ) :
    WebhookRequest ε → CarrierProg (Option ReceiveResult)
  | receive _ d => (receiveShiprocket rt toLowerCase fallbackId d).bind fun r => pure (some r)
  | job token id => (processWebhook toLowerCase token id).bind fun _ => pure none

def answer? : WebhookRequest ε × Except Failure (Option ReceiveResult) → Option (Answer ε)
  | (.receive event d, .ok (some result)) => some ⟨event, d, result⟩
  | _ => none

def answers (calls : List (WebhookRequest ε × Except Failure (Option ReceiveResult))) :
    List (Answer ε) :=
  calls.filterMap answer?

/-- The second answer says that the delivery repeats the first one. -/
def Repeats (a b : Answer ε) : Prop :=
  b.result.duplicate = true ∧ b.result.webhookId = a.result.webhookId

/-- A delivery repeats an earlier one when both report one event, and only then. -/
def ToldApart (as : List (Answer ε)) : Prop :=
  as.Pairwise fun a b => Repeats a b ↔ b.event = a.event

def KeysDiffer (rt : Runtime) (as : List (Answer ε)) : Prop :=
  as.Pairwise fun a b => b.event ≠ a.event →
    idempotencyKey rt b.delivery.payload ≠ idempotencyKey rt a.delivery.payload

theorem filed_injective {partnerId n : ℕ} {k k' : String} {t : CarrierDesk}
    (h : filed partnerId k t = some n) (h' : filed partnerId k' t = some n) : k = k' := by
  obtain ⟨w, hw, rfl⟩ := Option.map_eq_some_iff.mp h
  obtain ⟨w', hw', hid⟩ := Option.map_eq_some_iff.mp h'
  obtain ⟨hmem, hm⟩ := Table.first?_mem hw
  obtain ⟨hmem', hm'⟩ := Table.first?_mem hw'
  obtain rfl : w' = w := Table.eq_of_key_eq hmem' hmem hid
  simp only [matching, Bool.and_eq_true, beq_iff_eq] at hm hm'
  exact hm.1.2.symm.trans hm'.1.2

variable {rt : Runtime} {toLowerCase : String → String} {fallbackId : ℕ}

structure Kept (rt : Runtime) (partnerId : ℕ) (as : List (Answer ε)) (t : CarrierDesk) : Prop where
  stands : ∀ a ∈ as,
    filed partnerId (idempotencyKey rt a.delivery.payload) t = some a.result.webhookId
  pairs : as.Pairwise fun a b => Repeats a b ↔
    idempotencyKey rt b.delivery.payload = idempotencyKey rt a.delivery.payload

theorem Kept.grow {partnerId : ℕ} {as : List (Answer ε)} {t u : CarrierDesk}
    (h : Kept rt partnerId as t) (hg : Grows t u) : Kept rt partnerId as u :=
  ⟨fun a ha => hg.filed _ _ _ (h.stands a ha), h.pairs⟩

theorem Kept.snoc {partnerId : ℕ} {as : List (Answer ε)} {t u : CarrierDesk} {b : Answer ε}
    (h : Kept rt partnerId as t) (hg : Grows t u)
    (hb : Answered partnerId (idempotencyKey rt b.delivery.payload) t b.result u) :
    Kept rt partnerId (as ++ [b]) u := by
  constructor
  · intro a ha
    rcases List.mem_append.mp ha with ha | ha
    · exact hg.filed _ _ _ (h.stands a ha)
    · rw [List.mem_singleton.mp ha]
      exact hb.stands
  · refine List.pairwise_append.mpr ⟨h.pairs, List.pairwise_singleton _ _, ?_⟩
    intro a ha b' hb'
    obtain rfl := List.mem_singleton.mp hb'
    have hstands := h.stands a ha
    constructor
    · rintro ⟨hdup, hid⟩
      have hknown := hb.known hdup
      rw [hid] at hknown
      exact filed_injective hknown hstands
    · intro hkey
      rw [← hkey] at hstands
      exact hb.found _ hstands

theorem kept_run {t u : CarrierDesk} {q : WebhookRequest ε}
    {r : Except Failure (Option ReceiveResult)} {as : List (Answer ε)}
    (h : Kept rt (shiprocketPartner fallbackId t.shipping) as t)
    (hr : Pool.Ran anyCall (q.prog rt toLowerCase fallbackId) t r u) :
    Grows t u ∧
      Kept rt (shiprocketPartner fallbackId t.shipping) (as ++ (answer? (q, r)).toList) u := by
  cases q with
  | receive event d =>
    have hgrows : Alone anyCall (fun _ v => Grows t v)
        (receiveShiprocket rt toLowerCase fallbackId d) t :=
      Alone.of_every ((growing_receiveShiprocket rt toLowerCase fallbackId d).mono
        fun _ _ _ _ _ hg ht => ht.trans hg) (.refl t)
    have hprog : Alone anyCall (fun r v => Grows t v ∧ ∀ res, r = .ok (some res) →
          Answered (shiprocketPartner fallbackId t.shipping) (idempotencyKey rt d.payload) t res v)
        ((WebhookRequest.receive event d).prog rt toLowerCase fallbackId) t := by
      refine Alone.bind ((receiveShiprocket_answered fallbackId).and hgrows) (fun res v hv => ?_)
        fun e v hv => ⟨hv.2, nofun⟩
      refine Alone.done ⟨hv.2, ?_⟩
      rintro _ ⟨⟩
      exact hv.1
    obtain ⟨hg, ha⟩ := ran_alone hprog hr
    refine ⟨hg, ?_⟩
    rcases r with e | _ | res
    · simpa [answer?] using h.grow hg
    · simpa [answer?] using h.grow hg
    · exact Kept.snoc h hg (ha res rfl)
  | job token id =>
    have hgrows : Alone anyCall (fun _ v => Grows t v)
        ((WebhookRequest.job token id : WebhookRequest ε).prog rt toLowerCase fallbackId) t := by
      refine Alone.of_every (Prog.Every.mono (fun _ _ _ _ _ hg ht => ht.trans hg) ?_) (.refl t)
      exact (growing_processWebhook toLowerCase token id).bind fun _ => Prog.every_done _
    have hg := ran_alone hgrows hr
    exact ⟨hg, by simpa [answer?] using h.grow hg⟩

theorem kept_history {start t : CarrierDesk}
    {calls : List (WebhookRequest ε × Except Failure (Option ReceiveResult))}
    (h : Pool.History anyCall (WebhookRequest.prog rt toLowerCase fallbackId) start calls t) :
    Kept rt (shiprocketPartner fallbackId t.shipping) (answers calls) t := by
  refine h.invariant (P := fun calls t =>
    Kept rt (shiprocketPartner fallbackId t.shipping) (answers calls) t) ?_ ?_
  · exact ⟨fun a ha => (List.not_mem_nil ha).elim, List.Pairwise.nil⟩
  · intro calls t q r u hkept hr
    obtain ⟨hg, hkept'⟩ := kept_run hkept hr
    have hpartner : shiprocketPartner fallbackId u.shipping =
        shiprocketPartner fallbackId t.shipping := by
      rw [shiprocketPartner, hg.partners, shiprocketPartner]
    have hanswers : answers (calls ++ [(q, r)]) = answers calls ++ (answer? (q, r)).toList := by
      cases ha : answer? (q, r) <;> simp [answers, ha]
    rw [hpartner, hanswers]
    exact hkept'

/-- In every sequence of deliveries and jobs in which a redelivery repeats its payload, the answers
tell the events apart exactly when no two different events that were answered have one key. -/
theorem events_told_apart {start t : CarrierDesk}
    {calls : List (WebhookRequest ε × Except Failure (Option ReceiveResult))}
    (hsame : ∀ a ∈ answers calls, ∀ b ∈ answers calls, b.event = a.event →
      b.delivery.payload = a.delivery.payload)
    (h : Pool.History anyCall (WebhookRequest.prog rt toLowerCase fallbackId) start calls t) :
    ToldApart (answers calls) ↔ KeysDiffer rt (answers calls) := by
  have hpairs := (kept_history h).pairs
  constructor
  · intro htold
    refine (hpairs.and htold).imp ?_
    rintro a b ⟨hkeys, hevents⟩ hne hkey
    exact hne (hevents.mp (hkeys.mpr hkey))
  · intro hdiffer
    refine (hpairs.and hdiffer).imp_of_mem ?_
    rintro a b ha hb ⟨hkeys, hdiff⟩
    constructor
    · intro hrep
      by_contra hne
      exact hdiff hne (hkeys.mp hrep)
    · intro hevent
      refine hkeys.mpr ?_
      rw [hsame a ha b hb hevent]

end Sequences

/-! ### One parcel that is out for delivery twice -/

def scan (status time : String) : CarrierDelivery where
  payload := .object [("awb", .string "AWB1"), ("current_status", .string status),
    ("current_timestamp", .string time)]

def parcelDesk : CarrierDesk where
  shipping :=
    { orders := outForDelivery.orders
      warehouses := [0]
      partners := outForDelivery.partners
      shipments := Table.empty.insert fun n =>
        { id := n, shipmentNumber := "SHP-1", orderId := 0, warehouseId := 0, partnerId := 0,
          awbNumber := some "AWB1", status := .inTransit }
      tracking := Table.empty.insert fun n => ⟨n, 0, .inTransit, none, 0⟩ }

def scanInputs (status : String) : List ShippingInput := List.replicate 30 { reply := { status } }

/-- A delivery of the `n`th scan by itself, while the carrier reports the status. -/
def delivered? (n : ℕ) (status time : String) (t : CarrierDesk) :
    Pool CarrierCall ShippingInput CarrierDesk Failure (Option ReceiveResult) :=
  Pool.solo ((WebhookRequest.receive n (scan status time)).prog .plain id 0) t (scanInputs status)

theorem ran_scan (n : ℕ) (status time : String) (t : CarrierDesk) (res : ReceiveResult)
    (h : (delivered? n status time t).result? = some (.ok (some res))) :
    Pool.Ran anyCall ((WebhookRequest.receive n (scan status time)).prog .plain id 0) t
      (.ok (some res)) (delivered? n status time t).state :=
  ⟨scanInputs status, Pool.soloAdmits_of_forall fun _ _ _ _ => trivial, h, rfl⟩

def attempted : CarrierDesk := (delivered? 1 "out_for_delivery" "Mon 9:00" parcelDesk).state

def redelivered : List (WebhookRequest ℕ × Except Failure (Option ReceiveResult)) :=
  [(.receive 1 (scan "out_for_delivery" "Mon 9:00"), .ok (some ⟨false, 0, false⟩)),
   (.receive 1 (scan "out_for_delivery" "Mon 9:00"), .ok (some ⟨true, 0, false⟩))]

theorem events_told_apart_redelivered :
    ToldApart (answers redelivered) ↔ KeysDiffer .plain (answers redelivered) := by
  have hfirst := ran_scan 1 "out_for_delivery" "Mon 9:00" parcelDesk ⟨false, 0, false⟩
    (by decide +kernel)
  have hsecond := ran_scan 1 "out_for_delivery" "Mon 9:00" attempted ⟨true, 0, false⟩
    (by decide +kernel)
  have hcalls : Pool.History anyCall (WebhookRequest.prog .plain id 0) parcelDesk redelivered _ :=
    .snoc (.snoc .nil hfirst) hsecond
  refine events_told_apart ?_ hcalls
  intro a ha b hb _
  simp only [answers, answer?, redelivered, List.filterMap_cons, List.filterMap_nil,
    List.mem_cons, List.not_mem_nil, or_false] at ha hb
  rcases ha with rfl | rfl <;> rcases hb with rfl | rfl <;> rfl

def attempts : List (WebhookRequest ℕ × Except Failure (Option ReceiveResult)) :=
  [(.receive 1 (scan "out_for_delivery" "Mon 9:00"), .ok (some ⟨false, 0, false⟩)),
   (.receive 2 (scan "out_for_delivery" "Tue 9:00"), .ok (some ⟨true, 0, false⟩))]

/-- The second one is dropped. -/
theorem second_attempt_dropped :
    Pool.History anyCall (WebhookRequest.prog .plain id 0) parcelDesk attempts
      (delivered? 2 "out_for_delivery" "Tue 9:00" attempted).state ∧
    ¬ ToldApart (answers attempts) := by
  have hfirst := ran_scan 1 "out_for_delivery" "Mon 9:00" parcelDesk ⟨false, 0, false⟩
    (by decide +kernel)
  have hsecond := ran_scan 2 "out_for_delivery" "Tue 9:00" attempted ⟨true, 0, false⟩
    (by decide +kernel)
  refine ⟨.snoc (.snoc .nil hfirst) hsecond, fun h => ?_⟩
  have hpair := (List.pairwise_cons.mp h).1 _ List.mem_cons_self
  have hevent : (2 : ℕ) = 1 := hpair.mp ⟨rfl, rfl⟩
  omega

end ElectronicsCart.Shipping
