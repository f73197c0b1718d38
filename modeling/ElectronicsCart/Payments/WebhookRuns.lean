import ElectronicsCart.Core.Alone
import ElectronicsCart.Payments.Webhooks

/-!
# One stored webhook for each event

Rows are found again by their idempotency key, and two different payloads can have the
same one.  A delivery is answered by the row of its own event exactly when no other
event was stored under its key before.
-/

namespace ElectronicsCart.Payments

open Interleaving Relational

/-! ### What processing leaves alone -/

/-- The rows are the same, but for the columns that processing writes. -/
def SameWebhooks (s s' : Shop) : Prop :=
  s'.webhooks.rows.map (fun w => (w.id, w.deleted)) =
    s.webhooks.rows.map fun w => (w.id, w.deleted)

/-- Every call of the program leaves the stored webhooks where they are. -/
abbrev KeepsWebhooks {α : Type} (p : ShopProg α) : Prop :=
  p.Every (fun _ _ _ => True) fun _ _ s s' => SameWebhooks s s'

theorem keeps_query {α : Type} {l : ShopCall} {f : ShopInput → Shop → α} :
    KeepsWebhooks (query l f) :=
  every_query fun _ _ _ => rfl

theorem keeps_atomic {α : Type} {l : ShopCall} {f : ShopInput → Shop → Except Failure (α × Shop)}
    (h : ∀ i s b s', f i s = .ok (b, s') → s'.webhooks = s.webhooks) :
    KeepsWebhooks (atomic l f) := by
  refine every_atomic (fun _ _ _ => rfl) ?_
  intro i s b s' _ _ hf
  simp [SameWebhooks, h i s b s' hf]

theorem keeps_markWebhook (id : ℕ) (status : WebhookProcessingStatus) (err : Option Failure) :
    KeepsWebhooks (markWebhook id status err) := by
  refine every_atomic (fun _ _ _ => rfl) ?_
  intro i s b s' _ _ hf
  simp only [bind_eq_ok, existing_eq_ok, pure_eq_ok, Prod.mk.injEq] at hf
  obtain ⟨w, _, _, rfl⟩ := hf
  simp only [SameWebhooks, Table.rows_update, List.map_map]
  refine List.map_congr_left fun w _ => ?_
  by_cases hw : key w = id <;> simp [hw]

theorem keeps_findWebhookPayment (entity : Option WebhookEntity) :
    KeepsWebhooks (findWebhookPayment entity) := by
  refine Prog.Every.bind ?_ fun found => ?_
  · unfold findNamedPayment
    split
    · trivial
    · exact keeps_query
  · split
    · trivial
    · exact keeps_query
    · trivial

theorem keeps_applyGatewayStatus (id : ℕ) (status : PaymentStatus) (gatewayId : Option String) :
    KeepsWebhooks (applyGatewayStatus id status gatewayId) := by
  refine Prog.Every.bind (Prog.Every.bind keeps_query fun _ => Prog.every_orThrow _ _)
    fun payment => Prog.Every.bind ?_ fun _ => Prog.Every.bind ?_ fun _ =>
      Prog.Every.bind ?_ fun _ => trivial
  · refine keeps_atomic fun i s b s' hf => ?_
    simp only [writePayment, bind_eq_ok, pure_eq_ok, Prod.mk.injEq] at hf
    obtain ⟨_, _, _, _, _, rfl⟩ := hf
    rfl
  · refine keeps_atomic fun i s b s' hf => ?_
    cases hf
    rfl
  · refine keeps_atomic fun i s b s' hf => ?_
    cases hf
    rfl

theorem keeps_settleWebhook (row : PaymentWebhook) (payment : Option Payment) :
    KeepsWebhooks (settleWebhook row payment) := by
  cases payment with
  | none => trivial
  | some payment =>
    refine Prog.Every.bind ?_ fun _ => keeps_atomic fun i s b s' hf => ?_
    · unfold applyWebhook
      split
      · trivial
      · exact Prog.Every.bind (keeps_applyGatewayStatus _ _ _) fun _ => trivial
    · cases hf
      rfl

theorem keeps_processWebhook (id : ℕ) : KeepsWebhooks (processWebhook id) := by
  refine Prog.Every.bind keeps_query fun found => ?_
  split
  · trivial
  · split
    · trivial
    · refine Prog.Every.tryCatch ?_ fun err =>
        Prog.Every.bind (keeps_markWebhook _ _ _) fun _ => trivial
      exact Prog.Every.bind (keeps_findWebhookPayment _) fun payment =>
        Prog.Every.bind (keeps_settleWebhook _ _) fun _ => keeps_markWebhook _ _ _

/-! ### The stored webhooks -/

section Desk

variable (rt : Runtime)

/-- Every webhook stands under the key of its payload, and no two active ones of a gateway
share a key. -/
structure WebhookDesk.WellKept (t : WebhookDesk) : Prop where
  keyed : ∀ w ∈ t.shop.webhooks.rows,
    (t.columns w.id).idempotencyKey = idempotencyKey rt (t.columns w.id).payload
  unique : ∀ w ∈ t.shop.webhooks.rows, ∀ v ∈ t.shop.webhooks.rows,
    w.deleted = false → v.deleted = false →
    (t.columns w.id).gatewayId = (t.columns v.id).gatewayId →
    (t.columns w.id).idempotencyKey = (t.columns v.id).idempotencyKey → w.id = v.id

/-- No active webhook of another event stands under the key of the payload. -/
def WebhookDesk.FreeFor (t : WebhookDesk) (gatewayId : ℕ) (payload : JsValue) : Prop :=
  ∀ w ∈ t.shop.webhooks.rows, t.matching gatewayId (idempotencyKey rt payload) w = true →
    (t.columns w.id).payload = payload

/-- The answer names a row that holds this very event; the row is new when the answer is not
a duplicate, and it is processed or has a job that will process it. -/
structure AnsweredByOwnRow (payload : JsValue) (res : ReceiveResult) (t u : WebhookDesk) :
    Prop where
  payload : (u.columns res.webhookId).payload = payload
  stored : ∃ w ∈ u.shop.webhooks.rows, w.id = res.webhookId ∧
    (w.processingStatus = .processed ∨ res.webhookId ∈ u.enqueued)
  fresh : res.duplicate = false → ∀ w ∈ t.shop.webhooks.rows, w.id ≠ res.webhookId

def WebhookDesk.Processed (t : WebhookDesk) (gatewayId : ℕ) (payload : JsValue) : Prop :=
  ∃ w ∈ t.shop.webhooks.rows, w.deleted = false ∧ (t.columns w.id).gatewayId = gatewayId ∧
    (t.columns w.id).payload = payload ∧ w.processingStatus = .processed

/-- Nothing but the locks may differ. -/
structure Untouched (t u : WebhookDesk) : Prop where
  shop : u.shop = t.shop
  columns : u.columns = t.columns
  enqueued : u.enqueued = t.enqueued

structure Received (gatewayId : ℕ) (d : WebhookDelivery) (t : WebhookDesk)
    (r : Except Failure ReceiveResult) (u : WebhookDesk) : Prop where
  kept : u.WellKept rt
  own : ∀ res, r = .ok res →
    (AnsweredByOwnRow d.payload res t u ↔ t.FreeFor rt gatewayId d.payload)
  redelivery : ∀ res, r = .ok res → t.Processed gatewayId d.payload →
    res.duplicate = true ∧ Untouched t u

end Desk

section Runs

variable {rt : Runtime} {t : WebhookDesk} {gatewayId : ℕ} {d : WebhookDelivery}

theorem sameWebhooks_mem {s s' : Shop} (h : SameWebhooks s s') {w : PaymentWebhook}
    (hw : w ∈ s'.webhooks.rows) : ∃ v ∈ s.webhooks.rows, v.id = w.id ∧ v.deleted = w.deleted := by
  have hpair : (w.id, w.deleted) ∈ s'.webhooks.rows.map fun w => (w.id, w.deleted) :=
    List.mem_map_of_mem hw
  rw [h] at hpair
  obtain ⟨v, hv, heq⟩ := List.mem_map.mp hpair
  simp only [Prod.mk.injEq] at heq
  exact ⟨v, hv, heq.1, heq.2⟩

theorem wellKept_processed {s' : Shop} (ht : t.WellKept rt) (h : SameWebhooks t.shop s') :
    ({ t with shop := s' } : WebhookDesk).WellKept rt := by
  constructor
  · intro w hw
    obtain ⟨v, hv, hid, _⟩ := sameWebhooks_mem h hw
    have hkey := ht.keyed v hv
    rwa [hid] at hkey
  · intro w hw w' hw' hactive hactive' hgateway hkey
    obtain ⟨v, hv, hid, hdel⟩ := sameWebhooks_mem h hw
    obtain ⟨v', hv', hid', hdel'⟩ := sameWebhooks_mem h hw'
    rw [← hid, ← hid'] at hgateway hkey ⊢
    exact ht.unique v hv v' hv' (hdel.trans hactive) (hdel'.trans hactive') hgateway hkey

theorem alone_processWebhook (id : ℕ) :
    Alone (fun _ _ _ => True) (fun _ u => ∃ s', SameWebhooks t.shop s' ∧ u = { t with shop := s' })
      (inShop (processWebhook id)) t := by
  have hevery : (inShop (processWebhook id)).Every (fun _ _ _ => True) fun m _ u u' =>
      ∃ l s', m = .shop l ∧ SameWebhooks u.shop s' ∧ u' = { u with shop := s' } :=
    (keeps_processWebhook id).zoom fun _ _ _ _ => trivial
  refine Alone.of_every (hevery.mono ?_) ⟨t.shop, rfl, rfl⟩
  intro _ _ u u' _ ⟨_, s', _, hsame, hu'⟩ ⟨s, hs, hu⟩
  subst hu hu'
  exact ⟨s', hsame.trans hs, rfl⟩

/-! ### One delivery -/

theorem matching_iff {key : String} {w : PaymentWebhook} :
    t.matching gatewayId key w = true ↔
      (t.columns w.id).gatewayId = gatewayId ∧ (t.columns w.id).idempotencyKey = key ∧
        w.deleted = false := by
  simp [WebhookDesk.matching, and_assoc]

theorem matching_unique {key : String} {w v : PaymentWebhook} (ht : t.WellKept rt)
    (hw : w ∈ t.shop.webhooks.rows) (hv : v ∈ t.shop.webhooks.rows)
    (hmw : t.matching gatewayId key w = true) (hmv : t.matching gatewayId key v = true) :
    w = v := by
  obtain ⟨hgw, hkw, hdw⟩ := matching_iff.mp hmw
  obtain ⟨hgv, hkv, hdv⟩ := matching_iff.mp hmv
  have hid := ht.unique w hw v hv hdw hdv (hgw.trans hgv.symm) (hkw.trans hkv.symm)
  exact Table.eq_of_key_eq hw hv hid

theorem processed_matching (ht : t.WellKept rt) (h : t.Processed gatewayId d.payload) :
    ∃ w ∈ t.shop.webhooks.rows,
      t.matching gatewayId (idempotencyKey rt d.payload) w = true ∧
        w.processingStatus = .processed := by
  obtain ⟨w, hw, hactive, hgateway, hpayload, hstatus⟩ := h
  have hkey := ht.keyed w hw
  rw [hpayload] at hkey
  exact ⟨w, hw, matching_iff.mpr ⟨hgateway, hkey, hactive⟩, hstatus⟩

theorem received_duplicate {w : PaymentWebhook} {res : ReceiveResult} {u : WebhookDesk}
    (ht : t.WellKept rt)
    (hw : t.shop.webhooks.first? (t.matching gatewayId (idempotencyKey rt d.payload)) = some w)
    (hid : res.webhookId = w.id) (hdup : res.duplicate = true)
    (hshop : u.shop = t.shop) (hcolumns : u.columns = t.columns)
    (hwork : w.processingStatus = .processed ∧ u.enqueued = t.enqueued ∨
      w.processingStatus ≠ .processed ∧ res.webhookId ∈ u.enqueued) :
    Received rt gatewayId d t (.ok res) u := by
  obtain ⟨hmem, hmatch⟩ := Table.first?_mem hw
  have hkept : u.WellKept rt := by
    constructor
    · rw [hshop, hcolumns]
      exact ht.keyed
    · rw [hshop, hcolumns]
      exact ht.unique
  refine ⟨hkept, ?_, ?_⟩
  · rintro _ ⟨⟩
    constructor
    · intro hown v hv hmv
      have hsame : v = w := matching_unique ht hv hmem hmv hmatch
      rw [hsame, ← hid, ← hcolumns]
      exact hown.payload
    · intro hfree
      refine ⟨?_, ⟨w, hshop ▸ hmem, hid.symm, ?_⟩, fun hnew => ?_⟩
      · rw [hcolumns, hid]
        exact hfree w hmem hmatch
      · exact hwork.imp And.left And.right
      · simp [hdup] at hnew
  · rintro _ ⟨⟩ hprocessed
    obtain ⟨v, hv, hmv, hstatus⟩ := processed_matching ht hprocessed
    have hsame : v = w := matching_unique ht hv hmem hmv hmatch
    rcases hwork with ⟨_, henqueued⟩ | ⟨hnot, _⟩
    · exact ⟨hdup, hshop, hcolumns, henqueued⟩
    · exact absurd (hsame ▸ hstatus) hnot

theorem insertWebhook_cases {key : String} {id : ℕ} {u : WebhookDesk}
    (h : insertWebhook rt gatewayId key d t = .ok (id, u)) :
    id = t.shop.webhooks.next ∧ u.enqueued = t.enqueued ∧
      (∀ w, w ∈ u.shop.webhooks.rows ↔ w ∈ t.shop.webhooks.rows ∨
        w = { id, eventType := jsSlice 120 (eventType rt d.payload),
              entity := webhookEntity rt d.payload }) ∧
      (u.columns id).payload = d.payload ∧ (u.columns id).idempotencyKey = key ∧
      (u.columns id).gatewayId = gatewayId ∧
      ∀ n, n ≠ id → u.columns n = t.columns n := by
  simp only [insertWebhook, bind_eq_ok, check_eq_ok, pure_eq_ok, Prod.mk.injEq] at h
  obtain ⟨_, _, _, _, _, _, rfl, rfl⟩ := h
  refine ⟨rfl, rfl, ?_, ?_, ?_, ?_, ?_⟩
  · intro w
    exact Table.mem_insert _
  · simp
  · simp
  · simp
  · intro n hn
    simp [Function.update_of_ne hn]

theorem no_matching {key : String} (h : t.shop.webhooks.first? (t.matching gatewayId key) = none)
    {w : PaymentWebhook} (hw : w ∈ t.shop.webhooks.rows) : t.matching gatewayId key w = false := by
  have hnone := List.find?_eq_none.mp h w hw
  simpa using hnone

theorem wellKept_inserted {id : ℕ} {u : WebhookDesk} (ht : t.WellKept rt)
    (hnone : t.shop.webhooks.first?
      (t.matching gatewayId (idempotencyKey rt d.payload)) = none)
    (h : insertWebhook rt gatewayId (idempotencyKey rt d.payload) d t = .ok (id, u)) :
    u.WellKept rt := by
  obtain ⟨hid, -, hrows, hpayload, hkey, hgateway, hother⟩ := insertWebhook_cases h
  have hold : ∀ w ∈ t.shop.webhooks.rows, u.columns w.id = t.columns w.id := by
    intro w hw
    have hlt : w.id < t.shop.webhooks.next := t.shop.webhooks.fresh w hw
    exact hother w.id (by omega)
  -- the new webhook's key is shared with no active one
  have hfree : ∀ w ∈ t.shop.webhooks.rows, w.deleted = false →
      (u.columns w.id).gatewayId = (u.columns id).gatewayId →
      (u.columns w.id).idempotencyKey ≠ (u.columns id).idempotencyKey := by
    intro w hw hactive hg hk
    rw [hold w hw] at hg hk
    have hmatch := matching_iff.mpr ⟨hg.trans hgateway, hk.trans hkey, hactive⟩
    simp [no_matching hnone hw] at hmatch
  constructor
  · intro w hw
    rcases (hrows w).mp hw with hw | rfl
    · rw [hold w hw]
      exact ht.keyed w hw
    · rw [hpayload, hkey]
  · intro w hw v hv hactive hactive' hg hk
    rcases (hrows w).mp hw with hw | rfl
    · rcases (hrows v).mp hv with hv | rfl
      · rw [hold w hw, hold v hv] at hg hk
        exact ht.unique w hw v hv hactive hactive' hg hk
      · exact absurd hk (hfree w hw hactive hg)
    · rcases (hrows v).mp hv with hv | rfl
      · exact absurd hk.symm (hfree v hv hactive' hg.symm)
      · rfl

theorem received_new {id : ℕ} {u : WebhookDesk} {s' : Shop} {res : ReceiveResult}
    (hnone : t.shop.webhooks.first?
      (t.matching gatewayId (idempotencyKey rt d.payload)) = none)
    (h : insertWebhook rt gatewayId (idempotencyKey rt d.payload) d t = .ok (id, u))
    (hkept : ({ u with enqueued := u.enqueued ++ [id], shop := s' } : WebhookDesk).WellKept rt)
    (hsame : SameWebhooks u.shop s') (hid : res.webhookId = id) (ht : t.WellKept rt) :
    Received rt gatewayId d t (.ok res)
      { u with enqueued := u.enqueued ++ [id], shop := s' } := by
  obtain ⟨hnext, -, hrows, hpayload, -, -, -⟩ := insertWebhook_cases h
  refine ⟨hkept, ?_, ?_⟩
  · rintro _ ⟨⟩
    have hfree : t.FreeFor rt gatewayId d.payload := by
      intro w hw hmatch
      simp [no_matching hnone hw] at hmatch
    have hstored : ∃ w ∈ s'.webhooks.rows, w.id = id := by
      have hpair : (id, false) ∈ u.shop.webhooks.rows.map fun w => (w.id, w.deleted) :=
        List.mem_map.mpr ⟨_, (hrows _).mpr (.inr rfl), rfl⟩
      rw [← hsame] at hpair
      obtain ⟨w, hw, heq⟩ := List.mem_map.mp hpair
      simp only [Prod.mk.injEq] at heq
      exact ⟨w, hw, heq.1⟩
    obtain ⟨w, hw, hwid⟩ := hstored
    refine ⟨fun _ => hfree, fun _ => ⟨?_, ⟨w, hw, hwid.trans hid.symm, ?_⟩, ?_⟩⟩
    · rw [hid]
      exact hpayload
    · exact .inr (by simp [hid])
    · intro _ v hv
      have hlt : v.id < t.shop.webhooks.next := t.shop.webhooks.fresh v hv
      omega
  · rintro _ ⟨⟩ hprocessed
    obtain ⟨v, hv, hmv, -⟩ := processed_matching ht hprocessed
    simp [no_matching hnone hv] at hmv

theorem received_error {e : Failure} {u : WebhookDesk} (h : u.WellKept rt) :
    Received rt gatewayId d t (.error e) u :=
  ⟨h, fun _ hr => (nomatch hr), fun _ hr => (nomatch hr)⟩

theorem alone_storeWebhook (ht : t.WellKept rt) :
    Alone (fun _ _ _ => True) (Received rt gatewayId d t)
      (storeWebhook rt gatewayId (idempotencyKey rt d.payload) d) t := by
  refine Alone.queryBind (fun i _ _ => ?_) fun i _ _ => received_error ht
  cases hfirst : t.shop.webhooks.first? (t.matching gatewayId (idempotencyKey rt d.payload)) with
  | some w =>
    by_cases hstatus : w.processingStatus = .processed
    · simp only [hstatus, if_true]
      exact Alone.done (received_duplicate ht hfirst rfl rfl rfl rfl (.inl ⟨hstatus, rfl⟩))
    · simp only [hstatus, if_false]
      refine Alone.atomicBind (fun i _ u _ _ hu => ?_) fun i e _ _ => received_error ht
      cases hu
      exact Alone.done (received_duplicate ht hfirst rfl rfl rfl rfl (.inr ⟨hstatus, by simp⟩))
  | none =>
    refine Alone.atomicBind (fun i id u _ _ hu => ?_) fun i e _ _ => received_error ht
    have hkept := wellKept_inserted ht hfirst hu
    refine Alone.atomicBind (fun i _ u' _ _ hu' => ?_) fun i e _ _ => received_error hkept
    cases hu'
    have hqueued : ({ u with enqueued := u.enqueued ++ [id] } : WebhookDesk).WellKept rt :=
      ⟨hkept.keyed, hkept.unique⟩
    have hinline := alone_processWebhook (t := { u with enqueued := u.enqueued ++ [id] }) id
    have hcaught : Alone (fun _ _ _ => True)
        (fun _ v => ∃ s', SameWebhooks u.shop s' ∧
          v = { u with enqueued := u.enqueued ++ [id], shop := s' })
        (tryCatch (inShop (processWebhook id)) fun _ => pure ())
        { u with enqueued := u.enqueued ++ [id] } :=
      Alone.tryCatch hinline (fun _ _ h => h) fun _ _ h => Alone.done h
    refine Alone.bind hcaught ?_ ?_
    · intro _ v ⟨s', hsame, hv⟩
      subst hv
      exact Alone.done (received_new hfirst hu (wellKept_processed hqueued hsame) hsame rfl ht)
    · intro e v ⟨s', hsame, hv⟩
      subst hv
      exact received_error (wellKept_processed hqueued hsame)

theorem received_locks {r : Except Failure ReceiveResult} {u : WebhookDesk} {m : LockStore String}
    (m' : LockStore String) (h : Received rt gatewayId d { t with locks := m } r u) :
    Received rt gatewayId d t r { u with locks := m' } := by
  refine ⟨⟨h.kept.keyed, h.kept.unique⟩, fun res hr => ?_, fun res hr hprocessed => ?_⟩
  · have hiff := h.own res hr
    constructor
    · intro hown
      exact hiff.mp ⟨hown.payload, hown.stored, hown.fresh⟩
    · intro hfree
      have hown := hiff.mpr hfree
      exact ⟨hown.payload, hown.stored, hown.fresh⟩
  · obtain ⟨hdup, huntouched⟩ := h.redelivery res hr hprocessed
    exact ⟨hdup, huntouched.shop, huntouched.columns, huntouched.enqueued⟩

theorem alone_receiveRazorpay (fallbackId : ℕ) (ht : t.WellKept rt) :
    Alone (fun _ _ _ => True) (Received rt (razorpayGateway fallbackId t) d t)
      (receiveRazorpay rt fallbackId d) t := by
  refine Alone.queryBind (fun i _ _ => ?_) fun i _ _ => received_error ht
  refine Alone.ensureBind (fun _ => ?_) fun _ => received_error ht
  have hlocked : ∀ m, ({ t with locks := m } : WebhookDesk).WellKept rt :=
    fun m => ⟨ht.keyed, ht.unique⟩
  refine Alone.withLock (fun _ _ _ _ => received_error ht)
    (fun _ => alone_storeWebhook (hlocked _)) (fun r u h => ?_) fun r i u h _ _ => ?_
  · rcases LockService.drop_cases (L := DeskCall) (idempotencyKey rt d.payload) d.token u with
      ⟨_, hdrop⟩ | hdrop
    · rw [hdrop]
      exact received_locks _ h
    · rw [hdrop]
      exact received_locks u.locks h
  · exact received_error ⟨h.kept.keyed, h.kept.unique⟩

/-! ### Sequences of deliveries -/

theorem wellKept_run {fallbackId : ℕ} {q : DeskRequest} {r : Except Failure (Option ReceiveResult)}
    {u : WebhookDesk} (ht : t.WellKept rt)
    (hr : Pool.Ran (fun _ _ _ => True) (q.prog rt fallbackId) t r u) : u.WellKept rt := by
  have halone : Alone (fun _ _ _ => True) (fun _ u => u.WellKept rt) (q.prog rt fallbackId) t := by
    cases q with
    | receive d =>
      refine Alone.bind (alone_receiveRazorpay fallbackId ht) (fun _ v h => Alone.done h.kept) ?_
      exact fun _ v h => h.kept
    | job id =>
      refine Alone.bind (alone_processWebhook id) (fun _ v h => Alone.done ?_) fun _ v h => ?_
      · obtain ⟨s', hsame, rfl⟩ := h
        exact wellKept_processed ht hsame
      · obtain ⟨s', hsame, rfl⟩ := h
        exact wellKept_processed ht hsame
  exact ran_alone halone hr

/-- After any deliveries and jobs, an answered delivery is answered by a row of its own event
exactly when no other event stands under its key; and when its event is processed already it is
a duplicate that changes nothing. -/
theorem webhook_answered {fallbackId : ℕ} {t₀ u : WebhookDesk}
    {calls : List (DeskRequest × Except Failure (Option ReceiveResult))} {res : ReceiveResult}
    (hkept : t₀.WellKept rt)
    (hcalls : Pool.History (fun _ _ _ => True) (DeskRequest.prog rt fallbackId) t₀ calls t)
    (hr : Pool.Ran (fun _ _ _ => True) (receiveRazorpay rt fallbackId d) t (.ok res) u) :
    (AnsweredByOwnRow d.payload res t u ↔
        t.FreeFor rt (razorpayGateway fallbackId t) d.payload) ∧
      (t.Processed (razorpayGateway fallbackId t) d.payload →
        res.duplicate = true ∧ Untouched t u) := by
  have ht : t.WellKept rt :=
    hcalls.invariant (P := fun _ u => u.WellKept rt) hkept fun _ _ _ _ _ h hran => wellKept_run h hran
  have hreceived := ran_alone (alone_receiveRazorpay fallbackId ht) hr
  exact ⟨hreceived.own res rfl, hreceived.redelivery res rfl⟩

end Runs

/-! ### Two events of one payment -/

/-- The body of a webhook about payment `pay_1`: it has no id of its own. -/
def paymentEvent (event status : String) : JsValue :=
  .object
    [("event", .string event),
     ("payload", .object
       [("payment", .object
         [("entity", .object [("id", .string "pay_1"), ("status", .string status)])])])]

def authorizedDelivery : WebhookDelivery := { payload := paymentEvent "payment.authorized" "authorized" }
def capturedDelivery : WebhookDelivery := { payload := paymentEvent "payment.captured" "captured" }

/-- The gateway and a pending payment it knows as `pay_1`. -/
def pendingDesk : WebhookDesk where
  shop :=
    { gateways := Table.empty.insert fun n => { id := n, code := "razorpay" }
      payments := Table.empty.insert fun n =>
        { id := n, orderId := 0, customerId := none, gatewayId := 0, gatewayPaymentId := some "pay_1"
          amount := 100 } }

def deskInputs : List ShopInput := List.replicate 20 { reply := {} }

def afterDelivery (d : WebhookDelivery) (t : WebhookDesk) : WebhookDesk :=
  (Pool.solo (receiveRazorpay .plain 0 d) t deskInputs).state

theorem pendingDesk_wellKept : pendingDesk.WellKept .plain :=
  ⟨fun w hw => by simp [pendingDesk, Table.empty] at hw, fun w hw => by simp [pendingDesk, Table.empty] at hw⟩

theorem ran_delivery (d : WebhookDelivery) (t : WebhookDesk) (res : ReceiveResult)
    (h : (Pool.solo (receiveRazorpay .plain 0 d) t deskInputs).result? = some (.ok res)) :
    Pool.Ran (fun _ _ _ => True) (receiveRazorpay .plain 0 d) t (.ok res) (afterDelivery d t) :=
  ⟨deskInputs, Pool.soloAdmits_of_forall fun _ _ _ _ => trivial, h, rfl⟩

theorem webhook_answered_authorized :
    (AnsweredByOwnRow authorizedDelivery.payload { duplicate := false, webhookId := 0 } pendingDesk
          (afterDelivery authorizedDelivery pendingDesk) ↔
        pendingDesk.FreeFor .plain (razorpayGateway 0 pendingDesk) authorizedDelivery.payload) ∧
      (pendingDesk.Processed (razorpayGateway 0 pendingDesk) authorizedDelivery.payload →
        false = true ∧ Untouched pendingDesk (afterDelivery authorizedDelivery pendingDesk)) :=
  webhook_answered pendingDesk_wellKept .nil
    (ran_delivery authorizedDelivery pendingDesk { duplicate := false, webhookId := 0 }
      (by decide +kernel))

/-- The capture of the payment is taken for its authorization, and is never applied. -/
theorem captured_event_taken_for_duplicate :
    ¬ ∀ t d res u calls, Pool.History (fun _ _ _ => True) (DeskRequest.prog .plain 0) pendingDesk
        calls t →
      Pool.Ran (fun _ _ _ => True) (receiveRazorpay .plain 0 d) t (.ok res) u →
      AnsweredByOwnRow d.payload res t u := by
  intro h
  have hprog : (Pool.solo ((DeskRequest.receive authorizedDelivery).prog .plain 0) pendingDesk
      deskInputs).result? = some (.ok (some { duplicate := false, webhookId := 0 })) := by
    decide +kernel
  have hfirst := Pool.History.snoc .nil
    ⟨deskInputs, Pool.soloAdmits_of_forall fun _ _ _ _ => trivial, hprog, rfl⟩
  have hsecond := ran_delivery capturedDelivery
    (Pool.solo ((DeskRequest.receive authorizedDelivery).prog .plain 0) pendingDesk deskInputs).state
    { duplicate := true, webhookId := 0 } (by decide +kernel)
  have hown := (h _ _ _ _ _ hfirst hsecond).payload
  have hevent := congrArg (eventType .plain) hown
  revert hevent
  decide +kernel

end ElectronicsCart.Payments
