import ElectronicsCart.Cases.Runs

/-!
# How often a case is escalated

`CaseManager.evaluateSla` escalates a case whose snapshot is due and has no `escalatedAt`.  Only
`InMemoryCaseStore` keeps that mark; the four stores over the database load every case without it,
so that each evaluation finds a case that stays due anew.
-/

namespace ElectronicsCart.Cases

open Interleaving Relational

/-! ### Escalations -/

def entryFor (ref : CaseRef) (r : ServiceAuditLog) : Option CaseTimelineEntry :=
  match r.metadata, ref.kind with
  | .entry e _, .warrantyClaim => if r.claimId = some ref.id then some e else none
  | .entry e _, .serviceTicket => if r.ticketId = some ref.id then some e else none
  | .entry e _, .repairJob => if r.repairJobId = some ref.id then some e else none
  | .entry e rmaId, .rma => if rmaId = some ref.id then some e else none
  | _, _ => none

def entriesOf (ref : CaseRef) (s : CareState) : List CaseTimelineEntry :=
  if ref.kind = .support then s.memoryTimelines ref else s.audits.rows.filterMap (entryFor ref)

theorem entryFor_auditRow {ref other : CaseRef} {action : AuditAction} {actorId : Option ℕ}
    {entry : CaseTimelineEntry} {now n : ℕ} (hk : ref.kind ≠ .support) :
    entryFor ref (auditRow other action actorId (entryMetadata other entry now) now n) =
      if other = ref then some (entry.stamped now) else none := by
  obtain ⟨kind, id⟩ := ref
  obtain ⟨kind', id'⟩ := other
  cases kind <;> cases kind' <;>
    simp_all [entryFor, auditRow, entryMetadata]

def escalations (ref : CaseRef) (s : CareState) : ℕ :=
  (entriesOf ref s).countP fun e => e.type == .escalated

def isEscalationOf (ref : CaseRef) : CaseEvent → Bool
  | .escalated other _ _ _ _ => other == ref
  | _ => false

def escalationEvents (ref : CaseRef) (s : CareState) : ℕ := s.published.countP (isEscalationOf ref)

/-- The snapshot in memory carries `escalatedAt`. -/
def Marked (ref : CaseRef) (s : CareState) : Prop :=
  ∃ snap, s.memoryCases ref = some snap ∧ snap.escalatedAt ≠ none

structure SameEscalations (ref : CaseRef) (s s' : CareState) : Prop where
  entries : escalations ref s' = escalations ref s
  events : escalationEvents ref s' = escalationEvents ref s
  marked : Marked ref s → Marked ref s'

theorem SameEscalations.of_eq {ref : CaseRef} {s s' : CareState} (haudits : s'.audits = s.audits)
    (hcases : s'.memoryCases = s.memoryCases) (htimelines : s'.memoryTimelines = s.memoryTimelines)
    (hpublished : s'.published = s.published) : SameEscalations ref s s' where
  entries := by simp only [escalations, entriesOf, haudits, htimelines]
  events := by simp only [escalationEvents, hpublished]
  marked h := by simpa only [Marked, hcases] using h

theorem SameEscalations.refl (ref : CaseRef) (s : CareState) : SameEscalations ref s s :=
  .of_eq rfl rfl rfl rfl

theorem entriesOf_insert {ref : CaseRef} {s : CareState} {row : ℕ → ServiceAuditLog}
    {hrow : ∀ n, key (row n) = n} (hk : ref.kind ≠ .support) :
    entriesOf ref { s with audits := s.audits.insert row hrow } =
      entriesOf ref s ++ (entryFor ref (row s.audits.next)).toList := by
  simp only [entriesOf, if_neg hk, Table.insert, List.filterMap_append]
  cases he : entryFor ref (row s.audits.next) <;> simp [he]

theorem SameEscalations.insertAudit {ref : CaseRef} {s : CareState} {row : ℕ → ServiceAuditLog}
    {hrow : ∀ n, key (row n) = n}
    (h : ∀ n, (entryFor ref (row n)).all fun e => e.type != .escalated) :
    SameEscalations ref s { s with audits := s.audits.insert row hrow } where
  entries := by
    by_cases hk : ref.kind = .support
    · simp only [escalations, entriesOf, hk, if_true]
    · have hrow' := h s.audits.next
      rw [escalations, entriesOf_insert hk, List.countP_append]
      cases he : entryFor ref (row s.audits.next) with
      | none => rfl
      | some e =>
        rw [he] at hrow'
        have hno : (e.type == TimelineType.escalated) = false := by simpa using hrow'
        simp [hno, escalations]
  events := rfl
  marked h := h

theorem SameEscalations.memory {ref other : CaseRef} {s s' : CareState}
    (h : MemoryChange other s s') : SameEscalations ref s s' := by
  obtain ⟨snap, snap', hsnap, hmark, rfl⟩ := h
  refine ⟨rfl, rfl, ?_⟩
  rintro ⟨c, hc, hesc⟩
  by_cases href : ref = other
  · subst href
    obtain rfl := Option.some.inj (hc.symm.trans hsnap)
    exact ⟨snap', Function.update_self .., hmark hesc⟩
  · exact ⟨c, by simpa [Function.update_of_ne href] using hc, hesc⟩

theorem metadata_of_entryFor {ref : CaseRef} {r : ServiceAuditLog} {e : CaseTimelineEntry}
    (h : entryFor ref r = some e) : ∃ rmaId, r.metadata = .entry e rmaId := by
  unfold entryFor at h
  split at h <;> simp_all

theorem SameEscalations.insertMetadata {ref : CaseRef} {s : CareState} {row : ℕ → ServiceAuditLog}
    {hrow : ∀ n, key (row n) = n}
    (hmeta : ∀ n e rmaId, (row n).metadata = .entry e rmaId → e.type ≠ .escalated) :
    SameEscalations ref s { s with audits := s.audits.insert row hrow } := by
  refine .insertAudit fun n => ?_
  cases he : entryFor ref (row n) with
  | none => rfl
  | some e =>
    obtain ⟨rmaId, hm⟩ := metadata_of_entryFor he
    simpa using hmeta n e rmaId hm

theorem SameEscalations.writeAudit {ref other : CaseRef} {action : AuditAction} {actorId : Option ℕ}
    {metadata : AuditMetadata} {now : ℕ} {s s' : CareState} {u : Unit}
    (hmeta : ∀ e rmaId, metadata = .entry e rmaId → e.type ≠ .escalated)
    (h : writeAudit other action actorId metadata now s = .ok (u, s')) : SameEscalations ref s s' := by
  obtain ⟨-, rfl⟩ := writeAudit_eq_ok.mp h
  exact .insertMetadata fun _ => hmeta

theorem ne_escalated_of_plain {ref : CaseRef} {type : TimelineType}
    (h : plain (.appendTimeline ref type) = true) : type ≠ .escalated := by
  rintro rfl
  cases h

theorem SameEscalations.remember {ref other : CaseRef} {s : CareState} {entry : CaseTimelineEntry}
    (hne : entry.type ≠ .escalated) :
    SameEscalations ref s { s with
      memoryTimelines := Function.update s.memoryTimelines other
        (s.memoryTimelines other ++ [entry]) } := by
  refine ⟨?_, rfl, fun h => h⟩
  unfold escalations entriesOf
  split
  · by_cases href : ref = other
    · subst href
      simp [hne]
    · simp [Function.update_of_ne href]
  · rfl

theorem SameEscalations.announced {ref : CaseRef} {s : CareState} {event : CaseEvent}
    (h : plain (.publish event) = true) :
    SameEscalations ref s { s with published := s.published ++ [event] } := by
  refine ⟨rfl, ?_, fun h => h⟩
  have hno : isEscalationOf ref event = false := by
    cases event <;> first | rfl | cases h
  simp [escalationEvents, hno]

section Calls

variable {ref other : CaseRef} {now : ℕ} {s s' : CareState}

theorem SameEscalations.savesStatus {status : CaseStatus} (h : SavesStatus other status now s s') :
    SameEscalations ref s s' := by
  unfold SavesStatus at h
  split at h
  · obtain ⟨current, h⟩ := h
    obtain ⟨-, rfl⟩ := WarrantyClaimStore.writeStatus_cases h
    exact .of_eq rfl rfl rfl rfl
  · obtain ⟨current, h⟩ := h
    obtain ⟨-, rfl⟩ := RmaStore.writeStatus_cases h
    exact .of_eq rfl rfl rfl rfl
  · obtain ⟨current, h⟩ := h
    obtain ⟨-, rfl⟩ := ServiceTicketStore.writeStatus_cases h
    exact .of_eq rfl rfl rfl rfl
  · obtain ⟨actorId, h⟩ := h
    exact .writeAudit (by simp) h
  · exact .memory h

theorem SameEscalations.assigns {assigneeId : ℕ} (h : Assigns other assigneeId now s s') :
    SameEscalations ref s s' := by
  unfold Assigns at h
  split at h
  · obtain ⟨-, -, rfl⟩ := ServiceTicketStore.writeAssign_cases h
    exact .of_eq rfl rfl rfl rfl
  · obtain ⟨-, rfl⟩ := RepairJobStore.writeTechnician_cases h
    exact .of_eq rfl rfl rfl rfl
  · exact .memory h
  · exact h.elim

theorem SameEscalations.setsPriority {priority : CasePriority} (h : SetsPriority other priority s s') :
    SameEscalations ref s s' := by
  unfold SetsPriority at h
  split at h
  · obtain ⟨-, rfl⟩ := ServiceTicketStore.writePriority_cases h
    exact .of_eq rfl rfl rfl rfl
  · exact .memory h
  · exact h.elim

theorem SameEscalations.addsNote {note : CaseNoteInput} (h : AddsNote other note now s s') :
    SameEscalations ref s s' := by
  rcases h with ⟨-, row, hrow, -, rfl⟩ | ⟨-, actorId, body, h⟩ | ⟨notes, h⟩
  · exact .of_eq rfl rfl rfl rfl
  · exact .writeAudit (by simp) h
  · obtain ⟨-, rfl⟩ := RepairJobStore.writeNote_cases h
    exact .of_eq rfl rfl rfl rfl

theorem SameEscalations.appends {type : TimelineType} (hl : plain (.appendTimeline other type) = true)
    (h : Appends other type now s s') : SameEscalations ref s s' := by
  obtain ⟨entry, rfl, ⟨-, h⟩ | ⟨-, rfl⟩⟩ := h
  · refine .writeAudit ?_ h
    intro e rmaId he
    obtain ⟨rfl, -⟩ := AuditMetadata.entry.inj he
    exact ne_escalated_of_plain hl
  · exact .remember (ne_escalated_of_plain hl)

/-- The calls of the services on their own tables. -/
theorem SameEscalations.writes {l : CareCall} (hl : plain l = true) (h : Writes l now s s') :
    SameEscalations ref s s' := by
  cases l <;> simp only [Writes] at h
  case saveStatus => exact .savesStatus h
  case assign => exact .assigns h
  case setPriority => exact .setsPriority h
  case addNote => exact .addsNote h
  case appendTimeline => exact .appends hl h
  case publish event =>
    subst h
    exact .announced hl
  case acquire key token =>
    obtain ⟨m, rfl⟩ := h
    exact .of_eq rfl rfl rfl rfl
  case release key token =>
    obtain ⟨m, rfl⟩ := h
    exact .of_eq rfl rfl rfl rfl
  case createHistory other =>
    obtain ⟨-, row, hrow, -, rfl⟩ := h
    exact .of_eq rfl rfl rfl rfl
  case closeJob id status =>
    obtain ⟨-, rfl⟩ := RepairJobStore.writeClose_cases h
    exact .of_eq rfl rfl rfl rfl
  case markAssigned id =>
    obtain ⟨actorId, h⟩ := h
    exact .writeAudit (by simp) h
  case markEscalated other => cases hl
  case audit links =>
    obtain ⟨action, actorId, status, h⟩ := h
    obtain ⟨-, rfl⟩ := writeServiceAudit_cases h
    exact .insertMetadata (by simp)
  case createTicket =>
    obtain ⟨customerId, dto, row, h⟩ := h
    obtain ⟨mk, hmk, -, -, rfl⟩ := ServiceOpsService.insertTicket_cases h
    exact .of_eq rfl rfl rfl rfl
  case createJob =>
    obtain ⟨dto, technicianId, row, h⟩ := h
    obtain ⟨mk, hmk, -, rfl⟩ := ServiceOpsService.insertJob_cases h
    exact .of_eq rfl rfl rfl rfl
  case openJob id =>
    obtain ⟨ticketId, actorId, h⟩ := h
    obtain ⟨-, rfl⟩ := ServiceOpsService.writeOpen_cases h
    exact .insertMetadata (by simp)
  case patchJob id status =>
    obtain ⟨dto, startedAt, -, h⟩ := h
    obtain ⟨-, rfl⟩ := ServiceOpsService.writePatch_cases h
    exact .of_eq rfl rfl rfl rfl
  case createRegistration serialId =>
    obtain ⟨customerId, plan, row, h⟩ := h
    obtain ⟨mk, hmk, -, -, rfl⟩ := WarrantyService.insertRegistration_cases h
    exact .of_eq rfl rfl rfl rfl
  case createClaim registrationId =>
    obtain ⟨customerId, reg, amount, row, -, h⟩ := h
    obtain ⟨mk, hmk, -, -, rfl⟩ := WarrantyService.insertClaim_cases h
    exact .of_eq rfl rfl rfl rfl
  case extend registrationId endDate =>
    obtain ⟨plan, start, finish, amount, row, h⟩ := h
    obtain ⟨-, -, mk, hmk, -, -, rfl⟩ := WarrantyService.writeExtension_cases h
    exact .of_eq rfl rfl rfl rfl

theorem Effect.plain {l : CareCall} {i : CareInput} (hl : plain l = true) (h : Effect l i s s') :
    SameEscalations ref s s' := by
  rcases h with rfl | ⟨-, h⟩
  · exact .refl _ _
  · exact .writes hl h

end Calls

theorem SameEscalations.trans {ref : CaseRef} {a b c : CareState} (h : SameEscalations ref a b)
    (h' : SameEscalations ref b c) : SameEscalations ref a c where
  entries := h'.entries.trans h.entries
  events := h'.events.trans h.events
  marked hm := h'.marked (h.marked hm)

/-! ### At most once -/

/-- No event without an entry, one entry at most, and a support case that has one is marked. -/
structure Once (ref : CaseRef) (s : CareState) : Prop where
  events : escalationEvents ref s ≤ escalations ref s
  entries : escalations ref s ≤ 1
  marked : ref.kind = .support → 0 < escalations ref s → Marked ref s

theorem Once.of_same {ref : CaseRef} {s s' : CareState} (h : SameEscalations ref s s')
    (ho : Once ref s) : Once ref s' where
  events := by
    rw [h.events, h.entries]
    exact ho.events
  entries := by
    rw [h.entries]
    exact ho.entries
  marked hk hpos := by
    rw [h.entries] at hpos
    exact h.marked (ho.marked hk hpos)

/-- A case that a store over the database keeps is not due again once it was escalated. -/
def DueOnce (ref : CaseRef) (l : CareCall) (i : CareInput) (s : CareState) : Prop :=
  match l with
  | .clock _ now => ref.kind ≠ .support → 0 < escalations ref s →
    ∀ rank snap, loaded ref rank s = some snap → shouldEscalate ref.kind snap (now.getD i.now) = false
  | _ => True

def keepsOnce (ref : CaseRef) (_ : CareCall) (_ : CareInput) (s s' : CareState) : Prop :=
  Once ref s → Once ref s'

abbrev OnceHolds {α : Type} (ref : CaseRef) (Q : Except Failure α → CareState → Prop)
    (p : CareProg α) (s : CareState) : Prop :=
  Within (DueOnce ref) (keepsOnce ref) Q p s

section Rules

variable {ref : CaseRef} {α β : Type} {s : CareState} {Q : Except Failure α → CareState → Prop}

theorem plain_once {p : CareProg α} (hp : Calls plain p) :
    OnceHolds ref (fun _ t => SameEscalations ref s t) p s := by
  have hsame : p.Every (fun _ _ _ => True) fun _ _ t t' => SameEscalations ref t t' :=
    Prog.Every.mono (fun _ _ _ _ _ h => h.2.plain h.1) hp
  refine .of_alone (hsame.mono fun _ _ _ _ _ h ho => ho.of_same h) ?_
  exact Alone.of_every (hsame.mono fun _ _ _ _ _ h hs => hs.trans h) (.refl ref s)

theorem plainBind {p : CareProg β} {k : β → CareProg α} (hp : Calls plain p)
    (hk : ∀ b t, SameEscalations ref s t → OnceHolds ref Q (k b) t)
    (herr : ∀ e t, SameEscalations ref s t → Q (.error e) t) : OnceHolds ref Q (p.bind k) s :=
  (plain_once hp).bind hk herr

theorem plain_keeps {p : CareProg α} (hp : Calls plain p) (hs : Once ref s) :
    OnceHolds ref (fun _ t => Once ref t) p s :=
  (plain_once hp).mono fun _ _ h => hs.of_same h

end Rules

/-! ### The first escalation -/

theorem entriesOf_writeAudit {ref : CaseRef} {entry : CaseTimelineEntry} {actorId : Option ℕ}
    {now : ℕ} {s s' : CareState} {u : Unit} (hk : ref.kind ≠ .support)
    (h : writeAudit ref (.case entry.type) actorId (entryMetadata ref entry now) now s =
      .ok (u, s')) : entriesOf ref s' = entriesOf ref s ++ [entry.stamped now] := by
  obtain ⟨-, rfl⟩ := writeAudit_eq_ok.mp h
  refine (entriesOf_insert hk).trans ?_
  rw [entryFor_auditRow hk, if_pos rfl]
  rfl

theorem Once.first {ref : CaseRef} {s s' : CareState} (entry : CaseTimelineEntry)
    (htype : entry.type = .escalated) (hzero : escalations ref s = 0)
    (hevents : escalationEvents ref s = 0) (hentries : entriesOf ref s' = entriesOf ref s ++ [entry])
    (hpublished : s'.published = s.published) (hmark : ref.kind = .support → Marked ref s') :
    Once ref s' ∧ escalations ref s' = 1 ∧ escalationEvents ref s' = 0 := by
  have hone : escalations ref s' = 1 := by
    unfold escalations at hzero ⊢
    rw [hentries, List.countP_append, hzero]
    simp [htype]
  have hnone : escalationEvents ref s' = 0 := by
    unfold escalationEvents at hevents ⊢
    rw [hpublished]
    exact hevents
  exact ⟨⟨by omega, by omega, fun hk _ => hmark hk⟩, hone, hnone⟩

theorem escalationEvents_announce {ref : CaseRef} {status : CaseStatus} {reason : EscalationReason}
    {priority : CasePriority} {assigneeId : Option ℕ} {s : CareState} :
    escalationEvents ref { s with
      published := s.published ++ [.escalated ref status reason priority assigneeId] } =
      escalationEvents ref s + 1 := by
  simp [escalationEvents, isEscalationOf]

theorem announce_once {ref : CaseRef} {s : CareState} {event : CaseEvent}
    {k : Unit → CareProg CaseSnapshot} (hs : Once ref s) (hone : escalations ref s = 1)
    (hnone : escalationEvents ref s = 0)
    (hevent : ∀ t, escalationEvents ref { t with published := t.published ++ [event] } =
      escalationEvents ref t + 1) (hk : Calls plain (k ())) :
    OnceHolds ref (fun _ t => Once ref t) ((publish event).bind k) s := by
  have hpub := hevent s
  have hentries : escalations ref { s with published := s.published ++ [event] } = 1 := hone
  have hu : Once ref { s with published := s.published ++ [event] } :=
    ⟨by omega, by omega, hs.marked⟩
  exact .callBind fun i _ => ⟨fun _ => hu, fun _ _ => plain_keeps hk hu, fun e he => nomatch he⟩

theorem record_once {ref : CaseRef} {s : CareState} {entry : CaseTimelineEntry} {event : CaseEvent}
    {k : Unit → CareProg CaseSnapshot} (htype : entry.type = .escalated)
    (hzero : escalations ref s = 0) (hevents : escalationEvents ref s = 0)
    (hmark : ref.kind = .support → Marked ref s)
    (hevent : ∀ t, escalationEvents ref { t with published := t.published ++ [event] } =
      escalationEvents ref t + 1) (hk : Calls plain (k ())) :
    OnceHolds ref (fun _ t => Once ref t)
      (((getStore ref.kind).appendTimeline ref entry).bind fun _ => (publish event).bind k) s := by
  have hs : Once ref s := ⟨by omega, by omega, fun hk _ => hmark hk⟩
  by_cases hkind : ref.kind = .support
  · have happ : (getStore ref.kind).appendTimeline ref entry =
        InMemoryCaseStore.appendTimeline ref entry := by
      rw [hkind]
      rfl
    rw [happ]
    refine .callBind fun i _ => ?_
    obtain ⟨ht, hone, hnone⟩ : Once ref { s with
        memoryTimelines := Function.update s.memoryTimelines ref
          (s.memoryTimelines ref ++ [entry.stamped i.now]) } ∧ _ ∧ _ :=
      Once.first (entry.stamped i.now) htype hzero hevents (by simp [entriesOf, hkind]) rfl hmark
    exact ⟨fun _ => ht, fun _ _ => announce_once ht hone hnone hevent hk, fun e he => nomatch he⟩
  · have happ : (getStore ref.kind).appendTimeline ref entry = appendTimeline ref entry := by
      cases h : ref.kind <;> first | rfl | exact absurd h hkind
    rw [happ]
    refine .atomicBind (fun _ h => h) (fun i b u _ _ hw => ?_) fun _ _ _ _ => hs
    have hentries := entriesOf_writeAudit hkind hw
    obtain ⟨-, rfl⟩ := writeAudit_eq_ok.mp hw
    obtain ⟨ht, hone, hnone⟩ := Once.first (entry.stamped i.now) htype hzero hevents hentries rfl
      fun h => absurd h hkind
    exact ⟨fun _ => ht, announce_once ht hone hnone hevent hk⟩

theorem escalate_once {ref : CaseRef} {opts : CaseManager.SlaOptions} {snap : CaseSnapshot}
    {now : ℕ} {reason : EscalationReason} {s : CareState} (hs : Once ref s)
    (hzero : escalations ref s = 0) :
    OnceHolds ref (fun _ t => Once ref t) (CaseManager.escalate ref opts snap now reason) s := by
  have hevents : escalationEvents ref s = 0 := by
    have hle := hs.events
    omega
  -- the calls after the mark, with the snapshot that it answered
  have hrest : ∀ (marked : CaseSnapshot) t, escalations ref t = 0 → escalationEvents ref t = 0 →
      (ref.kind = .support → Marked ref t) → OnceHolds ref (fun _ t => Once ref t)
        (((getStore ref.kind).appendTimeline ref
          { stamp := some now, type := .escalated, actorId := opts.actorId
            message := some reason.text }).bind fun _ =>
          (publish (.escalated ref marked.status reason marked.priority marked.assigneeId)).bind
            fun _ => CaseManager.afterEscalation ref opts marked reason) t := by
    intro marked t hz he hm
    exact record_once rfl hz he hm (fun _ => escalationEvents_announce) calls_afterEscalation
  have hunfold : CaseManager.escalate ref opts snap now reason =
      (CaseManager.markEscalated ref snap now).bind fun o =>
        (Prog.orThrow CaseManager.nullStatus o).bind fun marked =>
          ((getStore ref.kind).appendTimeline ref
            { stamp := some now, type := .escalated, actorId := opts.actorId
              message := some reason.text }).bind fun _ =>
            (publish (.escalated ref marked.status reason marked.priority marked.assigneeId)).bind
              fun _ => CaseManager.afterEscalation ref opts marked reason := rfl
  rw [hunfold]
  by_cases hkind : ref.kind = .support
  · have hmark : CaseManager.markEscalated ref snap now =
        InMemoryCaseStore.markEscalated ref now := by
      unfold CaseManager.markEscalated
      rw [hkind]
      rfl
    rw [hmark]
    refine changeBind (fun _ _ _ h => h) (fun i c u _ hc hu => ?_) fun _ => hs
    have hsame : SameEscalations ref s u :=
      .memory ⟨c, _, hc, fun _ => Option.some_ne_none now, hu⟩
    refine ⟨fun h => h.of_same hsame, .orThrowBind (fun marked _ => ?_) fun _ => hs.of_same hsame⟩
    refine hrest marked u (hsame.entries.trans hzero) (hsame.events.trans hevents) fun _ => ?_
    exact ⟨_, by rw [hu]; exact Function.update_self .., Option.some_ne_none now⟩
  · have hcopy : CaseManager.markEscalated ref snap now =
        pure (some { snap with escalatedAt := some now }) := by
      unfold CaseManager.markEscalated
      cases h : ref.kind <;> first | rfl | exact absurd h hkind
    rw [hcopy]
    exact hrest _ s hzero hevents fun h => absurd h hkind

theorem evaluateSla_once {ref : CaseRef} {opts : CaseManager.SlaOptions} {s : CareState}
    (hs : Once ref s) :
    OnceHolds ref (fun _ t => Once ref t) (CaseManager.evaluateSla ref opts) s := by
  refine requireBind (fun _ _ _ h => h) (fun j snap _ hsnap => ?_) fun _ => hs
  refine .callBind fun i ho => ⟨fun h => h, fun now hnow => ?_, fun e he => nomatch he⟩
  obtain rfl := Except.ok.inj hnow
  refine plainBind (calls_publishIf rfl) (fun _ t ht => ?_) fun _ _ h => hs.of_same h
  refine plainBind (calls_publishIf rfl) (fun _ u hu => ?_) fun _ _ h => hs.of_same (ht.trans h)
  have hsame : SameEscalations ref s u := ht.trans hu
  split
  next hdue =>
    have hzero : escalations ref s = 0 := by
      by_contra hpos
      have hpos' : 0 < escalations ref s := Nat.pos_of_ne_zero hpos
      by_cases hkind : ref.kind = .support
      · -- the mark in memory is the one that was loaded
        obtain ⟨c, hc, hmark⟩ := hs.marked hkind hpos'
        have hload : s.memoryCases ref = some snap := by simpa [loaded, hkind] using hsnap
        obtain rfl := Option.some.inj (hc.symm.trans hload)
        exact hmark hdue.2
      · have hnot := ho hkind hpos' j.rank snap hsnap
        rw [hdue.1] at hnot
        cases hnot
    refine Within.bind (escalate_once (hs.of_same hsame) (hsame.entries.trans hzero)) ?_ fun _ _ h => h
    exact fun _ _ h => .done h
  next => exact .done (hs.of_same hsame)

/-! ### Runs -/

/-- The requests that the claim of a single escalation is about, evaluations among them. -/
inductive SlaRequest where
  | evaluateSla (opts : CaseManager.SlaOptions)
  | change (request : CaseRequest)
deriving DecidableEq

def SlaRequest.prog (ref : CaseRef) : SlaRequest → CareProg Unit
  | .evaluateSla opts => do
    let _ ← CaseManager.evaluateSla ref opts
  | .change request => request.prog ref

/-- The requests one after another; a failed one does not stop the rest. -/
def slaRun (ref : CaseRef) (requests : List SlaRequest) : CareProg Unit :=
  Prog.callAll (requests.map (SlaRequest.prog ref))

/-- The state after the first `n` calls of the run. -/
def afterSla (ref : CaseRef) (requests : List SlaRequest) (s : CareState) (inputs : List CareInput)
    (n : ℕ) : CareState :=
  (Pool.solo (slaRun ref requests) s (inputs.take n)).state

theorem slaRequest_once {ref : CaseRef} (r : SlaRequest) {s : CareState} (hs : Once ref s) :
    OnceHolds ref (fun _ t => Once ref t) (r.prog ref) s := by
  cases r with
  | evaluateSla opts => exact .bind (evaluateSla_once hs) (fun _ _ h => .done h) fun _ _ h => h
  | change request => exact plain_keeps (request.calls_prog ref) hs

/-- A case without escalations is escalated at most once, whatever happens to it, as long as one
that the in-memory store does not keep is not due again after it was escalated. -/
theorem escalated_once (ref : CaseRef) (requests : List SlaRequest) (s : CareState)
    (inputs : List CareInput) (hentries : escalations ref s = 0)
    (hevents : escalationEvents ref s = 0)
    (hok : Pool.SoloAdmits (DueOnce ref) (slaRun ref requests) s inputs) (n : ℕ) :
    escalations ref (afterSla ref requests s inputs n) ≤ 1 ∧
      escalationEvents ref (afterSla ref requests s inputs n) ≤ 1 := by
  have hs : Once ref s := ⟨by omega, by omega, fun _ h => by omega⟩
  have hrun : OnceHolds ref (fun _ t => Once ref t) (slaRun ref requests) s := by
    refine .callAll (fun p hp t ht => ?_) hs
    obtain ⟨r, -, rfl⟩ := List.mem_map.mp hp
    exact slaRequest_once r ht
  have hafter : Once ref (afterSla ref requests s inputs n) :=
    hrun.invariant (fun _ _ _ _ h => h) hok hs n
  have hle := hafter.events
  have hone := hafter.entries
  exact ⟨hone, by omega⟩

def twoEvaluations : List SlaRequest := [.evaluateSla {}, .evaluateSla {}]

def assignedBetween : List SlaRequest := [.evaluateSla {}, .change (.assign 0 none), .evaluateSla {}]

/-- The condition for the ticket, which is loaded alike in whatever order tied rows come. -/
def ticketDueOnce (l : CareCall) (i : CareInput) (s : CareState) : Bool :=
  match l with
  | .clock _ now => decide (escalations ⟨.serviceTicket, 0⟩ s = 0) ||
    (loaded ⟨.serviceTicket, 0⟩ id s).all fun snap =>
      !shouldEscalate .serviceTicket snap (now.getD i.now)
  | _ => true

theorem dueOnce_ticket {l : CareCall} {i : CareInput} {s : CareState}
    (h : ticketDueOnce l i s = true) : DueOnce ⟨.serviceTicket, 0⟩ l i s := by
  cases l with
  | clock ref now =>
    intro _ hpos rank snap hsnap
    rcases Bool.or_eq_true_iff.mp h with hnone | hall
    · have := of_decide_eq_true hnone
      omega
    · rw [show loaded ⟨.serviceTicket, 0⟩ id s = some snap from hsnap] at hall
      simpa using hall
  | _ => trivial

/-- The first of two evaluations of a support case past its response time escalates it, and so does
that of a ticket, which is assigned before the second. -/
theorem escalated_once_twice :
    (escalations ⟨.support, 0⟩
        (afterSla ⟨.support, 0⟩ twoEvaluations openSupport (callsAt 3600001 15) 15) = 1 ∧
      ∀ n, escalations ⟨.support, 0⟩
          (afterSla ⟨.support, 0⟩ twoEvaluations openSupport (callsAt 3600001 15) n) ≤ 1 ∧
        escalationEvents ⟨.support, 0⟩
          (afterSla ⟨.support, 0⟩ twoEvaluations openSupport (callsAt 3600001 15) n) ≤ 1) ∧
      escalations ⟨.serviceTicket, 0⟩ (afterSla ⟨.serviceTicket, 0⟩ assignedBetween newTicket
        (callsAt 14460000 10 ++ callsAt 14520000 2) 12) = 1 ∧
      ∀ n, escalations ⟨.serviceTicket, 0⟩ (afterSla ⟨.serviceTicket, 0⟩ assignedBetween newTicket
          (callsAt 14460000 10 ++ callsAt 14520000 2) n) ≤ 1 ∧
        escalationEvents ⟨.serviceTicket, 0⟩ (afterSla ⟨.serviceTicket, 0⟩ assignedBetween newTicket
          (callsAt 14460000 10 ++ callsAt 14520000 2) n) ≤ 1 := by
  refine ⟨⟨by decide +kernel, escalated_once ⟨.support, 0⟩ twoEvaluations openSupport
    (callsAt 3600001 15) (by decide) (by decide) ?_⟩, by decide +kernel,
    escalated_once ⟨.serviceTicket, 0⟩ assignedBetween newTicket
      (callsAt 14460000 10 ++ callsAt 14520000 2) (by decide) (by decide) ?_⟩
  · refine Pool.soloAdmits_of_forall fun i _ l t => ?_
    cases l <;> first | trivial | exact fun h => absurd rfl h
  · have hadmits : Pool.SoloAdmits (fun l i s => ticketDueOnce l i s = true)
        (slaRun ⟨.serviceTicket, 0⟩ assignedBetween) newTicket
        (callsAt 14460000 10 ++ callsAt 14520000 2) := by decide +kernel
    exact Pool.soloAdmits_imp (fun _ _ _ _ => dueOnce_ticket) hadmits

/-- Two evaluations of a claim past its response time, a minute apart, escalate it twice. -/
theorem claim_escalated_twice :
    escalations ⟨.warrantyClaim, 0⟩ submittedClaim = 0 ∧
      escalationEvents ⟨.warrantyClaim, 0⟩ submittedClaim = 0 ∧
      escalations ⟨.warrantyClaim, 0⟩ (afterSla ⟨.warrantyClaim, 0⟩ twoEvaluations submittedClaim
        (callsAt 14460000 5 ++ callsAt 14520000 5) 10) = 2 ∧
      escalationEvents ⟨.warrantyClaim, 0⟩ (afterSla ⟨.warrantyClaim, 0⟩ twoEvaluations
        submittedClaim (callsAt 14460000 5 ++ callsAt 14520000 5) 10) = 2 := by
  decide +kernel

end ElectronicsCart.Cases
