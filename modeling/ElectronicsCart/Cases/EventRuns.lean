import ElectronicsCart.Cases.StoreRuns

/-!
# Events of transitions

`StateMachineEngine.transition` skips a request for the status that the case has, and
`CaseManager.transition` announces a change all the same.  The events of a run are compared with
the changes of status that it made.
-/

namespace ElectronicsCart.Cases

open Interleaving Relational

/-! ### Events -/

def isChangeOf (ref : CaseRef) : CaseEvent → Bool
  | .statusChanged other _ _ _ _ _ => other == ref
  | _ => false

def isCloseOf (ref : CaseRef) : CaseEvent → Bool
  | .closed other _ _ _ => other == ref
  | _ => false

def changeEvents (ref : CaseRef) (s : CareState) : ℕ := s.published.countP (isChangeOf ref)

def closeEvents (ref : CaseRef) (s : CareState) : ℕ := s.published.countP (isCloseOf ref)

structure SameEvents (ref : CaseRef) (s s' : CareState) : Prop where
  changes : changeEvents ref s' = changeEvents ref s
  closes : closeEvents ref s' = closeEvents ref s

theorem SameEvents.refl (ref : CaseRef) (s : CareState) : SameEvents ref s s := ⟨rfl, rfl⟩

theorem SameEvents.trans {ref : CaseRef} {a b c : CareState} (h : SameEvents ref a b)
    (h' : SameEvents ref b c) : SameEvents ref a c :=
  ⟨h'.changes.trans h.changes, h'.closes.trans h.closes⟩

theorem SameEvents.of_published {ref : CaseRef} {s s' : CareState} (h : s'.published = s.published) :
    SameEvents ref s s' where
  changes := by rw [changeEvents, h, changeEvents]
  closes := by rw [closeEvents, h, closeEvents]

def unannounced : CareCall → Bool
  | .publish (.stateTransitioned _ _ _ _) => true
  | l => ofStore l

theorem unannounced_of_store {l : CareCall} (h : ofStore l = true) : unannounced l = true := by
  unfold unannounced
  split
  · rfl
  · exact h

theorem Effect.events {ref : CaseRef} {l : CareCall} {i : CareInput} {s s' : CareState}
    (hl : unannounced l = true) (h : Effect l i s s') : SameEvents ref s s' := by
  unfold unannounced at hl
  split at hl
  · rcases h with rfl | ⟨-, h⟩
    · exact .refl ref _
    · obtain rfl : s' = _ := h
      exact ⟨by simp [changeEvents, isChangeOf], by simp [closeEvents, isCloseOf]⟩
  · exact .of_published (h.published hl)

/-! ### How often a transition announces -/

abbrev CareHolds {α : Type} (Q : Except Failure α → CareState → Prop) (p : CareProg α)
    (s : CareState) : Prop :=
  Within anyCall (fun _ _ _ _ => True) Q p s

section Counts

variable {ref : CaseRef} {α β : Type} {s : CareState} {Q : Except Failure α → CareState → Prop}

theorem unannouncedBind {p : CareProg β} {k : β → CareProg α} (hp : Calls unannounced p)
    (hk : ∀ b t, SameEvents ref s t → CareHolds Q (k b) t)
    (herr : ∀ e t, SameEvents ref s t → Q (.error e) t) : CareHolds Q (p.bind k) s := by
  have hsame : p.Every (fun _ _ _ => True) fun _ _ t t' => SameEvents ref t t' :=
    Prog.Every.mono (fun _ _ _ _ _ h => h.2.events h.1) hp
  have hp' : CareHolds (fun _ t => SameEvents ref s t) p s :=
    Alone.of_every (hsame.mono fun _ _ _ _ _ h hs => hs.trans h) (.refl ref s)
  exact hp'.bind hk herr

def Announces (ref : CaseRef) (target : CaseStatus) (s t : CareState) : Prop :=
  changeEvents ref t = changeEvents ref s + 1 ∧
    closeEvents ref t = closeEvents ref s +
      if (CASE_DEFINITIONS ref.kind).terminalStatuses.contains target then 1 else 0

theorem Announces.of_same {target : CaseStatus} {t u : CareState} (h : SameEvents ref s t)
    (hu : Announces ref target t u) : Announces ref target s u := by
  unfold Announces at hu ⊢
  rwa [h.changes, h.closes] at hu

theorem announce_counts {current target : CaseStatus} {snap : CaseSnapshot} :
    CareHolds (fun r t => r = .ok () ∧ Announces ref target s t)
      (CaseManager.announce ref current target snap) s := by
  refine publishBind (fun _ => trivial) ?_
  unfold Announces
  split
  · refine .call fun i _ => ⟨trivial, rfl, ?_⟩
    simp [changeEvents, closeEvents, isChangeOf, isCloseOf]
  · refine .done ⟨rfl, ?_⟩
    simp [changeEvents, closeEvents, isChangeOf, isCloseOf]

/-- A transition that ends well is announced, and one that fails is not. -/
def Counts (ref : CaseRef) (target : CaseStatus) (s : CareState) :
    Except Failure CaseSnapshot → CareState → Prop
  | .ok _, t => Announces ref target s t
  | .error _, t => SameEvents ref s t

theorem transition_counts {target : CaseStatus} {actorId : Option ℕ} {reason : Option String} :
    CareHolds (Counts ref target s) (CaseManager.transition ref target actorId reason) s := by
  refine unannouncedBind (calls_require rfl) (fun current t ht => ?_) fun _ _ h => h
  have hengine : Calls unannounced (StateMachineEngine.transition
      (CASE_DEFINITIONS ref.kind).stateMachine ref.id current.status target
      ((getStore ref.kind).saveStatus ref target actorId)
      ((getStore ref.kind).appendTimeline ref
        (CaseManager.changeEntry current.status target actorId reason))) := by
    refine Calls.bind (Prog.every_ensure _ _) fun _ => ?_
    split
    · exact .done _
    · refine (calls_saveStatus.mono fun _ => unannounced_of_store).bind fun _ => ?_
      exact (calls_append rfl).bind fun _ => (calls_publish rfl).bind fun _ => .done _
  refine unannouncedBind hengine (fun result u hu => ?_) fun _ _ h => ht.trans h
  have hsu := ht.trans hu
  refine unannouncedBind (calls_settled rfl) (fun snap v hv => ?_) fun _ _ h => hsu.trans h
  refine announce_counts.bind ?_ ?_
  · rintro - w ⟨-, hw⟩
    exact .done (hw.of_same (hsu.trans hv))
  · rintro e w ⟨he, -⟩
    cases he

end Counts

/-! ### A transition that fails -/

/-- The calls after the write of a status that can fail. -/
def follows : CareCall → Bool
  | .createHistory _ => true
  | .closeJob _ _ => true
  | .saved _ => true
  | .appendTimeline ref type => ref.kind != .support && type == .statusChanged
  | _ => false

def savedJob : CareCall → Option ℕ
  | .saveStatus ref _ => if ref.kind = .repairJob then some ref.id else none
  | _ => none

/-- After the status is written nothing fails, and status rows are stamped in order. -/
def Announced (l : CareCall) (i : CareInput) (s : CareState) : Prop :=
  (follows l = true → i.fails = false) ∧
    ∀ id ∈ savedJob l, i.fails = false → Latest id i.now s

instance (l : CareCall) (i : CareInput) (s : CareState) : Decidable (Announced l i s) :=
  inferInstanceAs (Decidable (_ ∧ _))

abbrev Announcing {α : Type} (Q : Except Failure α → CareState → Prop) (p : CareProg α)
    (s : CareState) : Prop :=
  Within Announced (fun _ _ _ _ => True) Q p s

def Sure {α : Type} (ref : CaseRef) (R R' : Reference) : Except Failure α → CareState → Prop
  | .ok _, t => Agrees ref t R'
  | .error _, t => Agrees ref t R

section Sure

variable {ref : CaseRef} {α β : Type} {s : CareState} {R R' : Reference}
  {Q : Except Failure α → CareState → Prop}

theorem caseExists_of_agrees (hs : Agrees ref s R) : caseExists ref s = true := by
  obtain ⟨snap, hsnap, -⟩ := Option.map_eq_some_iff.mp (hs fun n => n)
  obtain ⟨kind, id⟩ := ref
  cases kind
  case rma => rfl
  case support => rfl
  case warrantyClaim =>
    obtain ⟨row, hrow, -⟩ := Option.map_eq_some_iff.mp hsnap
    exact Option.isSome_iff_exists.mpr ⟨row, (Option.filter_eq_some_iff.mp hrow).1⟩
  case serviceTicket =>
    obtain ⟨row, hrow, -⟩ := Option.map_eq_some_iff.mp hsnap
    exact Option.isSome_iff_exists.mpr ⟨row, (Option.filter_eq_some_iff.mp hrow).1⟩
  case repairJob =>
    obtain ⟨row, hrow, -⟩ := Option.map_eq_some_iff.mp hsnap
    exact Option.isSome_iff_exists.mpr ⟨row, (Option.filter_eq_some_iff.mp hrow).1⟩

theorem sureBind {l : CareCall} {f : CareInput → CareState → Except Failure (β × CareState)}
    {k : β → CareProg α} (hl : follows l = true)
    (hf : ∀ i e, f i s ≠ .error e)
    (hk : ∀ i b u, i.fails = false → f i s = .ok (b, u) → Announcing Q (k b) u) :
    Announcing Q ((atomic l f).bind k) s := by
  refine .atomicBind (fun _ => trivial) (fun i b u _ hfail hw => ⟨trivial, hk i b u hfail hw⟩) ?_
  rintro i e ho (hfail | herr)
  · rw [ho.1 hl] at hfail
    cases hfail
  · exact (hf i e herr).elim

theorem appendBind {entry : CaseTimelineEntry} {k : Unit → CareProg α} (hkind : ref.kind ≠ .support)
    (htype : entry.type = .statusChanged) (hs : Agrees ref s R)
    (hk : ∀ t, Agrees ref t R → Announcing Q (k ()) t) :
    Announcing Q ((appendTimeline ref entry).bind k) s := by
  refine sureBind ?_ (fun i e he => ?_) fun i b u hf hw => ?_
  · simp [follows, htype, hkind]
  · rw [writeAudit, caseExists_of_agrees hs] at he
    cases he
  · have heffect : Effect (.appendTimeline ref entry.type) i s u :=
      .inr ⟨fun _ => hf, entry, rfl, .inl ⟨hkind, hw⟩⟩
    exact hk u (hs.of_same (heffect.idle (by rw [htype]; rfl)))

theorem managerAppendBind {entry : CaseTimelineEntry} {k : Unit → CareProg α}
    (htype : entry.type = .statusChanged) (hs : Agrees ref s R)
    (hk : ∀ t, Agrees ref t R → Announcing Q (k ()) t) :
    Announcing Q (((getStore ref.kind).appendTimeline ref entry).bind k) s := by
  by_cases hkind : ref.kind = .support
  · rw [hkind]
    refine .callBind fun i _ => ⟨trivial, fun _ _ => ?_, fun _ he => nomatch he⟩
    exact hk _ (hs.of_same ⟨.of_audits rfl rfl rfl rfl rfl rfl rfl, rfl, rfl⟩)
  · have happ : (getStore ref.kind).appendTimeline ref entry = appendTimeline ref entry := by
      cases h : ref.kind <;> first | rfl | exact absurd h hkind
    rw [happ]
    exact appendBind hkind htype hs hk

theorem claimHistoryBind {k : Unit → CareProg α} (hs : Agrees ref s R)
    (hk : Announcing Q (k ()) s) :
    Announcing Q ((WarrantyClaimStore.createHistory ref).bind k) s := by
  refine sureBind rfl (fun i e he => ?_) fun i b u _ hw => ?_
  · rw [caseExists_of_agrees hs] at he
    cases he
  · simp only [bind_eq_ok, check_eq_ok, pure_eq_ok, Prod.mk.injEq] at hw
    obtain ⟨-, -, -, rfl⟩ := hw
    exact hk

theorem ticketHistoryBind {fromStatus : Option CaseStatus} {toStatus : CaseStatus}
    {notes : Option String} {actorId : Option ℕ} {k : Unit → CareProg α} (hs : Agrees ref s R)
    (hk : ∀ t, Agrees ref t R → Announcing Q (k ()) t) :
    Announcing Q ((ServiceTicketStore.createHistory ref (.createHistory ref) fromStatus toStatus notes
      actorId).bind k) s := by
  refine sureBind rfl (fun i e he => ?_) fun i b u _ hw => ?_
  · rw [caseExists_of_agrees hs] at he
    cases he
  · simp only [bind_eq_ok, check_eq_ok, pure_eq_ok, Prod.mk.injEq] at hw
    obtain ⟨-, -, -, rfl⟩ := hw
    exact hk _ (hs.of_same ⟨.of_audits rfl rfl rfl rfl rfl rfl rfl, rfl, rfl⟩)

theorem announce_ends {current target : CaseStatus} {snap : CaseSnapshot} (hs : Agrees ref s R) :
    Announcing (fun r t => r = .ok () ∧ Agrees ref t R)
      (CaseManager.announce ref current target snap) s := by
  have hpublished : ∀ (t : CareState) events, Agrees ref t R →
      Agrees ref { t with published := events } R :=
    fun t events ht => ht.of_same ⟨.of_audits rfl rfl rfl rfl rfl rfl rfl, rfl, rfl⟩
  refine publishBind (fun _ => trivial) ?_
  split
  · exact .call fun _ _ => ⟨trivial, rfl, hpublished _ _ (hpublished _ _ hs)⟩
  · exact .done ⟨rfl, hpublished _ _ hs⟩

/-- What the store answers after the write of a status. -/
def SavedSure (ref : CaseRef) (R R' : Reference) (r : Except Failure (Option CaseSnapshot))
    (t : CareState) : Prop :=
  Sure ref R R' r t ∧ ∀ o, r = .ok o → o.isSome = true

theorem SavedSure.error {e : Failure} (hs : Agrees ref s R) : SavedSure ref R R' (.error e) s :=
  ⟨hs, fun _ h => nomatch h⟩

theorem isSome_loaded {rank : ℕ → ℕ} (hs : Agrees ref s R) : (loaded ref rank s).isSome = true := by
  obtain ⟨snap, hsnap, -⟩ := Option.map_eq_some_iff.mp (hs rank)
  rw [hsnap]
  rfl

theorem saved_sure {l : CareCall} {f : CareState → Option CaseSnapshot}
    (hl : follows l = true) (hf : f s = loaded ref (fun n => n) s)
    (hs : Agrees ref s R') : Announcing (SavedSure ref R R') (query l fun _ t => f t) s := by
  refine .query (fun _ => trivial) (fun i _ _ => ⟨hs, ?_⟩) fun i ho hfail => ?_
  · rintro o ⟨⟩
    rw [hf]
    exact isSome_loaded hs
  · rw [ho.1 hl] at hfail
    cases hfail

theorem jobSaved_sure {id : ℕ} (hs : Agrees ⟨.repairJob, id⟩ s R') :
    Announcing (SavedSure ⟨.repairJob, id⟩ R R')
      (RepairJobStore.load (.saved ⟨.repairJob, id⟩) ⟨.repairJob, id⟩) s := by
  have hno : ∀ i : CareInput, i.fails = false → i.fails = true → False := by
    intro i hf ht
    rw [hf] at ht
    cases ht
  obtain ⟨row, hrow, -⟩ := agrees_job.mp hs
  refine .queryBind (fun _ => trivial) (fun _ _ _ => ?_) fun i ho hf => (hno i (ho.1 rfl) hf).elim
  rw [hrow]
  refine .queryBind (fun _ => trivial) (fun i _ _ => .done ⟨hs, ?_⟩) fun i ho hf =>
    (hno i (ho.1 rfl) hf).elim
  rintro o ⟨⟩
  rfl

theorem saveStatus_sure {status : CaseStatus} {actorId : Option ℕ} (hs : Agrees ref s R) :
    Announcing (SavedSure ref R { R with status })
      ((getStore ref.kind).saveStatus ref status actorId) s := by
  obtain ⟨kind, id⟩ := ref
  cases kind
  case warrantyClaim =>
    refine .queryBind (fun _ => trivial) (fun _ _ _ => ?_) fun _ _ _ => .error hs
    refine .orThrowBind (fun current _ => ?_) fun _ => .error hs
    refine .atomicBind (fun _ => trivial) (fun _ _ u _ _ hw => ⟨trivial, ?_⟩) fun _ _ _ _ => .error hs
    have hu := claim_saved hw hs
    exact claimHistoryBind hu (saved_sure rfl rfl hu)
  case rma =>
    refine .queryBind (fun _ => trivial) (fun _ _ _ => ?_) fun _ _ _ => .error hs
    refine .orThrowBind (fun current _ => ?_) fun _ => .error hs
    refine .atomicBind (fun _ => trivial) (fun _ _ u _ _ hw => ⟨trivial, ?_⟩) fun _ _ _ _ => .error hs
    refine appendBind (by simp) rfl (rma_saved hw hs) fun t ht => ?_
    exact saved_sure rfl rfl ht
  case serviceTicket =>
    refine .queryBind (fun _ => trivial) (fun _ _ _ => ?_) fun _ _ _ => .error hs
    refine .orThrowBind (fun current _ => ?_) fun _ => .error hs
    refine .atomicBind (fun _ => trivial) (fun _ _ u _ _ hw => ⟨trivial, ?_⟩) fun _ _ _ _ => .error hs
    refine ticketHistoryBind (ticket_saved hw hs) fun t ht => ?_
    exact saved_sure rfl rfl ht
  case repairJob =>
    refine idleBind (fun _ _ _ _ _ => trivial) (calls_jobLoad rfl) (fun _ t ht => ?_)
      fun _ _ ht => .error (hs.of_same ht)
    have hst := hs.of_same ht
    refine .atomicBind (fun _ => trivial) (fun _ _ u ho hf hw => ⟨trivial, ?_⟩) fun _ _ _ _ => .error hst
    have hu := job_saved (ho.2 id rfl hf) hw hst
    refine sureBind rfl (fun i e he => ?_) fun i b v _ hw => ?_
    · obtain ⟨row, hrow, -⟩ := agrees_job.mp hu
      rw [RepairJobStore.writeClose, existing, (Option.filter_eq_some_iff.mp hrow).1] at he
      cases he
    · exact appendBind (by simp) rfl (job_closed hw hu) fun w hw => jobSaved_sure hw
  case support =>
    refine change_within (fun _ _ _ => trivial) (fun i snap u _ hsnap hu => ⟨trivial, ?_, ?_⟩)
      fun _ => .error hs
    · refine support_changed hs hsnap ?_ hu
      rintro rfl
      rfl
    · rintro o ⟨⟩
      rfl

theorem transition_sure {target : CaseStatus} {actorId : Option ℕ} {reason : Option String}
    (hs : Agrees ref s R) :
    Announcing (fun r t => Sure ref R { R with status := target } r t ∧ ∀ snap, r = .ok snap →
        Edge (CASE_DEFINITIONS ref.kind).stateMachine R.status target)
      (CaseManager.transition ref target actorId reason) s := by
  have herr : ∀ {α : Type} (e : Failure) t, Agrees ref t R →
      Sure ref R { R with status := target } (.error e : Except Failure α) t ∧
        ∀ snap, (.error e : Except Failure α) = .ok snap →
          Edge (CASE_DEFINITIONS ref.kind).stateMachine R.status target :=
    fun e t ht => ⟨ht, fun _ h => nomatch h⟩
  refine requireBind (fun _ _ _ => trivial) (fun _ snap _ hsnap => ?_) fun e => herr e s hs
  have hR : snap.status = R.status := congrArg Reference.status (hs.snapshot hsnap)
  have hengine : Announcing (fun r t => (Sure ref R { R with status := target } r t ∧
        ∀ o, r = .ok o → Edge (CASE_DEFINITIONS ref.kind).stateMachine R.status target) ∧
        ∀ o, r = .ok o → o.bind id = none → t = s)
      (StateMachineEngine.transition (CASE_DEFINITIONS ref.kind).stateMachine ref.id snap.status
        target ((getStore ref.kind).saveStatus ref target actorId)
        ((getStore ref.kind).appendTimeline ref
          (CaseManager.changeEntry snap.status target actorId reason))) s := by
    refine .ensureBind (fun hcan => ?_) fun _ => ⟨herr _ s hs, fun _ h => nomatch h⟩
    have hedge : Edge (CASE_DEFINITIONS ref.kind).stateMachine R.status target :=
      hR ▸ Edge.of_canTransition hcan
    split
    next heq =>
      have hsame : Agrees ref s { R with status := target } := by
        rw [← heq, hR]
        exact hs
      exact .done ⟨⟨hsame, fun _ _ => hedge⟩, fun _ _ _ => rfl⟩
    next =>
      refine (saveStatus_sure hs).bind (fun o t ht => ?_) fun e t ht => ⟨herr e t ht.1, fun _ h => nomatch h⟩
      refine managerAppendBind rfl ht.1 fun u hu => ?_
      refine publishBind (fun _ => trivial) (.done ⟨⟨?_, fun _ _ => hedge⟩, fun o' ho' hnone => ?_⟩)
      · exact hu.of_same ⟨.of_audits rfl rfl rfl rfl rfl rfl rfl, rfl, rfl⟩
      · obtain rfl := Except.ok.inj ho'
        obtain ⟨snap', hsnap'⟩ := Option.isSome_iff_exists.mp (ht.2 o rfl)
        simp [hsnap'] at hnone
  refine hengine.bind (fun o t ht => ?_) fun e t ht => herr e t ht.1.1
  obtain ⟨⟨ht, hedge⟩, hnone⟩ := ht
  have hannounce : ∀ snap' u, Agrees ref u { R with status := target } →
      Announcing (fun r t => Sure ref R { R with status := target } r t ∧ ∀ a, r = .ok a →
        Edge (CASE_DEFINITIONS ref.kind).stateMachine R.status target)
        ((CaseManager.announce ref snap.status target snap').bind fun _ => pure snap') u := by
    intro snap' u hu
    refine (announce_ends hu).bind ?_ ?_
    · rintro - v ⟨-, hv⟩
      exact .done ⟨hv, fun _ _ => hedge o rfl⟩
    · rintro e v ⟨he, -⟩
      cases he
  cases ho : o.bind id with
  | none =>
    obtain rfl := hnone o rfl ho
    refine idleBind (fun _ _ _ _ _ => trivial) (calls_require rfl) (fun snap' u hu => ?_)
      fun e u hu => herr e u (hs.of_same hu)
    exact hannounce snap' u (Agrees.of_same hu ht)
  | some snap' => exact hannounce snap' t ht

end Sure

/-! ### Runs -/

structure TransitionRequest where
  target : CaseStatus
  actorId : Option ℕ := none
  reason : Option String := none
deriving DecidableEq

def TransitionRequest.prog (ref : CaseRef) (q : TransitionRequest) : CareProg CaseSnapshot :=
  CaseManager.transition ref q.target q.actorId q.reason

abbrev TransitionTurn := Pool.Turn TransitionRequest Failure CaseSnapshot CareState

def statusIn (ref : CaseRef) (s : CareState) : Option CaseStatus :=
  (loaded ref (fun n => n) s).map CaseSnapshot.status

theorem Agrees.statusIn {ref : CaseRef} {s : CareState} {R : Reference} (hs : Agrees ref s R) :
    statusIn ref s = some R.status := by
  obtain ⟨snap, hsnap, rfl⟩ := Option.map_eq_some_iff.mp (hs fun n => n)
  simp only [Cases.statusIn, hsnap, Option.map_some, CaseSnapshot.reference]

def changesStatus (ref : CaseRef) (turn : TransitionTurn) : Bool :=
  decide (statusIn ref turn.after ≠ statusIn ref turn.before)

/-- The request names another status than the one that the case has. -/
def Moves (ref : CaseRef) (turn : TransitionTurn) : Prop :=
  ∀ rank snap, loaded ref rank turn.before = some snap → turn.request.target ≠ snap.status

/-- The case has a status, and is closed for good once its closing was announced. -/
def ClosedFor (ref : CaseRef) (R : Reference) (s : CareState) : Prop :=
  closeEvents ref s ≤ 1 ∧
    (closeEvents ref s = 1 → R.status ∈ (CASE_DEFINITIONS ref.kind).terminalStatuses)

theorem ClosedFor.moved {ref : CaseRef} {R : Reference} {target : CaseStatus} {s s' : CareState}
    (h : ClosedFor ref R s) (hne : target ≠ R.status)
    (hedge : Edge (CASE_DEFINITIONS ref.kind).stateMachine R.status target)
    (hann : Announces ref target s s') : ClosedFor ref { R with status := target } s' := by
  obtain ⟨hle, hterm⟩ := h
  obtain ⟨-, hcloses⟩ := hann
  -- no edge leads out of a status whose closing was announced
  have hzero : closeEvents ref s = 0 := by
    by_contra hpos
    exact hne (hedge.terminal (hterm (by omega)))
  rw [hzero] at hcloses
  by_cases hmem : target ∈ (CASE_DEFINITIONS ref.kind).terminalStatuses
  · refine ⟨?_, fun _ => hmem⟩
    rw [hcloses]
    split <;> omega
  · rw [if_neg (by simpa using hmem)] at hcloses
    refine ⟨by omega, fun hone => ?_⟩
    omega

/-- One event for each change so far, and at most one closing. -/
def Tally (ref : CaseRef) (start : ℕ) (turns : List TransitionTurn) (s : CareState) : Prop :=
  (∃ R, Agrees ref s R ∧ ClosedFor ref R s) ∧
    changeEvents ref s = start + turns.countP (changesStatus ref)

theorem Tally.step {ref : CaseRef} {start : ℕ} {turns : List TransitionTurn} {s s' : CareState}
    {q : TransitionRequest} {r : Except Failure CaseSnapshot} (h : Tally ref start turns s)
    (hmoves : Moves ref ⟨q, r, s, s'⟩) (hr : Pool.Ran Announced (q.prog ref) s r s') :
    Tally ref start (turns ++ [⟨q, r, s, s'⟩]) s' := by
  obtain ⟨⟨R, hs, hclosed⟩, hchanges⟩ := h
  obtain ⟨hsure, hedge⟩ := ran_alone (transition_sure hs) hr
  have hcounts : Counts ref q.target s r s' :=
    ran_alone transition_counts (hr.mono fun _ _ _ _ => trivial)
  cases r with
  | ok snap =>
    have hs' : Agrees ref s' { R with status := q.target } := hsure
    have hne : q.target ≠ R.status := by
      obtain ⟨c, hc, hcR⟩ := Option.map_eq_some_iff.mp (hs fun n => n)
      rw [← hcR]
      exact hmoves _ c hc
    have hturn : changesStatus ref ⟨q, .ok snap, s, s'⟩ = true := by
      simp [changesStatus, hs.statusIn, hs'.statusIn, hne]
    refine ⟨⟨_, hs', hclosed.moved hne (hedge snap rfl) hcounts⟩, ?_⟩
    rw [hcounts.1, hchanges, List.countP_append, List.countP_singleton, if_pos hturn]
    omega
  | error e =>
    have hs' : Agrees ref s' R := hsure
    have hturn : changesStatus ref ⟨q, .error e, s, s'⟩ = false := by
      simp [changesStatus, hs.statusIn, hs'.statusIn]
    have hevents : SameEvents ref s s' := hcounts
    refine ⟨⟨R, hs', ?_⟩, ?_⟩
    · unfold ClosedFor
      rw [hevents.closes]
      exact hclosed
    · rw [hevents.changes, hchanges, List.countP_append, List.countP_singleton, hturn]
      simp

/-- As many change events as changes, and one closing at most, if no request names the status that
the case has. -/
theorem changes_announced_once (ref : CaseRef) {s s' : CareState} {R : Reference}
    {turns : List TransitionTurn} (hs : Agrees ref s R) (hnew : closeEvents ref s = 0)
    (hrun : Pool.Chain Announced (TransitionRequest.prog ref) s turns s')
    (hmoves : ∀ turn ∈ turns, Moves ref turn) :
    changeEvents ref s' = changeEvents ref s + turns.countP (changesStatus ref) ∧
      closeEvents ref s' ≤ 1 := by
  have hstart : Tally ref (changeEvents ref s) [] s :=
    ⟨⟨R, hs, by omega, fun h => by omega⟩, by simp⟩
  have hend : Tally ref (changeEvents ref s) turns s' :=
    hrun.invariant hmoves hstart fun _ _ _ _ _ h hm hr => h.step hm hr
  obtain ⟨⟨_, -, hclosed⟩, hchanges⟩ := hend
  exact ⟨hchanges, hclosed.1⟩

def moved (q : TransitionRequest) (s : CareState) : CarePool CaseSnapshot :=
  Pool.solo (q.prog ⟨.support, 0⟩) s (callsAt 0 12)

theorem ran_moved (ok : CareCall → CareInput → CareState → Prop) (q : TransitionRequest)
    (s : CareState) (snap : CaseSnapshot)
    (hok : Pool.SoloAdmits ok (q.prog ⟨.support, 0⟩) s (callsAt 0 12))
    (h : (moved q s).result? = some (.ok snap)) :
    Pool.Ran ok (q.prog ⟨.support, 0⟩) s (.ok snap) (moved q s).state :=
  ⟨callsAt 0 12, hok, h, rfl⟩

def supportSnapshot (status : CaseStatus) (closedAt : Option ℕ) : CaseSnapshot :=
  { kind := .support, id := 0, status, priority := normalPriority, openedAt := 0, closedAt }

def escalated : CareState := (moved { target := .escalated } openSupport).state

def cancelled : CareState := (moved { target := .cancelled } escalated).state

def cancelTurns : List TransitionTurn :=
  [⟨{ target := .escalated }, .ok (supportSnapshot .escalated none), openSupport, escalated⟩,
   ⟨{ target := .cancelled }, .ok (supportSnapshot .cancelled (some 0)), escalated, cancelled⟩]

theorem support_announced_once :
    changeEvents ⟨.support, 0⟩ cancelled =
        changeEvents ⟨.support, 0⟩ openSupport + cancelTurns.countP (changesStatus ⟨.support, 0⟩) ∧
      closeEvents ⟨.support, 0⟩ cancelled ≤ 1 := by
  have hopen : Agrees ⟨.support, 0⟩ openSupport ⟨.open, none, normalPriority⟩ := fun _ => rfl
  have hfirst := ran_moved Announced { target := .escalated } openSupport
    (supportSnapshot .escalated none) (by decide +kernel) (by decide +kernel)
  have hsecond := ran_moved Announced { target := .cancelled } escalated
    (supportSnapshot .cancelled (some 0)) (by decide +kernel) (by decide +kernel)
  have hmoves : ∀ (q : TransitionRequest) r s s' c, s.memoryCases ⟨.support, 0⟩ = some c →
      q.target ≠ c.status → Moves ⟨.support, 0⟩ ⟨q, r, s, s'⟩ := by
    intro q r s s' c hc hne rank snap hsnap
    obtain rfl := Option.some.inj (hc.symm.trans hsnap)
    exact hne
  refine changes_announced_once ⟨.support, 0⟩ hopen (by decide +kernel)
    (.snoc (.snoc .nil hfirst) hsecond) ?_
  intro turn hmem
  rcases List.mem_pair.mp hmem with rfl | rfl
  · exact hmoves _ _ _ _ (supportSnapshot .open none) rfl (by decide)
  · exact hmoves _ _ _ _ (supportSnapshot .escalated none) (by decide +kernel) (by decide)

def cancelTwice : List TransitionTurn :=
  [⟨{ target := .cancelled }, .ok (supportSnapshot .cancelled (some 0)), openSupport,
      (moved { target := .cancelled } openSupport).state⟩,
   ⟨{ target := .cancelled }, .ok (supportSnapshot .cancelled (some 0)),
      (moved { target := .cancelled } openSupport).state,
      (moved { target := .cancelled } (moved { target := .cancelled } openSupport).state).state⟩]

/-- The second request changes nothing, and both of its events are published again. -/
theorem cancelled_announced_twice :
    Agrees ⟨.support, 0⟩ openSupport ⟨.open, none, normalPriority⟩ ∧
    closeEvents ⟨.support, 0⟩ openSupport = 0 ∧
    ∃ s', Pool.Chain anyCall (TransitionRequest.prog ⟨.support, 0⟩) openSupport cancelTwice s' ∧
      changeEvents ⟨.support, 0⟩ openSupport = 0 ∧
      cancelTwice.countP (changesStatus ⟨.support, 0⟩) = 1 ∧
      changeEvents ⟨.support, 0⟩ s' = 2 ∧ closeEvents ⟨.support, 0⟩ s' = 2 := by
  have hfirst := ran_moved anyCall { target := .cancelled } openSupport
    (supportSnapshot .cancelled (some 0)) (Pool.soloAdmits_of_forall fun _ _ _ _ => trivial)
    (by decide +kernel)
  have hsecond := ran_moved anyCall { target := .cancelled }
    (moved { target := .cancelled } openSupport).state (supportSnapshot .cancelled (some 0))
    (Pool.soloAdmits_of_forall fun _ _ _ _ => trivial) (by decide +kernel)
  refine ⟨fun _ => rfl, by decide +kernel, _, .snoc (.snoc .nil hfirst) hsecond, ?_⟩
  decide +kernel

end ElectronicsCart.Cases
