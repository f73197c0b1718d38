import ElectronicsCart.Cases.EventRuns

/-!
# The clock of a repair job

The deadline of a repair job counts from `started_at`, and `completed_at` stops it.  A job that is
started anew gets a later `started_at` and keeps its `completed_at`.
-/

namespace ElectronicsCart.Cases

open Interleaving Relational ServiceOpsService

def endedStatuses : List CaseStatus := [.closed, .cancelled, .resolved]

/-- The job has the status, `completed_at` goes with it, and its clock stands as given. -/
structure Clock (id : ℕ) (startedAt : Option ℕ) (createdAt : ℕ) (status : CaseStatus)
    (s : CareState) : Prop where
  row : ∃ r, RepairJobStore.findRow id s = some r ∧ r.startedAt = startedAt ∧
    r.createdAt = createdAt ∧ (r.completedAt.isSome = true ↔ status ∈ endedStatuses)
  reads : ∀ rank, RepairJobStore.readCaseStatus id rank s = status
  started : status = .inProgress → startedAt.isSome = true

/-! ### Edges of the graph -/

section Edges

variable {current target : CaseStatus}

theorem ends_of_edge (hedge : target ∈ supportCaseStateMachine.allowedTargets current)
    (hne : target ≠ .inProgress) (hended : current ∈ endedStatuses) : target ∈ endedStatuses := by
  simp only [endedStatuses, List.mem_cons, List.not_mem_nil, or_false] at hended
  rcases hended with rfl | rfl | rfl
  · cases hedge
  · cases hedge
  · have htargets : target ∈ [CaseStatus.closed, .inProgress] := hedge
    simp only [List.mem_cons, List.not_mem_nil, or_false] at htargets
    rcases htargets with rfl | rfl
    · decide
    · exact absurd rfl hne

theorem outcomeOf_of_edge (hedge : target ∈ supportCaseStateMachine.allowedTargets current) :
    ((RepairJobStore.outcomeOf target).isSome = true ↔ target ∈ endedStatuses) ∧
      target ≠ .repairing := by
  have hall : ∀ p ∈ supportCaseStateMachine.transitions, ∀ t ∈ p.2,
      ((RepairJobStore.outcomeOf t).isSome = true ↔ t ∈ endedStatuses) ∧ t ≠ .repairing := by decide
  unfold StateMachineDefinition.allowedTargets at hedge
  cases hfound : supportCaseStateMachine.transitions.lookup current with
  | none =>
    rw [hfound] at hedge
    cases hedge
  | some targets =>
    rw [hfound] at hedge
    obtain ⟨before, after, hsplit, -⟩ := List.lookup_eq_some_iff.mp hfound
    exact hall (current, targets) (by rw [hsplit]; simp) target hedge

end Edges

/-! ### Calls -/

def endedJob : CareCall → Option ℕ
  | .closeJob id status => if (RepairJobStore.outcomeOf status).isSome then some id else none
  | _ => none

/-- Once the status of a job that ends is written, `completed_at` is; and status rows are stamped in
order. -/
def Punctual (l : CareCall) (i : CareInput) (s : CareState) : Prop :=
  ((endedJob l).isSome = true → i.fails = false) ∧
    ∀ id ∈ savedJob l, i.fails = false → Latest id i.now s

instance (l : CareCall) (i : CareInput) (s : CareState) : Decidable (Punctual l i s) :=
  inferInstanceAs (Decidable (_ ∧ _))

abbrev OnTime {α : Type} (Q : Except Failure α → CareState → Prop) (p : CareProg α) (s : CareState) :
    Prop :=
  Within Punctual (fun _ _ _ _ => True) Q p s

section Programs

variable {id createdAt : ℕ} {startedAt : Option ℕ} {status target : CaseStatus} {s t : CareState}
  {α β : Type}

theorem Clock.of_same (h : SameCases s t) (hs : Clock id startedAt createdAt status s) :
    Clock id startedAt createdAt status t where
  row := by
    rw [RepairJobStore.findRow, h.jobs]
    exact hs.row
  reads rank := by
    rw [readCaseStatus_of_rows (h.statusRows id)]
    exact hs.reads rank
  started := hs.started

def Stands (id : ℕ) (startedAt : Option ℕ) (createdAt : ℕ) (s : CareState) : Prop :=
  ∃ status, Clock id startedAt createdAt status s

/-- The status is the given one if the request ended well. -/
def Reaches {α : Type} (id : ℕ) (startedAt : Option ℕ) (createdAt : ℕ) (target : CaseStatus)
    (r : Except Failure α) (s : CareState) : Prop :=
  ∃ status, Clock id startedAt createdAt status s ∧ ∀ a, r = .ok a → status = target

theorem Reaches.error {e : Failure} (hs : Clock id startedAt createdAt status s) :
    Reaches id startedAt createdAt target (.error e : Except Failure α) s :=
  ⟨status, hs, fun _ h => nomatch h⟩

theorem idle_reaches {p : CareProg α} (hp : Calls idle p)
    (hs : Clock id startedAt createdAt target s) :
    OnTime (Reaches id startedAt createdAt target) p s :=
  (idle_within (fun _ _ _ _ _ => trivial) hp).mono fun _ _ h =>
    ⟨target, hs.of_same h.toSameCases, fun _ _ => rfl⟩

theorem Clock.closed {now : ℕ} (hedge : target ∈ supportCaseStateMachine.allowedTargets status)
    (hne : target ≠ .inProgress) (hs : Clock id startedAt createdAt status s)
    (hread : ∀ rank, RepairJobStore.readCaseStatus id rank t = target) (hjobs : t.jobs = s.jobs) :
    Clock id startedAt createdAt target
      { t with jobs := t.jobs.update id (RepairJobStore.close target now)
                (RepairJobStore.key_close target now) } where
  row := by
    obtain ⟨r, hr, hstart, hcreated, hcomplete⟩ := hs.row
    obtain ⟨houtcome, hrepairing⟩ := outcomeOf_of_edge hedge
    refine ⟨RepairJobStore.close target now r, ?_, ?_, hcreated, ?_⟩
    · rw [RepairJobStore.findRow_update (g := RepairJobStore.close target now) fun _ => rfl,
        RepairJobStore.findRow, hjobs]
      exact congrArg (Option.map _) hr
    · simp [RepairJobStore.close, hne, hrepairing, hstart]
    · unfold RepairJobStore.close
      dsimp only
      split
      next hsome => exact ⟨fun _ => houtcome.mp hsome, fun _ => rfl⟩
      next hnone =>
        rw [hcomplete]
        refine ⟨ends_of_edge hedge hne, fun h => absurd (houtcome.mpr h) hnone⟩
  reads := hread
  started h := absurd h hne

theorem Clock.unclosed (hedge : target ∈ supportCaseStateMachine.allowedTargets status)
    (hne : target ≠ .inProgress) (hs : Clock id startedAt createdAt status s)
    (hread : ∀ rank, RepairJobStore.readCaseStatus id rank t = target) (hjobs : t.jobs = s.jobs)
    (hnone : (RepairJobStore.outcomeOf target).isSome ≠ true) :
    Clock id startedAt createdAt target t where
  row := by
    obtain ⟨r, hr, hstart, hcreated, hcomplete⟩ := hs.row
    obtain ⟨houtcome, -⟩ := outcomeOf_of_edge hedge
    refine ⟨r, by rwa [RepairJobStore.findRow, hjobs], hstart, hcreated, ?_⟩
    rw [hcomplete]
    exact ⟨ends_of_edge hedge hne, fun h => absurd (houtcome.mpr h) hnone⟩
  reads := hread
  started h := absurd h hne

theorem saveStatus_reaches {actorId : Option ℕ}
    (hedge : target ∈ supportCaseStateMachine.allowedTargets status) (hne : target ≠ .inProgress)
    (hs : Clock id startedAt createdAt status s) :
    OnTime (Reaches id startedAt createdAt target)
      (RepairJobStore.saveStatus ⟨.repairJob, id⟩ target actorId) s := by
  refine idleBind (fun _ _ _ _ _ => trivial) (calls_jobLoad rfl) (fun _ t ht => ?_)
    fun _ _ ht => .error (hs.of_same ht.toSameCases)
  have hst := hs.of_same ht.toSameCases
  refine .atomicBind (fun _ => trivial) (fun i b u ho hf hw => ⟨trivial, ?_⟩) fun _ _ _ _ => .error hst
  have hread : ∀ rank, RepairJobStore.readCaseStatus id rank u = target := fun rank =>
    readCaseStatus_writeAudit (ho.2 id rfl hf) hw
  have hjobs : u.jobs = t.jobs := by
    obtain ⟨-, rfl⟩ := writeAudit_eq_ok.mp hw
    rfl
  refine .atomicBind (fun _ => trivial) (fun i b w _ _ hw => ⟨trivial, ?_⟩) fun i e ho herr => ?_
  · obtain ⟨-, rfl⟩ := RepairJobStore.writeClose_cases hw
    refine idle_reaches ?_ (hst.closed hedge hne hread hjobs)
    exact (calls_auditAppend (by simp) rfl).bind fun _ => calls_jobLoad rfl
  · refine .error (hst.unclosed hedge hne hread hjobs fun hsome => ?_)
    rcases herr with hfail | herr
    · have hok := ho.1 (by simp [endedJob, hsome])
      rw [hok] at hfail
      cases hfail
    · obtain ⟨r, hr, -⟩ := hst.row
      rw [RepairJobStore.writeClose, existing, hjobs, (Option.filter_eq_some_iff.mp hr).1] at herr
      cases herr

theorem transition_reaches {actorId : Option ℕ} {reason : Option String}
    (hs : Clock id startedAt createdAt status s) (hstart : target = .inProgress → status = .inProgress) :
    OnTime (Reaches id startedAt createdAt target)
      (CaseManager.transition ⟨.repairJob, id⟩ target actorId reason) s := by
  refine requireBind (fun _ _ _ => trivial) (fun i snap _ hsnap => ?_) fun e => .error hs
  obtain ⟨row, hrow, rfl⟩ := Option.map_eq_some_iff.mp hsnap
  refine Within.bind (R := Reaches id startedAt createdAt target) ?_ (fun result t ht => ?_) ?_
  · refine .ensureBind (fun hcan => ?_) fun _ => .error hs
    split
    next heq =>
      refine .done ⟨status, hs, fun _ _ => ?_⟩
      exact (hs.reads _).symm.trans heq
    next hne =>
      have hcurrent : (RepairJobStore.snapshot row (RepairJobStore.readCaseStatus id i.rank s)).status =
          status := hs.reads _
      rw [hcurrent] at hcan hne
      have hedge := (Edge.of_canTransition hcan).resolve_left (Ne.symm hne)
      have hnew : target ≠ .inProgress := fun h => hne ((hstart h).trans h.symm)
      refine Within.bind (saveStatus_reaches hedge hnew hs) (fun o t ht => ?_) ?_
      · obtain ⟨_, ht, heq⟩ := ht
        obtain rfl := heq o rfl
        refine idle_reaches ?_ ht
        exact (calls_append rfl).bind fun _ => (calls_publish rfl).bind fun _ => .done _
      · rintro e t ⟨_, ht, -⟩
        exact .error ht
  · obtain ⟨_, ht, heq⟩ := ht
    obtain rfl := heq result rfl
    refine idle_reaches ?_ ht
    exact (calls_settled rfl).bind fun snap => calls_announce.idle.bind fun _ => .done _
  · rintro e t ⟨_, ht, -⟩
    exact .error ht

/-! ### Patches -/

theorem Clock.patched {dto : PatchRepairJobDto} {now : ℕ} (hs : Clock id startedAt createdAt status s)
    (hstatus : dto.status = some .inProgress → status = .inProgress)
    (hends : dto.completes = true → status ∈ endedStatuses) :
    Clock id startedAt createdAt status
      { s with jobs := s.jobs.update id (applyPatch dto startedAt now)
                (key_applyPatch dto startedAt now) } where
  row := by
    obtain ⟨r, hr, hstart, hcreated, hcomplete⟩ := hs.row
    refine ⟨applyPatch dto startedAt now r, ?_, ?_, hcreated, ?_⟩
    · rw [RepairJobStore.findRow_update (g := applyPatch dto startedAt now) fun _ => rfl, hr]
      rfl
    · unfold applyPatch
      dsimp only
      split
      next hin =>
        obtain ⟨t, ht⟩ := Option.isSome_iff_exists.mp (hs.started (hstatus hin))
        rw [ht]
        rfl
      next => exact hstart
    · unfold applyPatch
      dsimp only
      split
      next hcompletes => exact ⟨fun _ => hends hcompletes, fun _ => rfl⟩
      next => exact hcomplete
  reads := hs.reads
  started := hs.started

def Fits (dto : PatchRepairJobDto) (status : CaseStatus) : Prop :=
  (dto.status = some .inProgress → status = .inProgress) ∧
    (dto.completes = true → status ∈ endedStatuses)

theorem fits_target {dto : PatchRepairJobDto} (h : dto.target = some target) : Fits dto target := by
  obtain ⟨hstatus, -⟩ := Option.filter_eq_some_iff.mp h
  refine ⟨fun hin => ?_, fun hcompletes => ?_⟩
  · exact Option.some.inj (hstatus.symm.trans hin)
  · simp only [PatchRepairJobDto.completes, hstatus, Bool.or_eq_true, beq_iff_eq,
      Option.some.injEq] at hcompletes
    rcases hcompletes with rfl | rfl <;> decide

theorem fits_of_none {dto : PatchRepairJobDto} (h : dto.target = none) : Fits dto status := by
  have hother : ∀ st, dto.status = some st → st = .other "" := by
    intro st hst
    simpa [PatchRepairJobDto.target, hst] using h
  refine ⟨fun hin => (nomatch hother _ hin), fun hcompletes => ?_⟩
  simp only [PatchRepairJobDto.completes, Bool.or_eq_true, beq_iff_eq] at hcompletes
  rcases hcompletes with h | h <;> cases hother _ h

theorem patchStatus_fits {actorId : ℕ} {dto : PatchRepairJobDto}
    (hs : Clock id startedAt createdAt status s)
    (hstart : dto.target = some .inProgress → status = .inProgress) :
    OnTime (fun r t => ∃ st, Clock id startedAt createdAt st t ∧ ∀ a, r = .ok a → Fits dto st)
      (patchStatus actorId id dto) s := by
  refine requireBind (fun _ _ _ => trivial) (fun i snap _ _ => ?_)
    fun e => ⟨status, hs, fun _ h => nomatch h⟩
  split
  next target htarget =>
    refine Within.bind (transition_reaches hs fun h => hstart (h ▸ htarget)) ?_ ?_
    · rintro snap t ⟨st, ht, heq⟩
      obtain rfl := heq snap rfl
      exact .done ⟨st, ht, fun _ _ => fits_target htarget⟩
    · rintro e t ⟨st, ht, -⟩
      exact ⟨st, ht, fun _ h => nomatch h⟩
  next htarget => exact .done ⟨status, hs, fun _ _ => fits_of_none htarget⟩

theorem calls_patchEvents {dto : PatchRepairJobDto} : Calls idle (patchEvents id dto) := by
  refine (calls_publishIf rfl).bind fun _ => ?_
  split
  · exact .queryBind rfl fun _ => .orThrowBind fun _ => calls_publish rfl
  · exact .done _

theorem idle_stands {p : CareProg α} (hp : Calls idle p)
    (hs : Clock id startedAt createdAt status s) :
    OnTime (fun _ t => Stands id startedAt createdAt t) p s :=
  (idle_within (fun _ _ _ _ _ => trivial) hp).mono fun _ _ h => ⟨status, hs.of_same h.toSameCases⟩

theorem patch_stands {token actorId : ℕ} {dto : PatchRepairJobDto}
    (hs : Clock id startedAt createdAt status s)
    (hstart : dto.target = some .inProgress → status = .inProgress) :
    OnTime (fun _ t => Stands id startedAt createdAt t) (patchRepairJob token actorId id dto) s := by
  have hlocks : ∀ (t : CareState) st m, Clock id startedAt createdAt st t →
      Clock id startedAt createdAt st (Lockable.setLocks CareCall m t) :=
    fun t st m => Clock.of_same (.of_audits rfl rfl rfl rfl rfl rfl rfl)
  refine .withLock (fun _ _ _ => trivial) (fun _ _ _ _ => trivial) (fun _ => ⟨status, hs⟩)
    (fun _ t m => ?_) (fun _ _ h => h) fun m => ?_
  · rintro ⟨st, ht⟩
    exact ⟨st, hlocks t st m ht⟩
  have hm := hlocks s status m hs
  refine .queryBind (fun _ => trivial) (fun _ _ _ => ?_) fun _ _ _ => ⟨status, hm⟩
  refine .orThrowBind (fun job hjob => ?_) fun _ => ⟨status, hm⟩
  obtain ⟨r, hr, hstarted, -⟩ := hm.row
  obtain rfl := Option.some.inj (hr.symm.trans hjob)
  refine Within.bind (patchStatus_fits hm hstart) ?_ ?_
  · rintro st t ⟨current, ht, hfits⟩
    have hrest : ∀ u, Clock id startedAt createdAt current u → OnTime
        (fun _ t => Stands id startedAt createdAt t) (do
          patchEvents id dto
          repoAudit { ticketId := some r.ticketId, repairJobId := some id } "repair.patch"
            (some actorId) dto.status
          return st) u := fun u hu => idle_stands (calls_patchEvents.bind fun _ =>
        calls_repoAudit.idle.bind fun _ => .done _) hu
    refine Within.bind (R := fun _ u => Clock id startedAt createdAt current u) ?_
      (fun _ u hu => hrest u hu) fun _ u hu => ⟨current, hu⟩
    unfold patchDetails
    split
    · refine .atomic (fun _ => trivial) (fun i b u _ _ hw => ⟨trivial, ?_⟩) fun _ _ _ _ => ht
      obtain ⟨-, rfl⟩ := ServiceOpsService.writePatch_cases hw
      obtain ⟨hin, hends⟩ := hfits st rfl
      subst hstarted
      exact ht.patched hin hends
    · exact .done ht
  · rintro e t ⟨current, ht, -⟩
    exact ⟨current, ht⟩

end Programs

/-! ### Runs -/

structure PatchRequest where
  token : ℕ
  actorId : ℕ
  dto : PatchRepairJobDto
deriving DecidableEq

def PatchRequest.prog (id : ℕ) (q : PatchRequest) : CareProg CaseStatus :=
  patchRepairJob q.token q.actorId id q.dto

abbrev PatchTurn := Pool.Turn PatchRequest Failure CaseStatus CareState

/-- The job is not moved to `in_progress`. -/
def Unstarted (id : ℕ) (turn : PatchTurn) : Prop :=
  turn.request.dto.target = some .inProgress →
    RepairJobStore.readCaseStatus id (fun n => n) turn.before = .inProgress

theorem Clock.loaded {id createdAt : ℕ} {startedAt : Option ℕ} {status : CaseStatus} {s : CareState}
    {rank : ℕ → ℕ} {snap : CaseSnapshot} (hs : Clock id startedAt createdAt status s)
    (h : loaded ⟨.repairJob, id⟩ rank s = some snap) :
    (snap.closedAt.isSome = true ↔ snap.status ∈ endedStatuses) ∧
      snap.dueAt = some (computeDueAt (startedAt.getD createdAt) normalPriority
        (CASE_DEFINITIONS .repairJob).sla) := by
  obtain ⟨r, hr, rfl, rfl, hcomplete⟩ := hs.row
  obtain ⟨row, hrow, rfl⟩ := Option.map_eq_some_iff.mp h
  obtain rfl := Option.some.inj (hr.symm.trans hrow)
  refine ⟨?_, rfl⟩
  rw [← hs.reads rank] at hcomplete
  exact hcomplete

/-- A job that is created is open and has not been started. -/
theorem insertJob_stands {dto : CreateRepairJobDto} {technicianId : Option ℕ} {now : ℕ}
    {s t : CareState} {job : RepairJob} (hrows : statusRows s.jobs.next s = [])
    (h : insertJob dto technicianId now s = .ok (job, t)) : Stands job.id none now t := by
  simp only [insertJob, bind_eq_ok, check_eq_ok, pure_eq_ok, Prod.mk.injEq, exists_const] at h
  obtain ⟨-, -, -, rfl, rfl⟩ := h
  refine ⟨.open, ⟨_, Option.filter_eq_some_iff.mpr ⟨Table.find?_insert_next fun _ => rfl, rfl⟩,
    rfl, rfl, iff_of_false Bool.false_ne_true (by decide)⟩,
    fun _ => readCaseStatus_of_nil hrows, fun h => absurd h (by decide)⟩

/-- After every sequence of patches that start no job, `closedAt` of the loaded job goes with its
status, and its deadline is the one it had. -/
theorem jobs_keep_deadline (id : ℕ) {startedAt : Option ℕ} {createdAt : ℕ} {s s' : CareState}
    {turns : List PatchTurn} (hs : Stands id startedAt createdAt s)
    (hrun : Pool.Chain Punctual (PatchRequest.prog id) s turns s')
    (hturns : ∀ turn ∈ turns, Unstarted id turn) {rank : ℕ → ℕ} {snap : CaseSnapshot}
    (h : loaded ⟨.repairJob, id⟩ rank s' = some snap) :
    (snap.closedAt.isSome = true ↔ snap.status ∈ endedStatuses) ∧
      ∀ rank₀ snap₀, loaded ⟨.repairJob, id⟩ rank₀ s = some snap₀ → snap.dueAt = snap₀.dueAt := by
  have hend : Stands id startedAt createdAt s' := by
    refine hrun.invariant (P := fun _ t => Stands id startedAt createdAt t) hturns hs ?_
    rintro turns t q r u ⟨status, ht⟩ hunstarted hr
    refine ran_alone (patch_stands ht fun htarget => ?_) hr
    exact (ht.reads _).symm.trans (hunstarted htarget)
  obtain ⟨status, hs⟩ := hs
  obtain ⟨status', hs'⟩ := hend
  obtain ⟨hclosed, hdue⟩ := hs'.loaded h
  exact ⟨hclosed, fun rank₀ snap₀ h₀ => hdue.trans (hs.loaded h₀).2.symm⟩

/-- A job that is in progress since its first millisecond. -/
def workingJob : CareState :=
  { newTicket with
    jobs := Table.empty.insert fun n => { id := n, startedAt := some 1 }
    audits := Table.empty.insert fun n =>
      { id := n, repairJobId := some 0, action := .caseStatus, metadata := .status .inProgress
        createdAt := 1 } }

def resolvePatch : PatchRequest := ⟨2, 5, { status := some .resolved, repairMinutes := some 30 }⟩

/-- A patch by itself, with calls that are answered at the given time. -/
def patchedAt (q : PatchRequest) (s : CareState) (now : ℕ) : CarePool CaseStatus :=
  Pool.solo (q.prog 0) s (callsAt now 26)

theorem ran_patchedAt (ok : CareCall → CareInput → CareState → Prop) (q : PatchRequest) (s : CareState)
    (now : ℕ) (st : CaseStatus) (hok : Pool.SoloAdmits ok (q.prog 0) s (callsAt now 26))
    (h : (patchedAt q s now).result? = some (.ok st)) :
    Pool.Ran ok (q.prog 0) s (.ok st) (patchedAt q s now).state :=
  ⟨callsAt now 26, hok, h, rfl⟩

def resolvedJob : CareState := (patchedAt resolvePatch workingJob 100).state

def closePatch : PatchRequest := ⟨2, 5, { status := some .closed }⟩

def reopenPatch : PatchRequest := ⟨2, 5, { status := some .inProgress }⟩

theorem workingJob_stands : Stands 0 (some 1) 0 workingJob :=
  ⟨.inProgress, ⟨_, rfl, rfl, rfl, by decide⟩, fun _ => rfl, fun _ => rfl⟩

/-- The job is resolved and then closed. -/
theorem jobs_keep_deadline_closed : ∃ snap,
    loaded ⟨.repairJob, 0⟩ id (patchedAt closePatch resolvedJob 200).state = some snap ∧
      (snap.closedAt.isSome = true ↔ snap.status ∈ endedStatuses) ∧
      ∀ rank₀ snap₀, loaded ⟨.repairJob, 0⟩ rank₀ workingJob = some snap₀ →
        snap.dueAt = snap₀.dueAt := by
  obtain ⟨snap, hsnap⟩ : ∃ snap,
      loaded ⟨.repairJob, 0⟩ id (patchedAt closePatch resolvedJob 200).state = some snap :=
    Option.isSome_iff_exists.mp (by decide +kernel)
  have hfirst := ran_patchedAt Punctual resolvePatch workingJob 100 .resolved (by decide +kernel)
    (by decide +kernel)
  have hsecond := ran_patchedAt Punctual closePatch resolvedJob 200 .closed (by decide +kernel)
    (by decide +kernel)
  refine ⟨snap, hsnap, jobs_keep_deadline 0 workingJob_stands (.snoc (.snoc .nil hfirst) hsecond)
    (fun turn hmem => ?_) hsnap⟩
  rcases List.mem_pair.mp hmem with rfl | rfl
  · exact fun h => absurd h (by decide)
  · exact fun h => absurd h (by decide)

/-- A resolved job that is started anew still counts as closed, and its deadline is a later one. -/
theorem reopened_job_closed :
    Stands 0 (some 1) 0 workingJob ∧
    Pool.Chain anyCall (PatchRequest.prog 0) workingJob
      [⟨resolvePatch, .ok .resolved, workingJob, resolvedJob⟩,
       ⟨reopenPatch, .ok .inProgress, resolvedJob, (patchedAt reopenPatch resolvedJob 200).state⟩]
      (patchedAt reopenPatch resolvedJob 200).state ∧
    ((loaded ⟨.repairJob, 0⟩ id (patchedAt reopenPatch resolvedJob 200).state).map fun snap =>
      (snap.status, snap.closedAt)) = some (.inProgress, some 100) ∧
    ((loaded ⟨.repairJob, 0⟩ id resolvedJob).bind CaseSnapshot.dueAt).getD 0 <
      ((loaded ⟨.repairJob, 0⟩ id (patchedAt reopenPatch resolvedJob 200).state).bind
        CaseSnapshot.dueAt).getD 0 := by
  have hany : ∀ (q : PatchRequest) s now, Pool.SoloAdmits anyCall (q.prog 0) s (callsAt now 26) :=
    fun _ _ _ => Pool.soloAdmits_of_forall fun _ _ _ _ => trivial
  have hfirst := ran_patchedAt anyCall resolvePatch workingJob 100 .resolved (hany ..) (by decide +kernel)
  have hsecond := ran_patchedAt anyCall reopenPatch resolvedJob 200 .inProgress (hany ..) (by decide +kernel)
  refine ⟨workingJob_stands, .snoc (.snoc .nil hfirst) hsecond, ?_, ?_⟩
  · decide +kernel
  · decide +kernel

end ElectronicsCart.Cases
