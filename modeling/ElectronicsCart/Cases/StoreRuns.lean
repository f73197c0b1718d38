import ElectronicsCart.Cases.Runs

/-!
# The stores and their reference

`InMemoryCaseStore` keeps the status, the assignee and the priority of a case.  Of the stores over
the database only the one of tickets has a column for each; the others keep an assignment or a
priority as an entry of the timeline, which no load reads, and two stores set the status themselves
when they assign.
-/

namespace ElectronicsCart.Cases

open Interleaving Relational

/-! ### The reference -/

/-- What is asked for with assignments, priorities and statuses. -/
structure Reference where
  status : CaseStatus
  assigneeId : Option ℕ
  priority : CasePriority
deriving DecidableEq

def CaseSnapshot.reference (snap : CaseSnapshot) : Reference :=
  ⟨snap.status, snap.assigneeId, snap.priority⟩

def CaseRequest.apply : CaseRequest → Reference → Reference
  | .transition target _ _, R => { R with status := target }
  | .assign assigneeId _, R => { R with assigneeId := some assigneeId }
  | .setPriority priority _, R => { R with priority := priority }

/-- The requests on the reference; one that failed was carried out or not. -/
inductive Replay : List (CaseRequest × Except Failure Unit) → Reference → Reference → Prop
  | nil (R : Reference) : Replay [] R R
  | applied {calls : List (CaseRequest × Except Failure Unit)} {R R' : Reference} (q : CaseRequest)
      (r : Except Failure Unit) : Replay calls R R' → Replay (calls ++ [(q, r)]) R (q.apply R')
  | failed {calls : List (CaseRequest × Except Failure Unit)} {R R' : Reference} (q : CaseRequest)
      (e : Failure) : Replay calls R R' → Replay (calls ++ [(q, .error e)]) R R'

/-- The store loads what the reference holds, whatever the order of tied rows. -/
def Agrees (ref : CaseRef) (s : CareState) (R : Reference) : Prop :=
  ∀ rank, (loaded ref rank s).map CaseSnapshot.reference = some R

theorem Agrees.of_same {ref : CaseRef} {s s' : CareState} {R : Reference} (h : SameLoads s s')
    (hs : Agrees ref s R) : Agrees ref s' R := by
  intro rank
  rw [loaded_same h]
  exact hs rank

theorem Agrees.snapshot {ref : CaseRef} {s : CareState} {R : Reference} {rank : ℕ → ℕ}
    {snap : CaseSnapshot} (hs : Agrees ref s R) (h : loaded ref rank s = some snap) :
    snap.reference = R := by
  have hr := hs rank
  rw [h] at hr
  exact Option.some.inj hr

/-! ### When a store keeps what it was told -/

def Persisted : CaseKind → CaseRequest → Prop
  | .warrantyClaim, .assign _ _ => False
  | .rma, .assign _ _ => False
  | .warrantyClaim, .setPriority priority _ => priority = normalPriority
  | .rma, .setPriority priority _ => priority = normalPriority
  | .repairJob, .setPriority priority _ => priority = normalPriority
  | _, _ => True

/-- A row of a repair job is stamped later than those before it. -/
def Latest (jobId now : ℕ) (s : CareState) : Prop := ∀ r ∈ statusRows jobId s, r.createdAt < now

instance (jobId now : ℕ) (s : CareState) : Decidable (Latest jobId now s) :=
  inferInstanceAs (Decidable (∀ r ∈ statusRows jobId s, r.createdAt < now))

/-- The status is `assigned` as far as the store knows. -/
def IsAssigned (ref : CaseRef) (s : CareState) : Prop :=
  ∀ rank snap, loaded ref rank s = some snap → snap.status = .assigned

/-- A ticket or a repair job is assigned when it is `assigned`, and status rows are stamped in
order. -/
def Faithful (l : CareCall) (i : CareInput) (s : CareState) : Prop :=
  match l with
  | .assign ref assigneeId => ref.kind = .serviceTicket → i.fails = false →
    (s.technicians.find? assigneeId).isSome = true → IsAssigned ref s
  | .markAssigned id => i.fails = false → IsAssigned ⟨.repairJob, id⟩ s ∧ Latest id i.now s
  | .saveStatus ref _ => ref.kind = .repairJob → i.fails = false → Latest ref.id i.now s
  | _ => True

abbrev Stored {α : Type} (Q : Except Failure α → CareState → Prop) (p : CareProg α) (s : CareState) :
    Prop :=
  Within Faithful (fun _ _ _ _ => True) Q p s

/-- Done and kept, or failed before or after it was kept. -/
def Settles {α : Type} (ref : CaseRef) (R R' : Reference) : Except Failure α → CareState → Prop
  | .ok _, t => Agrees ref t R'
  | .error _, t => Agrees ref t R ∨ Agrees ref t R'

section Rules

variable {ref : CaseRef} {α β : Type} {s : CareState} {R R' : Reference}

theorem idle_agrees {p : CareProg α} (hp : Calls idle p) (hs : Agrees ref s R) :
    Stored (fun _ t => Agrees ref t R) p s :=
  (idle_within (fun _ _ _ _ _ => trivial) hp).mono fun _ _ h => hs.of_same h

theorem idle_settles {p : CareProg α} (hp : Calls idle p) (hs : Agrees ref s R') :
    Stored (Settles ref R R') p s := by
  refine (idle_agrees hp hs).mono fun r t h => ?_
  cases r with
  | ok a => exact h
  | error e => exact .inr h

theorem idleBind_settles {p : CareProg β} {k : β → CareProg α} (hp : Calls idle p)
    (hs : Agrees ref s R) (hk : ∀ b t, Agrees ref t R → Stored (Settles ref R R') (k b) t) :
    Stored (Settles ref R R') (p.bind k) s :=
  (idle_agrees hp hs).bind hk fun _ _ h => .inl h

theorem Settles.bind {p : CareProg β} {k : β → CareProg α} (hp : Stored (Settles ref R R') p s)
    (hk : ∀ b, Calls idle (k b)) : Stored (Settles ref R R') (p.bind k) s :=
  Within.bind hp (fun b _ h => idle_settles (hk b) h) fun _ _ h => h

theorem writeBind {l : CareCall} {f : CareInput → CareState → Except Failure (β × CareState)}
    {k : β → CareProg α} (hs : Agrees ref s R)
    (h : ∀ i b u, Faithful l i s → i.fails = false → f i s = .ok (b, u) → Agrees ref u R')
    (hk : ∀ b, Calls idle (k b)) : Stored (Settles ref R R') ((atomic l f).bind k) s := by
  refine .atomicBind (fun _ => trivial) (fun i b u ho hf hw => ?_) fun _ _ _ _ => .inl hs
  exact ⟨trivial, idle_settles (hk b) (h i b u ho hf hw)⟩

end Rules

/-! ### What the stores load after a write -/

theorem agrees_claim {id : ℕ} {s : CareState} {R : Reference} :
    Agrees ⟨.warrantyClaim, id⟩ s R ↔
      ((WarrantyClaimStore.findRow id s).map fun row =>
        (WarrantyClaimStore.snapshot row).reference) = some R := by
  simp only [Agrees, loaded, Option.map_map, Function.comp_def, forall_const]

theorem agrees_rma {id : ℕ} {s : CareState} {R : Reference} :
    Agrees ⟨.rma, id⟩ s R ↔
      ((RmaStore.findRow id s).map fun row => (RmaStore.snapshot row).reference) = some R := by
  simp only [Agrees, loaded, Option.map_map, Function.comp_def, forall_const]

/-- The service level of a ticket says nothing about these. -/
def ticketReference (r : ServiceTicket) : Reference :=
  ⟨r.status, r.technicianId, ServiceTicketStore.clampPriority r.priority⟩

theorem agrees_ticket {id : ℕ} {s : CareState} {R : Reference} :
    Agrees ⟨.serviceTicket, id⟩ s R ↔
      (ServiceTicketStore.findRow id s).map ticketReference = some R := by
  simp only [Agrees, loaded, Option.map_map, Function.comp_def, forall_const]
  rfl

theorem agrees_job {id : ℕ} {s : CareState} {R : Reference} :
    Agrees ⟨.repairJob, id⟩ s R ↔ ∃ row, RepairJobStore.findRow id s = some row ∧
      row.technicianId = R.assigneeId ∧ R.priority = normalPriority ∧
      ∀ rank, RepairJobStore.readCaseStatus id rank s = R.status := by
  constructor
  · intro h
    obtain ⟨snap, hsnap, hR⟩ := Option.map_eq_some_iff.mp (h fun n => n)
    obtain ⟨row, hrow, rfl⟩ := Option.map_eq_some_iff.mp hsnap
    refine ⟨row, hrow, congrArg Reference.assigneeId hR, (congrArg Reference.priority hR).symm, ?_⟩
    intro rank
    have hrank : loaded ⟨.repairJob, id⟩ rank s = some (RepairJobStore.snapshot row
        (RepairJobStore.readCaseStatus id rank s)) := by simp only [loaded, hrow, Option.map_some]
    exact congrArg Reference.status (h.snapshot hrank)
  · rintro ⟨row, hrow, htech, hprio, hstatus⟩ rank
    obtain ⟨status, assigneeId, priority⟩ := R
    simp only [loaded, hrow, Option.map_some, hstatus rank, Option.some.injEq]
    exact congrArg₂ (Reference.mk status) htech hprio.symm

theorem clampPriority_val (p : CasePriority) : ServiceTicketStore.clampPriority p.val = p := by
  obtain ⟨hlow, hhigh⟩ := p.property
  unfold ServiceTicketStore.clampPriority
  split
  · exact Subtype.ext (show 1 = p.val by omega)
  · split
    · exact Subtype.ext (show 5 = p.val by omega)
    · exact Subtype.ext (Int.toNat_natCast p.val)

theorem readCaseStatus_insert {id : ℕ} {rank : ℕ → ℕ} {s : CareState} {row : ℕ → ServiceAuditLog}
    {hrow : ∀ n, key (row n) = n} {status : CaseStatus}
    (hpick : RepairJobStore.isStatusRow id (row s.audits.next) = true)
    (hkept : (row s.audits.next).deleted = false)
    (hstatus : RepairJobStore.rowStatus (row s.audits.next) = some status)
    (hlatest : Latest id (row s.audits.next).createdAt s) :
    RepairJobStore.readCaseStatus id rank { s with audits := s.audits.insert row hrow } = status := by
  have hlast : RepairJobStore.isStatusRow id (row s.audits.next) = true → ∀ r ∈ s.audits.rows,
      RepairJobStore.isStatusRow id r = true → r.deleted = false →
      r.createdAt < (row s.audits.next).createdAt :=
    fun _ r hmem hp hdel => hlatest r (List.mem_filter.mpr ⟨hmem, by simp [hp, hdel]⟩)
  rw [RepairJobStore.readCaseStatus, auditRows_insert hkept hlast, if_pos hpick,
    List.getLast?_append_of_ne_nil _ (List.cons_ne_nil _ _), List.getLast?_singleton,
    Option.bind_some, hstatus, Option.getD_some]

theorem readCaseStatus_writeAudit {id : ℕ} {rank : ℕ → ℕ} {s s' : CareState} {actorId : Option ℕ}
    {status : CaseStatus} {now : ℕ} {u : Unit} (hlatest : Latest id now s)
    (h : writeAudit ⟨.repairJob, id⟩ .caseStatus actorId (.status status) now s = .ok (u, s')) :
    RepairJobStore.readCaseStatus id rank s' = status := by
  obtain ⟨-, rfl⟩ := writeAudit_eq_ok.mp h
  exact readCaseStatus_insert (by simp [RepairJobStore.isStatusRow, auditRow]) rfl rfl hlatest

/-! ### Writes -/

section Writes

variable {id now : ℕ} {status : CaseStatus} {s u : CareState} {R R' : Reference} {b : Unit}

theorem claim_updated {g : WarrantyClaim → WarrantyClaim} {hg : ∀ r, key (g r) = key r}
    (hkept : ∀ r, (g r).deleted = r.deleted)
    (hR : ∀ r, (WarrantyClaimStore.snapshot r).reference = R →
      (WarrantyClaimStore.snapshot (g r)).reference = R')
    (hs : Agrees ⟨.warrantyClaim, id⟩ s R) :
    Agrees ⟨.warrantyClaim, id⟩ { s with claims := s.claims.update id g hg } R' := by
  obtain ⟨row, hrow, hrowR⟩ := Option.map_eq_some_iff.mp (agrees_claim.mp hs)
  refine agrees_claim.mpr ?_
  rw [WarrantyClaimStore.findRow_update hkept, hrow]
  exact congrArg some (hR row hrowR)

theorem rma_updated {g : RmaRequest → RmaRequest} {hg : ∀ r, key (g r) = key r}
    (hkept : ∀ r, (g r).deleted = r.deleted)
    (hR : ∀ r, (RmaStore.snapshot r).reference = R → (RmaStore.snapshot (g r)).reference = R')
    (hs : Agrees ⟨.rma, id⟩ s R) :
    Agrees ⟨.rma, id⟩ { s with rmas := s.rmas.update id g hg } R' := by
  obtain ⟨row, hrow, hrowR⟩ := Option.map_eq_some_iff.mp (agrees_rma.mp hs)
  refine agrees_rma.mpr ?_
  rw [RmaStore.findRow_update hkept, hrow]
  exact congrArg some (hR row hrowR)

theorem ticket_updated {g : ServiceTicket → ServiceTicket} {hg : ∀ r, key (g r) = key r}
    (hkept : ∀ r, (g r).deleted = r.deleted)
    (hR : ∀ r, ticketReference r = R → ticketReference (g r) = R')
    (hs : Agrees ⟨.serviceTicket, id⟩ s R) :
    Agrees ⟨.serviceTicket, id⟩ { s with tickets := s.tickets.update id g hg } R' := by
  obtain ⟨row, hrow, hrowR⟩ := Option.map_eq_some_iff.mp (agrees_ticket.mp hs)
  refine agrees_ticket.mpr ?_
  rw [ServiceTicketStore.findRow_update hkept, hrow]
  exact congrArg some (hR row hrowR)

theorem job_updated {g : RepairJob → RepairJob} {hg : ∀ r, key (g r) = key r}
    (hkept : ∀ r, (g r).deleted = r.deleted)
    (hR : ∀ r, r.technicianId = R.assigneeId → (g r).technicianId = R'.assigneeId)
    (hstatus : R'.status = R.status) (hprio : R'.priority = R.priority)
    (hs : Agrees ⟨.repairJob, id⟩ s R) :
    Agrees ⟨.repairJob, id⟩ { s with jobs := s.jobs.update id g hg } R' := by
  obtain ⟨row, hrow, htech, hnormal, hread⟩ := agrees_job.mp hs
  refine agrees_job.mpr ⟨g row, ?_, hR row htech, hprio.trans hnormal, fun rank => ?_⟩
  · rw [RepairJobStore.findRow_update hkept, hrow, Option.map_some]
  · exact (hread rank).trans hstatus.symm

theorem claim_saved {current : WarrantyClaim}
    (hw : WarrantyClaimStore.writeStatus current id status now s = .ok (b, u))
    (hs : Agrees ⟨.warrantyClaim, id⟩ s R) :
    Agrees ⟨.warrantyClaim, id⟩ u { R with status } := by
  obtain ⟨-, rfl⟩ := WarrantyClaimStore.writeStatus_cases hw
  refine claim_updated (fun _ => rfl) ?_ hs
  rintro r rfl
  rfl

theorem rma_saved {current : RmaRequest}
    (hw : RmaStore.writeStatus current id status now s = .ok (b, u))
    (hs : Agrees ⟨.rma, id⟩ s R) : Agrees ⟨.rma, id⟩ u { R with status } := by
  obtain ⟨-, rfl⟩ := RmaStore.writeStatus_cases hw
  refine rma_updated (fun _ => rfl) ?_ hs
  rintro r rfl
  rfl

theorem ticket_saved {current : ServiceTicket}
    (hw : ServiceTicketStore.writeStatus current id status now s = .ok (b, u))
    (hs : Agrees ⟨.serviceTicket, id⟩ s R) :
    Agrees ⟨.serviceTicket, id⟩ u { R with status } := by
  obtain ⟨-, rfl⟩ := ServiceTicketStore.writeStatus_cases hw
  refine ticket_updated (fun _ => rfl) ?_ hs
  rintro r rfl
  rfl

theorem job_saved {actorId : Option ℕ} (hlatest : Latest id now s)
    (hw : writeAudit ⟨.repairJob, id⟩ .caseStatus actorId (.status status) now s = .ok (b, u))
    (hs : Agrees ⟨.repairJob, id⟩ s R) : Agrees ⟨.repairJob, id⟩ u { R with status } := by
  obtain ⟨row, hrow, htech, hprio, -⟩ := agrees_job.mp hs
  refine agrees_job.mpr ⟨row, ?_, htech, hprio, fun rank => readCaseStatus_writeAudit hlatest hw⟩
  obtain ⟨-, rfl⟩ := writeAudit_eq_ok.mp hw
  exact hrow

theorem job_closed (hw : RepairJobStore.writeClose id status now s = .ok (b, u))
    (hs : Agrees ⟨.repairJob, id⟩ s R) : Agrees ⟨.repairJob, id⟩ u R := by
  obtain ⟨-, rfl⟩ := RepairJobStore.writeClose_cases hw
  exact job_updated (fun _ => rfl) (fun _ h => h) rfl rfl hs

theorem support_changed {snap c : CaseSnapshot} (hs : Agrees ⟨.support, id⟩ s R)
    (hsnap : s.memoryCases ⟨.support, id⟩ = some snap) (hR : snap.reference = R → c.reference = R')
    (hu : u = { s with
      memoryCases := Function.update s.memoryCases ⟨.support, id⟩ (some c) }) :
    Agrees ⟨.support, id⟩ u R' := by
  intro rank
  have hsnapR : snap.reference = R := hs.snapshot (show loaded _ rank s = some snap from hsnap)
  simp only [hu, loaded, Function.update_self, Option.map_some, hR hsnapR]

theorem change_settles {l : CareCall} {f : CareInput → CaseSnapshot → CaseSnapshot}
    (hR : ∀ i c, c.reference = R → (f i c).reference = R') (hs : Agrees ⟨.support, id⟩ s R) :
    Stored (Settles ⟨.support, id⟩ R R') (InMemoryCaseStore.change l ⟨.support, id⟩ f) s := by
  refine change_within (fun _ _ _ => trivial) (fun i snap u _ hsnap hu => ⟨trivial, ?_⟩) fun _ => .inl hs
  exact support_changed hs hsnap (hR i snap) hu

end Writes

/-! ### Statuses, assignments and priorities -/

theorem Agrees.isAssigned {ref : CaseRef} {s : CareState} {R : Reference} (hs : Agrees ref s R)
    (h : IsAssigned ref s) : R.status = .assigned := by
  obtain ⟨snap, hsnap, rfl⟩ := Option.map_eq_some_iff.mp (hs fun n => n)
  exact h _ snap hsnap

theorem Agrees.of_normal {ref : CaseRef} {s : CareState} {R : Reference}
    (hkind : ref.kind = .warrantyClaim ∨ ref.kind = .rma ∨ ref.kind = .repairJob)
    (hs : Agrees ref s R) : Agrees ref s { R with priority := normalPriority } := by
  obtain ⟨kind, id⟩ := ref
  obtain rfl | rfl | rfl : kind = .warrantyClaim ∨ kind = .rma ∨ kind = .repairJob := hkind
  · obtain ⟨row, hrow, rfl⟩ := Option.map_eq_some_iff.mp (agrees_claim.mp hs)
    exact hs
  · obtain ⟨row, hrow, rfl⟩ := Option.map_eq_some_iff.mp (agrees_rma.mp hs)
    exact hs
  · obtain ⟨row, hrow, htech, -, hstatus⟩ := agrees_job.mp hs
    exact agrees_job.mpr ⟨row, hrow, htech, rfl, hstatus⟩

section Stores

variable {actorId : Option ℕ} {s : CareState} {R : Reference}

theorem saveStatus_settles {ref : CaseRef} {status : CaseStatus} (hs : Agrees ref s R) :
    Stored (Settles ref R { R with status }) ((getStore ref.kind).saveStatus ref status actorId) s := by
  obtain ⟨kind, id⟩ := ref
  cases kind
  case warrantyClaim =>
    refine .queryBind (fun _ => trivial) (fun _ _ _ => ?_) fun _ _ _ => .inl hs
    refine .orThrowBind (fun current _ => ?_) fun _ => .inl hs
    refine writeBind hs (fun _ _ _ _ _ hw => claim_saved hw hs) fun _ => ?_
    exact (calls_claimHistory rfl).bind fun _ => .query rfl
  case rma =>
    refine .queryBind (fun _ => trivial) (fun _ _ _ => ?_) fun _ _ _ => .inl hs
    refine .orThrowBind (fun current _ => ?_) fun _ => .inl hs
    refine writeBind hs (fun _ _ _ _ _ hw => rma_saved hw hs) fun _ => ?_
    exact (calls_auditAppend (by simp) rfl).bind fun _ => .query rfl
  case serviceTicket =>
    refine .queryBind (fun _ => trivial) (fun _ _ _ => ?_) fun _ _ _ => .inl hs
    refine .orThrowBind (fun current _ => ?_) fun _ => .inl hs
    refine writeBind hs (fun _ _ _ _ _ hw => ticket_saved hw hs) fun _ => ?_
    exact (calls_ticketHistory rfl rfl).bind fun _ => .query rfl
  case repairJob =>
    refine idleBind_settles (calls_jobLoad rfl) hs fun found t ht => ?_
    refine .atomicBind (fun _ => trivial) (fun i b u ho hf hw => ?_) fun _ _ _ _ => .inl ht
    have hu := job_saved (ho rfl hf) hw ht
    refine ⟨trivial, .atomicBind (fun _ => trivial) (fun i b v _ _ hw => ?_) fun _ _ _ _ => .inr hu⟩
    refine ⟨trivial, idle_settles ?_ (job_closed hw hu)⟩
    exact (calls_auditAppend (by simp) rfl).bind fun _ => calls_jobLoad rfl
  case support =>
    refine change_settles ?_ hs
    rintro i c rfl
    rfl

theorem assign_settles {ref : CaseRef} {assigneeId : ℕ}
    (hkind : Persisted ref.kind (.assign assigneeId actorId)) (hs : Agrees ref s R) :
    Stored (Settles ref R { R with assigneeId := some assigneeId })
      ((getStore ref.kind).assign ref assigneeId actorId) s := by
  obtain ⟨kind, id⟩ := ref
  cases kind
  case warrantyClaim => exact hkind.elim
  case rma => exact hkind.elim
  case serviceTicket =>
    refine writeBind hs (fun i b u ho hf hw => ?_) fun _ =>
      (calls_auditAppend (by simp) rfl).bind fun _ => .query rfl
    obtain ⟨-, htech, rfl⟩ := ServiceTicketStore.writeAssign_cases hw
    have hassigned := hs.isAssigned (ho rfl hf htech)
    refine ticket_updated (fun _ => rfl) ?_ hs
    rintro r rfl
    exact congrArg (fun status => (⟨status, some assigneeId, _⟩ : Reference)) hassigned.symm
  case repairJob =>
    refine .atomicBind (fun _ => trivial) (fun i b u _ _ hw => ?_) fun _ _ _ _ => .inl hs
    obtain ⟨-, rfl⟩ := RepairJobStore.writeTechnician_cases hw
    have hu : Agrees ⟨.repairJob, id⟩
        { s with jobs := s.jobs.update id fun r => { r with technicianId := some assigneeId } }
        { R with assigneeId := some assigneeId } :=
      job_updated (fun _ => rfl) (fun _ _ => rfl) (Eq.refl R.status) (Eq.refl R.priority) hs
    refine ⟨trivial, .atomicBind (fun _ => trivial) (fun i b v ho hf hw => ?_) fun _ _ _ _ => .inr hu⟩
    obtain ⟨hassigned, hlatest⟩ := ho hf
    have hv := job_saved hlatest hw hu
    rw [← hu.isAssigned hassigned] at hv
    refine ⟨trivial, idle_settles ?_ hv⟩
    exact (calls_auditAppend (by simp) rfl).bind fun _ => calls_jobLoad rfl
  case support =>
    refine change_settles ?_ hs
    rintro i c rfl
    rfl

theorem setPriority_settles {ref : CaseRef} {priority : CasePriority}
    (hkind : Persisted ref.kind (.setPriority priority actorId)) (hs : Agrees ref s R) :
    Stored (Settles ref R { R with priority })
      ((getStore ref.kind).setPriority ref priority actorId) s := by
  obtain ⟨kind, id⟩ := ref
  cases kind
  case warrantyClaim =>
    obtain rfl : priority = normalPriority := hkind
    refine idle_settles ?_ (hs.of_normal (.inl rfl))
    exact (calls_auditAppend (by simp) rfl).bind fun _ => .queryBind rfl fun _ => .done _
  case rma =>
    obtain rfl : priority = normalPriority := hkind
    refine idle_settles ?_ (hs.of_normal (.inr (.inl rfl)))
    exact (calls_auditAppend (by simp) rfl).bind fun _ => .queryBind rfl fun _ => .done _
  case serviceTicket =>
    refine writeBind hs (fun i b u ho hf hw => ?_) fun _ => ?_
    · obtain ⟨-, rfl⟩ := ServiceTicketStore.writePriority_cases hw
      refine ticket_updated (fun _ => rfl) ?_ hs
      rintro r rfl
      exact congrArg (Reference.mk r.status r.technicianId) (clampPriority_val priority)
    · refine (calls_auditAppend (by simp) rfl).bind fun _ => .queryBind rfl fun _ => ?_
      exact .orThrowBind fun _ => .done _
  case repairJob =>
    obtain rfl : priority = normalPriority := hkind
    refine idle_settles ?_ (hs.of_normal (.inr (.inr rfl)))
    exact (calls_auditAppend (by simp) rfl).bind fun _ => (calls_jobLoad rfl).bind fun _ => .done _
  case support =>
    refine change_settles ?_ hs
    rintro i c rfl
    rfl

end Stores

/-! ### Requests of the manager -/

section Manager

variable {ref : CaseRef} {actorId : Option ℕ} {s : CareState} {R : Reference}

theorem transition_settles {target : CaseStatus} {reason : Option String} (hs : Agrees ref s R) :
    Stored (Settles ref R { R with status := target })
      (CaseManager.transition ref target actorId reason) s := by
  refine requireBind (fun _ _ _ => trivial) (fun _ snap _ hsnap => ?_) fun _ => .inl hs
  refine Settles.bind ?_ fun result => ?_
  · refine .ensureBind (fun _ => ?_) fun _ => .inl hs
    split
    next heq =>
      -- the case has the status already
      have hR : snap.status = R.status := congrArg Reference.status (hs.snapshot hsnap)
      refine .done ?_
      rw [← heq, hR]
      exact hs
    next =>
      refine Settles.bind (saveStatus_settles hs) fun result => ?_
      exact (calls_append rfl).bind fun _ => (calls_publish rfl).bind fun _ => .done _
  · exact (calls_settled rfl).bind fun snap => calls_announce.idle.bind fun _ => .done _

theorem managerAssign_settles {assigneeId : ℕ}
    (hkind : Persisted ref.kind (.assign assigneeId actorId)) (hs : Agrees ref s R) :
    Stored (Settles ref R { R with assigneeId := some assigneeId })
      (CaseManager.assign ref assigneeId actorId) s := by
  refine Settles.bind (assign_settles hkind hs) fun found => ?_
  exact (calls_append rfl).bind fun _ => .orThrowBind fun _ => (calls_publish rfl).bind fun _ => .done _

theorem managerSetPriority_settles {priority : CasePriority}
    (hkind : Persisted ref.kind (.setPriority priority actorId)) (hs : Agrees ref s R) :
    Stored (Settles ref R { R with priority }) (CaseManager.setPriority ref priority actorId) s :=
  Settles.bind (setPriority_settles hkind hs) fun _ => (calls_append rfl).bind fun _ => .done _

theorem calls_unpersisted {q : CaseRequest} (h : ¬ Persisted ref.kind q) : Calls idle (q.prog ref) := by
  obtain ⟨kind, id⟩ := ref
  cases q with
  | transition target actorId reason => exact absurd (by cases kind <;> trivial) h
  | assign assigneeId actorId =>
    have hstore : Calls idle ((getStore kind).assign ⟨kind, id⟩ assigneeId actorId) := by
      cases kind <;> first
        | exact absurd trivial h
        | exact (calls_auditAppend (by simp) rfl).bind fun _ => .query rfl
    refine Calls.bind (hstore.bind fun _ => ?_) fun _ => .done _
    exact (calls_append rfl).bind fun _ => .orThrowBind fun _ => (calls_publish rfl).bind fun _ => .done _
  | setPriority priority actorId =>
    have hstore : Calls idle ((getStore kind).setPriority ⟨kind, id⟩ priority actorId) := by
      cases kind
      case serviceTicket => exact absurd trivial h
      case support => exact absurd trivial h
      case repairJob =>
        exact (calls_auditAppend (by simp) rfl).bind fun _ => (calls_jobLoad rfl).bind fun _ => .done _
      all_goals
        exact (calls_auditAppend (by simp) rfl).bind fun _ => .queryBind rfl fun _ => .done _
    exact Calls.bind (hstore.bind fun _ => (calls_append rfl).bind fun _ => .done _) fun _ => .done _

end Manager

/-- Done and kept, if the store keeps such a request; or failed. -/
def Outcome (ref : CaseRef) (q : CaseRequest) (R : Reference) : Except Failure Unit → CareState → Prop
  | .ok _, t => Persisted ref.kind q → Agrees ref t (q.apply R)
  | .error _, t => Agrees ref t R ∨ Agrees ref t (q.apply R)

theorem request_settles {ref : CaseRef} (q : CaseRequest) {s : CareState} {R : Reference}
    (hs : Agrees ref s R) : Stored (Outcome ref q R) (q.prog ref) s := by
  by_cases hkind : Persisted ref.kind q
  · have hdone : Stored (Settles ref R (q.apply R)) (q.prog ref) s := by
      cases q with
      | transition target actorId reason =>
        exact Settles.bind (transition_settles hs) fun _ => .done _
      | assign assigneeId actorId =>
        exact Settles.bind (managerAssign_settles hkind hs) fun _ => .done _
      | setPriority priority actorId =>
        exact Settles.bind (managerSetPriority_settles hkind hs) fun _ => .done _
    refine hdone.mono fun r t h => ?_
    cases r with
    | ok u => exact fun _ => h
    | error e => exact h
  · refine (idle_agrees (calls_unpersisted hkind) hs).mono fun r t h => ?_
    cases r with
    | ok u => exact fun hk => absurd hk hkind
    | error e => exact .inl h

/-! ### Runs -/

/-- After every sequence of requests that the store keeps, a load answers what was written last. -/
theorem loads_last_written (ref : CaseRef) {s s' : CareState} {R : Reference}
    {calls : List (CaseRequest × Except Failure Unit)} (hs : Agrees ref s R)
    (hrun : Pool.History Faithful (CaseRequest.prog ref) s calls s')
    (hkept : ∀ q, (q, .ok ()) ∈ calls → Persisted ref.kind q) :
    ∃ R', Replay calls R R' ∧ ∀ found t,
      Pool.Ran anyCall ((getStore ref.kind).load ref) s' (.ok found) t →
        found.map CaseSnapshot.reference = some R' := by
  have hrest : (∀ q, (q, .ok ()) ∈ calls → Persisted ref.kind q) →
      ∃ R', Replay calls R R' ∧ Agrees ref s' R' := by
    refine hrun.invariant (P := fun calls t => (∀ q, (q, .ok ()) ∈ calls → Persisted ref.kind q) →
      ∃ R', Replay calls R R' ∧ Agrees ref t R') (fun _ => ⟨R, .nil R, hs⟩) ?_
    intro calls t q r u ih hr hkept
    obtain ⟨R', hreplay, ht⟩ := ih fun q hq => hkept q (List.mem_append_left _ hq)
    have hout : Outcome ref q R' r u := ran_alone (request_settles q ht) hr
    cases r with
    | ok _ =>
      refine ⟨_, hreplay.applied q _, hout (hkept q ?_)⟩
      exact List.mem_append_right _ List.mem_cons_self
    | error e =>
      rcases hout with hout | hout
      · exact ⟨R', hreplay.failed q e, hout⟩
      · exact ⟨_, hreplay.applied q _, hout⟩
  obtain ⟨R', hreplay, hs'⟩ := hrest hkept
  refine ⟨R', hreplay, fun found t hr => ?_⟩
  have hload : Within anyCall (fun _ _ _ _ => True) _ ((getStore ref.kind).load ref) s' :=
    load_within fun _ _ _ => trivial
  obtain ⟨-, hfound⟩ := ran_alone hload hr
  obtain ⟨i, -, rfl⟩ := hfound found rfl
  exact hs' i.rank

def requested (ref : CaseRef) (q : CaseRequest) (s : CareState) (n : ℕ) : CarePool Unit :=
  Pool.solo (q.prog ref) s (callsAt 0 n)

/-- A ticket that is found is assigned only when it is `assigned`; nothing is said of jobs. -/
def ticketFaithful (l : CareCall) (s : CareState) : Bool :=
  match l with
  | .assign ref _ => ref.kind == .serviceTicket &&
    (ServiceTicketStore.findRow ref.id s).all fun r => r.status == .assigned
  | .markAssigned _ => false
  | .saveStatus ref _ => ref.kind != .repairJob
  | _ => true

theorem faithful_of_ticket {l : CareCall} {i : CareInput} {s : CareState}
    (h : ticketFaithful l s = true) : Faithful l i s := by
  unfold ticketFaithful at h
  split at h
  · intro hkind _ _ rank snap hsnap
    obtain ⟨-, hrow⟩ := Bool.and_eq_true_iff.mp h
    simp only [loaded, hkind] at hsnap
    obtain ⟨row, hfound, rfl⟩ := Option.map_eq_some_iff.mp hsnap
    rw [hfound] at hrow
    exact beq_iff_eq.mp hrow
  · cases h
  · intro hkind
    simp [hkind] at h
  · unfold Faithful
    split <;> simp_all

theorem topPriority_valid : 1 ≤ 1 ∧ 1 ≤ 5 := by omega

/-- A ticket is assigned by its status and then to a technician, and gets the highest priority. -/
theorem ticket_loads_last_written :
    ∃ R', Replay [(.transition .assigned none none, .ok ()), (.assign 0 none, .ok ()),
        (.setPriority ⟨1, topPriority_valid⟩ none, .ok ())] ⟨.created, none, normalPriority⟩ R' ∧
      ∀ found t, Pool.Ran anyCall ((getStore .serviceTicket).load ⟨.serviceTicket, 0⟩)
        (requested ⟨.serviceTicket, 0⟩ (.setPriority ⟨1, topPriority_valid⟩ none)
          (requested ⟨.serviceTicket, 0⟩ (.assign 0 none)
            (requested ⟨.serviceTicket, 0⟩ (.transition .assigned none none) newTicket 10).state
            10).state 10).state (.ok found) t →
        found.map CaseSnapshot.reference = some R' := by
  have hran : ∀ (q : CaseRequest) s, Pool.SoloAdmits (fun l _ t => ticketFaithful l t = true)
      (q.prog ⟨.serviceTicket, 0⟩) s (callsAt 0 10) →
      (requested ⟨.serviceTicket, 0⟩ q s 10).result? = some (.ok ()) →
      Pool.Ran Faithful (q.prog ⟨.serviceTicket, 0⟩) s (.ok ())
        (requested ⟨.serviceTicket, 0⟩ q s 10).state :=
    fun q s ha hr => Pool.Ran.mono (fun _ _ _ => faithful_of_ticket) ⟨_, ha, hr, rfl⟩
  refine loads_last_written ⟨.serviceTicket, 0⟩ (agrees_ticket.mpr (by decide +kernel))
    (.snoc (.snoc (.snoc .nil (hran _ newTicket ?_ ?_)) (hran _ _ ?_ ?_)) (hran _ _ ?_ ?_))
    fun _ _ => trivial
  all_goals decide +kernel

theorem Replay.of_ok (calls : List (CaseRequest × Except Failure Unit)) {q : CaseRequest}
    {R R' : Reference} (h : Replay (calls ++ [(q, .ok ())]) R R') :
    ∃ R₁, Replay calls R R₁ ∧ R' = q.apply R₁ := by
  generalize hall : calls ++ [(q, .ok ())] = all at h
  cases h with
  | nil => simp at hall
  | applied q' r hrest =>
    obtain ⟨rfl, hlast⟩ := List.append_inj' hall rfl
    obtain ⟨rfl, -⟩ := Prod.mk.inj (List.singleton_injective hlast)
    exact ⟨_, hrest, rfl⟩
  | failed q' e hrest =>
    obtain ⟨-, hlast⟩ := List.append_inj' hall rfl
    cases hlast

/-- A claim that is assigned to a person is loaded without one. -/
theorem claim_assignee_lost :
    Agrees ⟨.warrantyClaim, 0⟩ submittedClaim ⟨.submitted, none, normalPriority⟩ ∧
    ∃ s' found t, Pool.History anyCall (CaseRequest.prog ⟨.warrantyClaim, 0⟩) submittedClaim
        [(.assign 7 none, .ok ())] s' ∧
      Pool.Ran anyCall ((getStore .warrantyClaim).load ⟨.warrantyClaim, 0⟩) s' (.ok found) t ∧
      ∀ R', Replay [(.assign 7 none, .ok ())] ⟨.submitted, none, normalPriority⟩ R' →
        found.map CaseSnapshot.reference ≠ some R' := by
  have hassigned : Pool.Ran anyCall (CaseRequest.prog ⟨.warrantyClaim, 0⟩ (.assign 7 none))
      submittedClaim (.ok ()) (requested ⟨.warrantyClaim, 0⟩ (.assign 7 none) submittedClaim 10).state :=
    ⟨callsAt 0 10, Pool.soloAdmits_of_forall fun _ _ _ _ => trivial, by decide +kernel, rfl⟩
  have hloaded : Pool.Ran anyCall ((getStore .warrantyClaim).load ⟨.warrantyClaim, 0⟩)
      (requested ⟨.warrantyClaim, 0⟩ (.assign 7 none) submittedClaim 10).state
      (.ok (some (WarrantyClaimStore.snapshot { id := 0, registrationId := 0, status := .submitted }))) _ :=
    ⟨callsAt 0 10, Pool.soloAdmits_of_forall fun _ _ _ _ => trivial, by decide +kernel, rfl⟩
  refine ⟨agrees_claim.mpr (by decide +kernel), _, _, _, .snoc .nil hassigned, hloaded, ?_⟩
  intro R' hreplay heq
  obtain ⟨R₁, -, rfl⟩ := Replay.of_ok [] hreplay
  have hassignee : (none : Option ℕ) = some 7 := congrArg Reference.assigneeId (Option.some.inj heq)
  cases hassignee

end ElectronicsCart.Cases
