import ElectronicsCart.Cases.Effects
import ElectronicsCart.Core.Alone

/-!
# Requests on a case, one after another

What a `load` finds, and sequences of requests that the manager gets for one case, each finished
before the next.
-/

namespace ElectronicsCart.Cases

open Interleaving Relational

def loaded (ref : CaseRef) (rank : ℕ → ℕ) (s : CareState) : Option CaseSnapshot :=
  match ref.kind with
  | .warrantyClaim => (WarrantyClaimStore.findRow ref.id s).map WarrantyClaimStore.snapshot
  | .rma => (RmaStore.findRow ref.id s).map RmaStore.snapshot
  | .serviceTicket => (ServiceTicketStore.findRow ref.id s).map fun row =>
    ServiceTicketStore.snapshot (row.serviceSlaId.bind s.slas.find?) row
  | .repairJob => (RepairJobStore.findRow ref.id s).map fun row =>
    RepairJobStore.snapshot row (RepairJobStore.readCaseStatus ref.id rank s)
  | .support => s.memoryCases ref

theorem WarrantyClaimStore.findRow_update {id : ℕ} {s : CareState} {g : WarrantyClaim → WarrantyClaim}
    {hg : ∀ r, key (g r) = key r} (hkept : ∀ r, (g r).deleted = r.deleted) :
    findRow id { s with claims := s.claims.update id g hg } = (findRow id s).map g :=
  Table.filter_find?_update hg fun r => by rw [hkept]

theorem RmaStore.findRow_update {id : ℕ} {s : CareState} {g : RmaRequest → RmaRequest}
    {hg : ∀ r, key (g r) = key r} (hkept : ∀ r, (g r).deleted = r.deleted) :
    findRow id { s with rmas := s.rmas.update id g hg } = (findRow id s).map g :=
  Table.filter_find?_update hg fun r => by rw [hkept]

theorem ServiceTicketStore.findRow_update {id : ℕ} {s : CareState} {g : ServiceTicket → ServiceTicket}
    {hg : ∀ r, key (g r) = key r} (hkept : ∀ r, (g r).deleted = r.deleted) :
    findRow id { s with tickets := s.tickets.update id g hg } = (findRow id s).map g :=
  Table.filter_find?_update hg fun r => by rw [hkept]

theorem RepairJobStore.findRow_update {id : ℕ} {s : CareState} {g : RepairJob → RepairJob}
    {hg : ∀ r, key (g r) = key r} (hkept : ∀ r, (g r).deleted = r.deleted) :
    findRow id { s with jobs := s.jobs.update id g hg } = (findRow id s).map g :=
  Table.filter_find?_update hg fun r => by rw [hkept]

structure SameLoads (s s' : CareState) : Prop extends SameCases s s' where
  slas : s'.slas = s.slas
  memoryCases : s'.memoryCases = s.memoryCases

theorem SameLoads.refl (s : CareState) : SameLoads s s := ⟨.refl s, rfl, rfl⟩

theorem SameLoads.trans {a b c : CareState} (h : SameLoads a b) (h' : SameLoads b c) :
    SameLoads a c :=
  ⟨h.toSameCases.trans h'.toSameCases, h'.slas.trans h.slas, h'.memoryCases.trans h.memoryCases⟩

theorem readCaseStatus_of_rows {id : ℕ} {rank : ℕ → ℕ} {s s' : CareState}
    (h : statusRows id s' = statusRows id s) :
    RepairJobStore.readCaseStatus id rank s' = RepairJobStore.readCaseStatus id rank s := by
  unfold statusRows at h
  unfold RepairJobStore.readCaseStatus auditRows
  rw [h]

theorem readCaseStatus_of_nil {id : ℕ} {rank : ℕ → ℕ} {s : CareState} (h : statusRows id s = []) :
    RepairJobStore.readCaseStatus id rank s = .open := by
  unfold statusRows at h
  simp [RepairJobStore.readCaseStatus, auditRows, h]

theorem loaded_same {ref : CaseRef} {rank : ℕ → ℕ} {s s' : CareState} (h : SameLoads s s') :
    loaded ref rank s' = loaded ref rank s := by
  obtain ⟨kind, id⟩ := ref
  cases kind
  case warrantyClaim => simp only [loaded, WarrantyClaimStore.findRow, h.claims]
  case rma => simp only [loaded, RmaStore.findRow, h.rmas]
  case serviceTicket => simp only [loaded, ServiceTicketStore.findRow, h.tickets, h.slas]
  case repairJob =>
    simp only [loaded, RepairJobStore.findRow, h.jobs, readCaseStatus_of_rows (h.statusRows id)]
  case support => simp only [loaded, h.memoryCases]

theorem Effect.idle {l : CareCall} {i : CareInput} {s s' : CareState} (hl : idle l = true)
    (h : Effect l i s s') : SameLoads s s' := by
  obtain ⟨hquiet, hplain⟩ := Bool.and_eq_true_iff.mp hl
  have hsame := h.same hquiet
  rcases h with rfl | ⟨-, h⟩
  · exact .refl _
  unfold Writes at h
  split at h <;> try first | (cases hquiet; done) | (cases hplain; done)
  · obtain ⟨m, rfl⟩ := h
    exact ⟨hsame, rfl, rfl⟩
  · obtain ⟨m, rfl⟩ := h
    exact ⟨hsame, rfl, rfl⟩
  · obtain ⟨-, row, hrow, -, rfl⟩ := h
    exact ⟨hsame, rfl, rfl⟩
  · obtain ⟨entry, -, ⟨-, hw⟩ | ⟨-, rfl⟩⟩ := h
    · obtain ⟨-, rfl⟩ := writeAudit_eq_ok.mp hw
      exact ⟨hsame, rfl, rfl⟩
    · exact ⟨hsame, rfl, rfl⟩
  · subst h
    exact ⟨hsame, rfl, rfl⟩
  · obtain ⟨action, actorId, status, hw⟩ := h
    obtain ⟨-, rfl⟩ := writeServiceAudit_cases hw
    exact ⟨hsame, rfl, rfl⟩
  · exact h.elim

section Rules

variable {ok : CareCall → CareInput → CareState → Prop}
  {G : CareCall → CareInput → CareState → CareState → Prop} {α β : Type}
  {Q : Except Failure α → CareState → Prop} {s : CareState}

theorem load_within {ref : CaseRef} (hG : ∀ l i t, G l i t t) :
    Within ok G (fun r t => t = s ∧ ∀ found, r = .ok found →
      ∃ i, ok (.load ref) i s ∧ found = loaded ref i.rank s) ((getStore ref.kind).load ref) s := by
  obtain ⟨kind, id⟩ := ref
  -- a read by itself, which may fail
  have hread : ∀ {f : CareState → Option CaseSnapshot},
      (∀ rank t, f t = loaded ⟨kind, id⟩ rank t) →
      Within ok G (fun r t => t = s ∧ ∀ found, r = .ok found →
        ∃ i, ok (.load ⟨kind, id⟩) i s ∧ found = loaded ⟨kind, id⟩ i.rank s)
        (query (.load ⟨kind, id⟩) fun _ t => f t) s := by
    intro f hf
    refine .query (fun _ => hG ..) (fun i ho _ => ⟨rfl, ?_⟩) fun _ _ _ => ⟨rfl, ?_⟩
    · rintro found ⟨⟩
      exact ⟨i, ho, hf i.rank s⟩
    · rintro found ⟨⟩
  cases kind
  case warrantyClaim => exact hread fun _ _ => rfl
  case rma => exact hread fun _ _ => rfl
  case serviceTicket => exact hread fun _ _ => rfl
  case repairJob =>
    refine .queryBind (fun _ => hG ..) (fun j hj _ => ?_) fun _ _ _ => ⟨rfl, ?_⟩
    · cases hrow : RepairJobStore.findRow id s with
      | none =>
        refine .done ⟨rfl, ?_⟩
        rintro found ⟨⟩
        exact ⟨j, hj, by simp [loaded, hrow]⟩
      | some row =>
        refine .queryBind (fun _ => hG ..) (fun i ho _ => .done ⟨rfl, ?_⟩) fun _ _ _ => ⟨rfl, ?_⟩
        · rintro found ⟨⟩
          exact ⟨i, ho, by simp [loaded, hrow]⟩
        · rintro found ⟨⟩
    · rintro found ⟨⟩
  case support =>
    refine .call fun i ho => ⟨hG .., rfl, ?_⟩
    rintro found ⟨⟩
    exact ⟨i, ho, rfl⟩

theorem requireBind {ref : CaseRef} {k : CaseSnapshot → CareProg α} (hG : ∀ l i t, G l i t t)
    (hk : ∀ i snap, ok (.load ref) i s → loaded ref i.rank s = some snap → Within ok G Q (k snap) s)
    (herr : ∀ e, Q (.error e) s) : Within ok G Q ((CaseManager.require ref).bind k) s := by
  show Within ok G Q ((Prog.bind _ _).bind k) s
  rw [Prog.bind_assoc]
  refine (load_within hG).bind ?_ ?_
  · rintro found t ⟨rfl, hfound⟩
    obtain ⟨i, ho, rfl⟩ := hfound found rfl
    exact .orThrowBind (fun snap hsnap => hk i snap ho hsnap) fun _ => herr _
  · rintro e t ⟨rfl, -⟩
    exact herr e

theorem publishBind {event : CaseEvent} {k : Unit → CareProg α}
    (hG : ∀ i, G (.publish event) i s { s with published := s.published ++ [event] })
    (hk : Within ok G Q (k ()) { s with published := s.published ++ [event] }) :
    Within ok G Q ((publish event).bind k) s :=
  .callBind fun i _ => ⟨hG i, fun _ _ => hk, fun _ he => nomatch he⟩

theorem idle_within {p : CareProg α} (hG : ∀ l i t t', SameLoads t t' → G l i t t')
    (hp : Calls idle p) : Within ok G (fun _ t => SameLoads s t) p s := by
  have hsame : p.Every (fun _ _ _ => True) fun _ _ t t' => SameLoads t t' :=
    Prog.Every.mono (fun _ _ _ _ _ h => h.2.idle h.1) hp
  refine .of_alone (hsame.mono fun l i t t' _ h => hG l i t t' h) ?_
  exact Alone.of_every (hsame.mono fun _ _ _ _ _ h hs => hs.trans h) (.refl s)

theorem idleBind {p : CareProg β} {k : β → CareProg α}
    (hG : ∀ l i t t', SameLoads t t' → G l i t t') (hp : Calls idle p)
    (hk : ∀ b t, SameLoads s t → Within ok G Q (k b) t)
    (herr : ∀ e t, SameLoads s t → Q (.error e) t) : Within ok G Q (p.bind k) s :=
  (idle_within hG hp).bind hk herr

theorem change_within {l : CareCall} {ref : CaseRef} {f : CareInput → CaseSnapshot → CaseSnapshot}
    {Q : Except Failure (Option CaseSnapshot) → CareState → Prop} (hG : ∀ l i t, G l i t t)
    (h : ∀ i snap u, ok l i s → s.memoryCases ref = some snap →
      u = { s with memoryCases := Function.update s.memoryCases ref (some (f i snap)) } →
      G l i s u ∧ Q (.ok (some (f i snap))) u)
    (herr : ∀ e, Q (.error e) s) : Within ok G Q (InMemoryCaseStore.change l ref f) s := by
  refine .call fun i ho => ?_
  cases hc : s.memoryCases ref with
  | none => exact ⟨hG .., herr _⟩
  | some snap => exact h i snap _ ho hc rfl

theorem changeBind {l : CareCall} {ref : CaseRef} {f : CareInput → CaseSnapshot → CaseSnapshot}
    {k : Option CaseSnapshot → CareProg α} (hG : ∀ l i t, G l i t t)
    (hk : ∀ i snap u, ok l i s → s.memoryCases ref = some snap →
      u = { s with memoryCases := Function.update s.memoryCases ref (some (f i snap)) } →
      G l i s u ∧ Within ok G Q (k (some (f i snap))) u)
    (herr : ∀ e, Q (.error e) s) :
    Within ok G Q ((InMemoryCaseStore.change l ref f).bind k) s := by
  have hchange : Within ok G (fun r t => (∀ o, r = .ok o → Within ok G Q (k o) t) ∧
      ∀ e, r = .error e → Q (.error e) t) (InMemoryCaseStore.change l ref f) s := by
    refine change_within hG (fun i snap u ho hc hu => ?_) fun e => ⟨?_, fun _ _ => herr _⟩
    · obtain ⟨hg, hk⟩ := hk i snap u ho hc hu
      refine ⟨hg, ?_, ?_⟩
      · rintro o ⟨⟩
        exact hk
      · rintro e ⟨⟩
    · rintro o ⟨⟩
  exact hchange.bind (fun o t h => h.1 o rfl) fun e t h => h.2 e rfl

end Rules

/-! ### Requests -/

inductive CaseRequest where
  | transition (target : CaseStatus) (actorId : Option ℕ) (reason : Option String)
  | assign (assigneeId : ℕ) (actorId : Option ℕ)
  | setPriority (priority : CasePriority) (actorId : Option ℕ)
deriving DecidableEq

def CaseRequest.prog (ref : CaseRef) : CaseRequest → CareProg Unit
  | .transition target actorId reason => do
    let _ ← CaseManager.transition ref target actorId reason
  | .assign assigneeId actorId => do
    let _ ← CaseManager.assign ref assigneeId actorId
  | .setPriority priority actorId => do
    let _ ← CaseManager.setPriority ref priority actorId

theorem CaseRequest.calls_prog (ref : CaseRef) (r : CaseRequest) : Calls plain (r.prog ref) := by
  cases r with
  | transition target actorId reason => exact calls_transition.bind fun _ => .done _
  | assign assigneeId actorId => exact calls_managerAssign.bind fun _ => .done _
  | setPriority priority actorId => exact calls_managerSetPriority.bind fun _ => .done _

/-! ### Small cases -/

abbrev anyCall (_ : CareCall) (_ : CareInput) (_ : CareState) : Prop := True

def callsAt (now n : ℕ) : List CareInput := List.replicate n { now, reply := () }

/-- The turns of a schedule, with calls that are answered at `now`. -/
def careTurns (now : ℕ) (threads : List ℕ) : List (ℕ × CareInput) :=
  threads.map fun j => (j, { now, reply := () })

/-- An open support case without an assignee. -/
def openSupport : CareState where
  memoryCases := fun ref => if ref = ⟨.support, 0⟩ then
    some { kind := .support, id := 0, status := .open, priority := normalPriority, openedAt := 0 }
  else none

def submittedClaim : CareState where
  claims := Table.empty.insert fun n => { id := n, registrationId := 0, status := .submitted }

def newTicket : CareState where
  tickets := Table.empty.insert fun n => { id := n, status := .created }
  technicians := Table.empty.insert fun n => { id := n }

end ElectronicsCart.Cases
