import Mathlib.Algebra.Order.Field.Rat
import Mathlib.Tactic.Common

/-!
# Kinds of cases

`shared/case-management/case.types.ts`, `case-sla.ts` and the table `CASE_DEFINITIONS` of
`case.registry.ts`, with the graphs of `shared/state-machine/definitions`.  Times are in
milliseconds.
-/

namespace ElectronicsCart.Cases

inductive CaseKind where
  | warrantyClaim | rma | serviceTicket | repairJob | support
deriving DecidableEq, Repr

def CaseKind.text : CaseKind → String
  | .warrantyClaim => "warranty_claim"
  | .rma => "rma"
  | .serviceTicket => "service_ticket"
  | .repairJob => "repair_job"
  | .support => "support"

structure CaseRef where
  kind : CaseKind
  id : ℕ
deriving DecidableEq, Repr

/-- The statuses of all graphs; a request may name any other text. -/
inductive CaseStatus where
  | submitted | underReview | approved | rejected | inService | closed | cancelled
  | requested | inTransit | received | completed
  | created | assigned | diagnosis | waitingForParts | repairInProgress | testing | qualityCheck
  | readyForPickup | delivered
  | open | inProgress | onHold | escalated | resolved | repairing
  | other (text : String)
deriving DecidableEq, Repr

def CaseStatus.text : CaseStatus → String
  | .submitted => "submitted"
  | .underReview => "under_review"
  | .approved => "approved"
  | .rejected => "rejected"
  | .inService => "in_service"
  | .closed => "closed"
  | .cancelled => "cancelled"
  | .requested => "requested"
  | .inTransit => "in_transit"
  | .received => "received"
  | .completed => "completed"
  | .created => "created"
  | .assigned => "assigned"
  | .diagnosis => "diagnosis"
  | .waitingForParts => "waiting_for_parts"
  | .repairInProgress => "repair_in_progress"
  | .testing => "testing"
  | .qualityCheck => "quality_check"
  | .readyForPickup => "ready_for_pickup"
  | .delivered => "delivered"
  | .open => "open"
  | .inProgress => "in_progress"
  | .onHold => "on_hold"
  | .escalated => "escalated"
  | .resolved => "resolved"
  | .repairing => "repairing"
  | .other text => text

/-! ### State machines -/

structure StateMachineDefinition where
  name : String
  allowSameState : Bool
  transitions : List (CaseStatus × List CaseStatus)

namespace StateMachineDefinition

def allowedTargets (definition : StateMachineDefinition) (current : CaseStatus) :
    List CaseStatus :=
  (definition.transitions.lookup current).getD []

def canTransition (definition : StateMachineDefinition) (current target : CaseStatus) : Bool :=
  if current = target then definition.allowSameState
  else (definition.allowedTargets current).contains target

end StateMachineDefinition

def warrantyClaimStateMachine : StateMachineDefinition where
  name := "warranty_claim"
  allowSameState := true
  transitions :=
    [(.submitted, [.underReview, .cancelled]),
     (.underReview, [.approved, .rejected, .cancelled]),
     (.approved, [.inService, .cancelled]),
     (.rejected, []),
     (.inService, [.closed, .cancelled]),
     (.closed, []),
     (.cancelled, [])]

def rmaStateMachine : StateMachineDefinition where
  name := "rma"
  allowSameState := true
  transitions :=
    [(.requested, [.approved, .rejected, .cancelled]),
     (.approved, [.inTransit, .cancelled]),
     (.inTransit, [.received, .cancelled]),
     (.received, [.completed, .rejected]),
     (.completed, []),
     (.rejected, []),
     (.cancelled, [])]

def serviceTicketStateMachine : StateMachineDefinition where
  name := "service_ticket"
  allowSameState := true
  transitions :=
    [(.created, [.assigned, .cancelled]),
     (.assigned, [.diagnosis, .cancelled]),
     (.diagnosis, [.waitingForParts, .repairInProgress, .cancelled]),
     (.waitingForParts, [.repairInProgress, .cancelled]),
     (.repairInProgress, [.testing, .cancelled]),
     (.testing, [.qualityCheck, .repairInProgress, .cancelled]),
     (.qualityCheck, [.readyForPickup, .repairInProgress, .cancelled]),
     (.readyForPickup, [.delivered, .cancelled]),
     (.delivered, [.closed]),
     (.closed, []),
     (.cancelled, [])]

def supportCaseStateMachine : StateMachineDefinition where
  name := "support_case"
  allowSameState := true
  transitions :=
    [(.open, [.assigned, .escalated, .cancelled]),
     (.assigned, [.inProgress, .escalated, .cancelled, .onHold]),
     (.inProgress, [.onHold, .resolved, .escalated, .cancelled]),
     (.onHold, [.inProgress, .escalated, .cancelled]),
     (.escalated, [.assigned, .inProgress, .resolved, .cancelled]),
     (.resolved, [.closed, .inProgress]),
     (.closed, []),
     (.cancelled, [])]

/-! ### Service levels -/

abbrev CasePriority := { p : ℕ // 1 ≤ p ∧ p ≤ 5 }

def normalPriority : CasePriority := ⟨3, by omega⟩

structure CaseSlaPolicy where
  responseMinutes : ℕ
  resolveMinutes : ℕ
  priorityMultiplier : List (CasePriority × ℚ) := []

def defaultMultiplier (priority : CasePriority) : ℚ :=
  match priority.val with
  | 1 => 2
  | 2 => 3 / 2
  | 3 => 1
  | 4 => 3 / 4
  | 5 => 1 / 2
  | _ => 1

def CaseSlaPolicy.multiplier (sla : CaseSlaPolicy) (priority : CasePriority) : ℚ :=
  (sla.priorityMultiplier.lookup priority).getD (defaultMultiplier priority)

/-- `Math.round`. -/
def mathRound (x : ℚ) : ℤ := (x + 1 / 2).floor

def slaMinutes (minutes : ℕ) (priority : CasePriority) (sla : CaseSlaPolicy) : ℕ :=
  (max 1 (mathRound (minutes / sla.multiplier priority))).toNat

def computeDueAt (openedAt : ℕ) (priority : CasePriority) (sla : CaseSlaPolicy) : ℕ :=
  openedAt + slaMinutes sla.resolveMinutes priority sla * 60000

def computeResponseDueAt (openedAt : ℕ) (priority : CasePriority) (sla : CaseSlaPolicy) : ℕ :=
  openedAt + slaMinutes sla.responseMinutes priority sla * 60000

inductive RepairOutcome where
  | pending | repaired | irreparable | replaced | customerDeclined
deriving DecidableEq, Repr

/-- `number` is the time that the number of a case is made of, `outcome` the metadata of a
repair job. -/
structure CaseSnapshot where
  kind : CaseKind
  id : ℕ
  number : Option ℕ := none
  status : CaseStatus
  assigneeId : Option ℕ := none
  priority : CasePriority
  openedAt : ℕ
  dueAt : Option ℕ := none
  escalatedAt : Option ℕ := none
  closedAt : Option ℕ := none
  outcome : Option RepairOutcome := none
deriving DecidableEq, Repr

def isResponseBreached (snap : CaseSnapshot) (sla : CaseSlaPolicy) (now : ℕ) : Bool :=
  snap.assigneeId.isNone && decide (computeResponseDueAt snap.openedAt snap.priority sla < now)

def isResolveBreached (snap : CaseSnapshot) (sla : CaseSlaPolicy) (terminalStatuses : List CaseStatus)
    (now : ℕ) : Bool :=
  !(terminalStatuses.contains snap.status) && snap.closedAt.isNone &&
    decide (snap.dueAt.getD (computeDueAt snap.openedAt snap.priority sla) < now)

/-! ### The registry -/

structure CaseEscalationRule where
  unassignedPastResponse : Bool := false
  unresolvedPastResolve : Bool := false
  maxPriority : Option ℕ := none
  escalateToStatus : Option CaseStatus := none

structure CaseDefinition where
  stateMachine : StateMachineDefinition
  sla : CaseSlaPolicy
  escalation : CaseEscalationRule
  terminalStatuses : List CaseStatus

def DEFAULT_SLA : CaseSlaPolicy where
  responseMinutes := 4 * 60
  resolveMinutes := 3 * 24 * 60
  priorityMultiplier :=
    [(⟨1, by omega⟩, 2), (⟨2, by omega⟩, 3 / 2), (⟨3, by omega⟩, 1), (⟨4, by omega⟩, 3 / 4),
     (⟨5, by omega⟩, 1 / 2)]

def CASE_DEFINITIONS : CaseKind → CaseDefinition
  | .warrantyClaim =>
    { stateMachine := warrantyClaimStateMachine
      sla := { DEFAULT_SLA with resolveMinutes := 7 * 24 * 60 }
      escalation :=
        { unassignedPastResponse := true, unresolvedPastResolve := true, maxPriority := some 2 }
      terminalStatuses := [.closed, .cancelled, .rejected] }
  | .rma =>
    { stateMachine := rmaStateMachine
      sla := { DEFAULT_SLA with resolveMinutes := 5 * 24 * 60 }
      escalation := { unassignedPastResponse := true, unresolvedPastResolve := true }
      terminalStatuses := [.completed, .rejected, .cancelled] }
  | .serviceTicket =>
    { stateMachine := serviceTicketStateMachine
      sla := DEFAULT_SLA
      escalation :=
        { unassignedPastResponse := true, unresolvedPastResolve := true, maxPriority := some 2 }
      terminalStatuses := [.closed, .cancelled] }
  | .repairJob =>
    { stateMachine := supportCaseStateMachine
      sla := { DEFAULT_SLA with resolveMinutes := 2 * 24 * 60 }
      escalation := { unresolvedPastResolve := true }
      terminalStatuses := [.closed, .cancelled] }
  | .support =>
    { stateMachine := supportCaseStateMachine
      sla := { responseMinutes := 60, resolveMinutes := 24 * 60 }
      escalation :=
        { unassignedPastResponse := true, unresolvedPastResolve := true, maxPriority := some 2
          escalateToStatus := some .escalated }
      terminalStatuses := [.closed, .cancelled] }

/-- `shouldEscalate` of `CaseManager.evaluateSla`. -/
def shouldEscalate (kind : CaseKind) (snap : CaseSnapshot) (now : ℕ) : Bool :=
  let d := CASE_DEFINITIONS kind
  d.escalation.unassignedPastResponse && isResponseBreached snap d.sla now ||
    d.escalation.unresolvedPastResolve && isResolveBreached snap d.sla d.terminalStatuses now ||
    d.escalation.maxPriority.any (fun p => decide (snap.priority.val ≤ p)) && snap.assigneeId.isNone

/-! ### Timelines -/

inductive TimelineType where
  | created | statusChanged | assigned | priorityChanged | note | attachment | escalated | slaBreach
  | closed
deriving DecidableEq, Repr

structure CaseAttachmentMeta where
  mediaFileId : Option ℕ := none
  label : Option String := none
  docType : Option String := none
  url : Option String := none
deriving DecidableEq, Repr

inductive EntryMetadata where
  | dueAt (at' : Option ℕ)
  | internal (b : Bool)
  | attachment (file : CaseAttachmentMeta)
  | assignee (id : ℕ)
  | priority (p : CasePriority)
deriving DecidableEq, Repr

/-- Without a `stamp`, the entry is made with `new Date()`. -/
structure CaseTimelineEntry where
  stamp : Option ℕ := none
  type : TimelineType
  actorId : Option ℕ := none
  message : Option String := none
  fromStatus : Option CaseStatus := none
  toStatus : Option CaseStatus := none
  metadata : Option EntryMetadata := none
deriving DecidableEq, Repr

structure CaseNoteInput where
  body : String
  actorId : Option ℕ := none
  internal : Option Bool := none
deriving DecidableEq, Repr

/-! ### Edges -/

def Edge (definition : StateMachineDefinition) (current target : CaseStatus) : Prop :=
  target = current ∨ target ∈ definition.allowedTargets current

instance (definition : StateMachineDefinition) (current target : CaseStatus) :
    Decidable (Edge definition current target) :=
  inferInstanceAs (Decidable (_ ∨ _))

theorem Edge.of_canTransition {definition : StateMachineDefinition} {current target : CaseStatus}
    (h : definition.canTransition current target = true) : Edge definition current target := by
  unfold StateMachineDefinition.canTransition at h
  split at h
  next heq => exact .inl heq.symm
  next => exact .inr (by simpa using h)

theorem terminal_stuck {kind : CaseKind} {current : CaseStatus}
    (h : current ∈ (CASE_DEFINITIONS kind).terminalStatuses) :
    (CASE_DEFINITIONS kind).stateMachine.allowedTargets current = [] := by
  cases kind <;> simp only [CASE_DEFINITIONS, List.mem_cons, List.not_mem_nil, or_false] at h <;>
    rcases h with rfl | rfl | rfl <;> rfl

theorem Edge.terminal {kind : CaseKind} {current target : CaseStatus}
    (h : Edge (CASE_DEFINITIONS kind).stateMachine current target)
    (hterm : current ∈ (CASE_DEFINITIONS kind).terminalStatuses) : target = current := by
  rcases h with h | h
  · exact h
  · rw [terminal_stuck hterm] at h
    cases h

end ElectronicsCart.Cases
