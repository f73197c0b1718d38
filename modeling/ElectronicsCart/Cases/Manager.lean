import ElectronicsCart.Cases.Stores
import ElectronicsCart.Core.Values

/-!
# The case manager

`StateMachineEngine.transition` and `shared/case-management/case-manager.service.ts`.  No caller
uses the hooks `before` and `after`.
-/

namespace ElectronicsCart.Cases

open Interleaving

namespace StateMachineEngine

def assertTransition (definition : StateMachineDefinition) (current target : CaseStatus) :
    CareProg Unit :=
  Prog.ensure (definition.canTransition current target = true)
    (.throwApp .conflict
      ("Invalid " ++ definition.name ++ " transition " ++ current.text ++ " → " ++ target.text) 409)

/-- A request for the status that the entity has is skipped. -/
def transition {α : Type} (definition : StateMachineDefinition) (entityId : ℕ)
    (current target : CaseStatus) (apply : CareProg α) (audit : CareProg Unit) :
    CareProg (Option α) := do
  assertTransition definition current target
  if current = target then return none
  else do
    let result ← apply
    audit
    publish (.stateTransitioned definition.name entityId current target)
    return some result

end StateMachineEngine

namespace CaseManager

/-- `private require`, and `get`. -/
def require (ref : CaseRef) : CareProg CaseSnapshot := do
  let found ← (getStore ref.kind).load ref
  Prog.orThrow (.throwApp .notFound "Case not found" 404) found

def nullStatus : Failure := .error "Cannot read properties of null (reading 'status')"

/-- The entry that `transition` appends. -/
def changeEntry (current target : CaseStatus) (actorId : Option ℕ) (reason : Option String) :
    CaseTimelineEntry where
  type := .statusChanged
  actorId := actorId
  fromStatus := some current
  toStatus := some target
  message := reason

/-- The snapshot that `saveStatus` returned, or one more read when there is none. -/
def settled (ref : CaseRef) : Option CaseSnapshot → CareProg CaseSnapshot
  | some snap => pure snap
  | none => require ref

def announce (ref : CaseRef) (current target : CaseStatus) (snap : CaseSnapshot) : CareProg Unit := do
  publish (.statusChanged ref snap.status current target snap.assigneeId snap.priority)
  if (CASE_DEFINITIONS ref.kind).terminalStatuses.contains target then
    publish (.closed ref target snap.assigneeId snap.priority)
  else pure ()

def transition (ref : CaseRef) (target : CaseStatus) (actorId : Option ℕ) (reason : Option String) :
    CareProg CaseSnapshot := do
  let current ← require ref
  let result ← StateMachineEngine.transition (CASE_DEFINITIONS ref.kind).stateMachine ref.id
    current.status target ((getStore ref.kind).saveStatus ref target actorId)
    ((getStore ref.kind).appendTimeline ref (changeEntry current.status target actorId reason))
  let snap ← settled ref (result.bind id)
  announce ref current.status target snap
  return snap

def assign (ref : CaseRef) (assigneeId : ℕ) (actorId : Option ℕ) : CareProg CaseSnapshot := do
  let found ← (getStore ref.kind).assign ref assigneeId actorId
  (getStore ref.kind).appendTimeline ref
    { type := .assigned, actorId, message := some ("Assigned to " ++ toString assigneeId) }
  let snap ← Prog.orThrow nullStatus found
  publish (.assigned ref snap.status assigneeId snap.priority)
  return snap

def setPriority (ref : CaseRef) (priority : CasePriority) (actorId : Option ℕ) :
    CareProg (Option CaseSnapshot) := do
  let snap ← (getStore ref.kind).setPriority ref priority actorId
  (getStore ref.kind).appendTimeline ref
    { type := .priorityChanged, actorId, message := some ("Priority → P" ++ toString priority.val)
      metadata := some (.dueAt (snap.bind CaseSnapshot.dueAt)) }
  return snap

def addNote (ref : CaseRef) (note : CaseNoteInput) : CareProg Unit := do
  let _ ← require ref
  (getStore ref.kind).addNote ref note
  (getStore ref.kind).appendTimeline ref
    { type := .note, actorId := note.actorId, message := some (jsSlice 280 note.body)
      metadata := some (.internal (note.internal.getD false)) }
  let found ← (getStore ref.kind).load ref
  let snap ← Prog.orThrow nullStatus found
  publish (.noteAdded ref snap.status (jsSlice 120 note.body))

def addAttachment (ref : CaseRef) (file : CaseAttachmentMeta) (actorId : Option ℕ) :
    CareProg Unit := do
  let _ ← require ref
  (getStore ref.kind).addAttachment ref file
  (getStore ref.kind).appendTimeline ref
    { type := .attachment, actorId
      message := some ((file.label.or file.docType).getD "attachment")
      metadata := some (.attachment file) }

def timeline (ref : CaseRef) : CareProg (List CaseTimelineEntry) := do
  let _ ← require ref
  (getStore ref.kind).listTimeline ref

/-! ### Service levels -/

structure SlaOptions where
  actorId : Option ℕ := none
  now : Option ℕ := none
  autoEscalate : Option Bool := none
deriving DecidableEq, Repr

structure SlaResult where
  responseBreached : Bool
  resolveBreached : Bool
  escalated : Bool
  snapshot : CaseSnapshot
deriving DecidableEq, Repr

/-- `opts?.now ?? new Date()`. -/
def clock (ref : CaseRef) (now : Option ℕ) : CareProg ℕ :=
  Prog.call (.clock ref now) fun i s => (.ok (now.getD i.now), s)

def escalationReason (responseBreached resolveBreached : Bool) : EscalationReason :=
  if responseBreached then .responseSla
  else if resolveBreached then .resolveSla
  else .priorityUnassigned

/-- Without `markEscalated` only the copy in hand is marked. -/
def markEscalated (ref : CaseRef) (snap : CaseSnapshot) (now : ℕ) : CareProg (Option CaseSnapshot) :=
  match (getStore ref.kind).markEscalated with
  | some mark => mark ref now
  | none => pure (some { snap with escalatedAt := some now })

def publishIf (c : Bool) (event : CaseEvent) : CareProg Unit :=
  if c then publish event else pure ()

/-- The transition to `escalateToStatus`. -/
def afterEscalation (ref : CaseRef) (opts : SlaOptions) (snap : CaseSnapshot)
    (reason : EscalationReason) : CareProg CaseSnapshot :=
  match (CASE_DEFINITIONS ref.kind).escalation.escalateToStatus with
  | none => pure snap
  | some target =>
    if opts.autoEscalate ≠ some false ∧
        (CASE_DEFINITIONS ref.kind).stateMachine.canTransition snap.status target = true then
      transition ref target opts.actorId (some ("Escalation: " ++ reason.text))
    else pure snap

/-- The body of `if (shouldEscalate && !snap.escalatedAt)`. -/
def escalate (ref : CaseRef) (opts : SlaOptions) (snap : CaseSnapshot) (now : ℕ)
    (reason : EscalationReason) : CareProg CaseSnapshot := do
  let marked ← markEscalated ref snap now
  let snap ← Prog.orThrow nullStatus marked
  (getStore ref.kind).appendTimeline ref
    { stamp := some now, type := .escalated, actorId := opts.actorId
      message := some reason.text }
  publish (.escalated ref snap.status reason snap.priority snap.assigneeId)
  afterEscalation ref opts snap reason

def evaluateSla (ref : CaseRef) (opts : SlaOptions) : CareProg SlaResult := do
  let snap ← require ref
  let now ← clock ref opts.now
  let d := CASE_DEFINITIONS ref.kind
  let responseBreached := isResponseBreached snap d.sla now
  let resolveBreached := isResolveBreached snap d.sla d.terminalStatuses now
  publishIf responseBreached (.slaBreached ref snap.status .response snap.priority)
  publishIf resolveBreached (.slaBreached ref snap.status .resolve snap.priority)
  if shouldEscalate ref.kind snap now = true ∧ snap.escalatedAt = none then do
    let last ← escalate ref opts snap now (escalationReason responseBreached resolveBreached)
    return ⟨responseBreached, resolveBreached, true, last⟩
  else return ⟨responseBreached, resolveBreached, false, snap⟩

/-! ### Opening -/

def openSupportCase (id : ℕ) (priority : Option CasePriority) (assigneeId : Option ℕ) :
    CareProg CaseSnapshot := do
  let snap ← InMemoryCaseStore.openCase ⟨.support, id⟩ priority assigneeId .open
  publish (.opened ⟨.support, id⟩ snap.status snap.assigneeId snap.priority)
  return snap

def recordOpened (ref : CaseRef) (snap : CaseSnapshot) : CareProg Unit := do
  (getStore ref.kind).appendTimeline ref
    { stamp := some snap.openedAt, type := .created, toStatus := some snap.status
      message := some "Case opened" }
  publish (.opened ref snap.status snap.assigneeId snap.priority)

end CaseManager

end ElectronicsCart.Cases
