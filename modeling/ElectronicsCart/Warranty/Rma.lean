import ElectronicsCart.Orders.Checkout
import ElectronicsCart.Payments.Flows

/-!
# Refunds of returns

`RmaService.requestRefund` of `modules/warranty/services/rma.service.ts`: a workflow that
refunds a payment and then moves the return to `completed` through `CaseManager.transition`,
`rma.store.ts` and the table of `rma.definition.ts`.  The first step has no compensation.
-/

namespace ElectronicsCart.Warranty

open Interleaving Relational Payments

/-- `rmaStateMachine.transitions`. -/
def transitions : RmaStatus → List RmaStatus
  | .requested => [.approved, .rejected, .cancelled]
  | .approved => [.inTransit, .cancelled]
  | .inTransit => [.received, .cancelled]
  | .received => [.completed, .rejected]
  | .completed => []
  | .rejected => []
  | .cancelled => []

/-- `canTransition` with `allowSameState`. -/
def canTransition (current target : RmaStatus) : Bool :=
  decide (current = target) || (transitions current).contains target

def assertTransition (current target : RmaStatus) : ShopProg Unit :=
  Prog.ensure (canTransition current target = true)
    (.throwApp .conflict ("Invalid rma transition " ++ current.text ++ " → " ++ target.text) 409)

/-! ### `RmaStore` -/

def load (id : ℕ) : ShopProg (Option RmaRequest) :=
  query (.rma (.loadCase id)) fun _ s => (s.rmaRequests.find? id).filter fun r => !r.deleted

def requireCase (id : ℕ) : ShopProg RmaRequest := do
  let found ← load id
  Prog.orThrow (.throwApp .notFound "Case not found" 404) found

def appendTimeline (id actorId : ℕ) (fromStatus toStatus : RmaStatus) (message : Option String) :
    ShopProg Unit :=
  atomic (.rma (.appendTimeline id)) fun _ s => .ok ((), { s with
    serviceAudits := s.serviceAudits.insert fun n =>
      ⟨n, "case.status_changed", actorId, id, some fromStatus, some toStatus, message⟩ })

/-- The columns that `saveStatus` sets. -/
def closeAs (status : RmaStatus) (now : ℕ) (r : RmaRequest) : RmaRequest := { r with
  status := status
  completedAt := if status = .completed ∨ status = .rejected ∨ status = .cancelled then some now
    else r.completedAt }

@[simp] theorem key_closeAs (status : RmaStatus) (now : ℕ) (r : RmaRequest) :
    key (closeAs status now r) = key r := rfl

def writeStatus (id : ℕ) (status : RmaStatus) (now : ℕ) (s : Shop) : Except Failure (Unit × Shop) := do
  let _ ← existing s.rmaRequests id
  return ((), { s with
    rmaRequests := s.rmaRequests.update id (closeAs status now) (key_closeAs status now) })

def saveStatus (id actorId : ℕ) (status : RmaStatus) : ShopProg (Option RmaRequest) := do
  let found ← query (.rma (.loadCase id)) fun _ s => s.rmaRequests.find? id
  let current ← Prog.orThrow (.constraint "P2025") found
  atomic (.rma (.saveStatus id status)) fun i s => writeStatus id status i.now s
  appendTimeline id actorId current.status status none
  load id

/-- `CaseManager.transition`; a case that has the status already is left alone. -/
def transition (id actorId : ℕ) (target : RmaStatus) (reason : String) : ShopProg Unit := do
  let current ← requireCase id
  assertTransition current.status target
  if current.status = target then do
    let _ ← requireCase id
  else do
    let saved ← saveStatus id actorId target
    appendTimeline id actorId current.status target (some reason)
    match saved with
    | some _ => pure ()
    | none => do
      let _ ← requireCase id

/-! ### The workflow -/

structure RmaRefundDto where
  paymentId : ℕ
  amount : ℚ
deriving DecidableEq, Repr

structure RmaCloseCtx where
  rmaId : ℕ
  actorId : ℕ
  paymentId : ℕ
  refundAmount : ℚ
deriving DecidableEq, Repr

def refundViaPayments (token : ℕ) (ctx : RmaCloseCtx) : ShopProg (RmaCloseCtx → RmaCloseCtx) := do
  refund token ctx.paymentId ctx.actorId { amount := ctx.refundAmount } true
  pure id

/-- `rma` is the row read before the workflow. -/
def completeRma (rma : RmaRequest) (ctx : RmaCloseCtx) : ShopProg (RmaCloseCtx → RmaCloseCtx) :=
  if rma.status ≠ .completed then do
    transition ctx.rmaId ctx.actorId .completed "Refund processed"
    pure id
  else pure id

def refundDefinition (token : ℕ) (rma : RmaRequest) :
    WorkflowDefinition ShopCall ShopReply Shop RmaCloseCtx where
  name := "rma.refund"
  timeoutMs := 30000
  steps :=
    [{ name := "refund_via_payments", execute := refundViaPayments token },
     { name := "complete_rma", execute := completeRma rma }]

def eligible (status : RmaStatus) : Bool :=
  [RmaStatus.received, .completed, .approved].contains status

/-- `repo.audit`. -/
def auditRefund (rmaId actorId : ℕ) : ShopProg Unit :=
  atomic (.rma (.audit rmaId)) fun _ s => .ok ((), { s with
    serviceAudits := s.serviceAudits.insert fun n =>
      { id := n, action := "rma.refund", actorId, rmaId } })

def requestRefund (token actorId rmaId : ℕ) (dto : RmaRefundDto) : ShopProg Unit := do
  let found ← query (.rma (.findRma rmaId)) fun _ s =>
    (s.rmaRequests.find? rmaId).filter fun r => !r.deleted
  let rma ← Prog.orThrow (.throwApp .notFound "RMA not found" 404) found
  Prog.ensure (eligible rma.status = true)
    (.throwApp .conflict "RMA not eligible for refund" 409)
  let result ← SagaCoordinator.run (refundDefinition token rma)
    ⟨rmaId, actorId, dto.paymentId, dto.amount⟩
  Prog.ensure (result.status = .completed)
    (.throwApp .conflict (result.error.getD "RMA refund saga failed") 409)
  auditRefund rmaId actorId

end ElectronicsCart.Warranty
