import ElectronicsCart.Core.Environment
import Mathlib.Data.List.Infix
import Mathlib.Data.Rat.Floor

/-!
# The Razorpay provider

`refund` and `createOrder` of `payments/providers/razorpay.provider.ts` with `request` and
`fetchWithTimeout` of `shared/http/fetch-with-timeout.ts`.  A `POST` that fails is sent again,
although the gateway may have executed it; no key tells the gateway that the two are one.
-/

namespace ElectronicsCart.Razorpay

/-! ### HTTP -/

/-- The fields that the provider reads of a response; a body that is no JSON has none. -/
structure GatewayJson where
  id : Option String := none
  status : Option String := none
  description : Option String := none
deriving DecidableEq

structure HttpResponse where
  status : ℕ
  /-- `none` if reading the text fails -/
  body : Option GatewayJson
deriving DecidableEq

inductive HttpAnswer where
  | response (res : HttpResponse)
  /-- the network, or the abort after `timeoutMs` -/
  | failure (message : String)
deriving DecidableEq

/-- What the caller sees of one request, and whether the gateway executed it. -/
structure HttpOutcome where
  answer : HttpAnswer
  executed : Bool
deriving DecidableEq

/-- `res.status >= 500 || res.status === 429`, or an error. -/
def HttpAnswer.retried : HttpAnswer → Bool
  | .response res => decide (500 ≤ res.status) || res.status == 429
  | .failure _ => true

inductive PostTarget where
  | orders
  | refund (gatewayPaymentId : String)
deriving DecidableEq

structure Post where
  target : PostTarget
  amount : ℤ
  currency : Option String := none
  receipt : Option String := none
  notes : List (String × String) := []
deriving DecidableEq

abbrev Gateway := List Post

def Gateway.receive (g : Gateway) (post : Post) (executed : Bool) : Gateway :=
  if executed then g ++ [post] else g

/-- The loop from the given attempt on; `left` attempts are left. -/
def fetchLoop (post : Post) (outcomes : ℕ → HttpOutcome) :
    ℕ → ℕ → Option String → Gateway → Except Failure HttpResponse × Gateway
  | 0, _, lastError, g => (.error (.error (lastError.getD "fetch failed: undefined")), g)
  | left + 1, attempt, lastError, g =>
    let g := g.receive post (outcomes attempt).executed
    match (outcomes attempt).answer with
    | .response res =>
      if (HttpAnswer.response res).retried = true ∧ 0 < left then
        fetchLoop post outcomes left (attempt + 1) lastError g
      else (.ok res, g)
    | .failure message => fetchLoop post outcomes left (attempt + 1) (some message) g

def fetchWithTimeout (post : Post) (outcomes : ℕ → HttpOutcome) (retries : ℕ) (g : Gateway) :
    Except Failure HttpResponse × Gateway :=
  fetchLoop post outcomes (max 1 (retries + 1)) 0 none g

/-! ### The provider -/

structure RazorpayConfig where
  mock : Bool
  serverCapture : Bool
deriving DecidableEq

def RazorpayConfig.settleLocally (cfg : RazorpayConfig) : Bool := cfg.mock || cfg.serverCapture

/-- `Math.round(Number(amount) * 100)` in exact arithmetic. -/
def toPaise (amount : ℚ) : ℤ := ⌊amount * 100 + 1 / 2⌋

def readResponse (res : HttpResponse) : Except Failure GatewayJson :=
  match res.body with
  | none => .error (.error "terminated")
  | some json =>
    if 200 ≤ res.status ∧ res.status ≤ 299 then .ok json
    else .error (.gateway (HttpAnswer.response res).retried
      (json.description.getD ("Razorpay " ++ toString res.status)))

def request (post : Post) (outcomes : ℕ → HttpOutcome) (g : Gateway) :
    Except Failure GatewayJson × Gateway :=
  let sent := fetchWithTimeout post outcomes 2 g
  (sent.1.bind readResponse, sent.2)

structure RefundGatewayInput where
  gatewayPaymentId : String
  amount : ℚ
  currency : String
  notes : List (String × String) := []
deriving DecidableEq

inductive RefundGatewayStatus where
  | processed | failed | pending
deriving DecidableEq

structure RefundGatewayResult where
  gatewayRefundId : String
  status : RefundGatewayStatus
deriving DecidableEq

def refundStatus (status : String) : RefundGatewayStatus :=
  if status = "processed" ∨ status = "completed" then .processed
  else if status = "failed" then .failed
  else .pending

/-- `token` is made of a random UUID. -/
def refund (cfg : RazorpayConfig) (token : String) (input : RefundGatewayInput)
    (outcomes : ℕ → HttpOutcome) (g : Gateway) : Except Failure RefundGatewayResult × Gateway :=
  if cfg.settleLocally then (.ok ⟨"rfnd_mock_" ++ token, .processed⟩, g)
  else
    let sent := request { target := .refund input.gatewayPaymentId, amount := toPaise input.amount
                          notes := input.notes } outcomes g
    (sent.1.map fun raw => ⟨raw.id.getD "undefined", refundStatus (raw.status.getD "undefined")⟩,
      sent.2)

structure CreateGatewayOrderInput where
  amount : ℚ
  currency : String
  receipt : String
  notes : List (String × String) := []
deriving DecidableEq

/-- `/authentication failed/i` -/
def authenticationFailed (message : String) : Bool :=
  decide ("authentication failed".toList <:+: message.toList.map Char.toLower)

/-- An order that the gateway does not know stands in when the keys are wrong. -/
def createOrder (cfg : RazorpayConfig) (token : String) (input : CreateGatewayOrderInput)
    (outcomes : ℕ → HttpOutcome) (g : Gateway) : Except Failure String × Gateway :=
  if cfg.settleLocally then (.ok ("order_mock_" ++ token), g)
  else
    let sent := request { target := .orders, amount := toPaise input.amount
                          currency := some input.currency
                          receipt := some (String.ofList (input.receipt.toList.take 40))
                          notes := input.notes } outcomes g
    match sent.1 with
    | .ok raw => (.ok (raw.id.getD "undefined"), sent.2)
    | .error e =>
      if authenticationFailed e.message then (.ok ("order_mock_" ++ token), sent.2)
      else (.error e, sent.2)

/-! ### What is sent -/

def sent (outcomes : ℕ → HttpOutcome) : ℕ → ℕ → List HttpOutcome
  | 0, _ => []
  | left + 1, attempt => outcomes attempt ::
    if (outcomes attempt).answer.retried then sent outcomes left (attempt + 1) else []

def effects (outcomes : ℕ → HttpOutcome) (left attempt : ℕ) : ℕ :=
  (sent outcomes left attempt).countP HttpOutcome.executed

section Loop

variable {outcomes : ℕ → HttpOutcome} {left attempt : ℕ}

theorem length_receive (g : Gateway) (post : Post) (executed : Bool) :
    (g.receive post executed).length = g.length + executed.toNat := by
  cases executed <;> simp [Gateway.receive]

theorem effects_succ : effects outcomes (left + 1) attempt = (outcomes attempt).executed.toNat +
    if (outcomes attempt).answer.retried then effects outcomes left (attempt + 1) else 0 := by
  unfold effects
  rw [sent, List.countP_cons]
  cases (outcomes attempt).executed <;> cases (outcomes attempt).answer.retried <;> simp
  omega

theorem length_fetchLoop (post : Post) (lastError : Option String) (g : Gateway) :
    (fetchLoop post outcomes left attempt lastError g).2.length =
      g.length + effects outcomes left attempt := by
  induction left generalizing attempt lastError g with
  | zero => rfl
  | succ left ih =>
    have hzero : ∀ n, effects outcomes 0 n = 0 := fun _ => rfl
    rw [effects_succ, fetchLoop]
    cases ha : (outcomes attempt).answer with
    | response res =>
      dsimp only
      split
      next h => rw [ih, length_receive, if_pos h.1]; omega
      next h =>
        rw [length_receive]
        cases hr : (HttpAnswer.response res).retried with
        | false => simp
        | true =>
          -- the last attempt is not retried
          have hleft : left = 0 := by
            by_contra hne
            exact h ⟨hr, Nat.pos_of_ne_zero hne⟩
          rw [hleft, hzero]
          simp
    | failure message =>
      have hfail : (HttpAnswer.failure message).retried = true := rfl
      dsimp only
      rw [ih, length_receive, if_pos hfail]
      omega

theorem mem_sent {o : HttpOutcome} : o ∈ sent outcomes left attempt ↔
    ∃ j, attempt ≤ j ∧ j < attempt + left ∧
      (∀ k, attempt ≤ k → k < j → (outcomes k).answer.retried = true) ∧ o = outcomes j := by
  induction left generalizing attempt with
  | zero =>
    simp only [sent, List.not_mem_nil, false_iff, not_exists]
    rintro j ⟨h1, h2, -⟩
    omega
  | succ left ih =>
    rw [sent, List.mem_cons]
    constructor
    · rintro (rfl | hmem)
      · exact ⟨attempt, le_refl _, by omega, fun k h1 h2 => by omega, rfl⟩
      · split at hmem
        next hr =>
          obtain ⟨j, h1, h2, hall, rfl⟩ := ih.mp hmem
          refine ⟨j, by omega, by omega, fun k hk hkj => ?_, rfl⟩
          rcases Nat.eq_or_lt_of_le hk with rfl | hlt
          · exact hr
          · exact hall k hlt hkj
        next => cases hmem
    · rintro ⟨j, h1, h2, hall, rfl⟩
      rcases Nat.eq_or_lt_of_le h1 with rfl | hlt
      · exact .inl rfl
      · rw [if_pos (hall attempt (le_refl _) hlt)]
        exact .inr (ih.mpr ⟨j, hlt, by omega, fun k hk hkj => hall k (by omega) hkj, rfl⟩)

/-- Among the attempts from the given one on, no two that are sent take effect. -/
def OnceFrom (outcomes : ℕ → HttpOutcome) (left attempt : ℕ) : Prop :=
  ∀ i j, attempt ≤ i → i < j → j < attempt + left →
    (∀ k, attempt ≤ k → k < j → (outcomes k).answer.retried = true) →
    (outcomes i).executed = true → (outcomes j).executed = false

theorem effects_le_one_iff : effects outcomes left attempt ≤ 1 ↔ OnceFrom outcomes left attempt := by
  induction left generalizing attempt with
  | zero =>
    refine iff_of_true (Nat.zero_le _) fun i j h1 h2 h3 => ?_
    omega
  | succ left ih =>
    have hfirst : effects outcomes (left + 1) attempt ≤ 1 ↔
        ((outcomes attempt).answer.retried = true → effects outcomes left (attempt + 1) ≤ 1 ∧
          ((outcomes attempt).executed = true → effects outcomes left (attempt + 1) = 0)) := by
      rw [effects_succ]
      generalize effects outcomes left (attempt + 1) = n
      cases (outcomes attempt).executed <;> cases (outcomes attempt).answer.retried <;> simp
      omega
    have hnone : effects outcomes left (attempt + 1) = 0 ↔ ∀ j, attempt + 1 ≤ j →
        j < attempt + 1 + left → (∀ k, attempt + 1 ≤ k → k < j → (outcomes k).answer.retried = true) →
          (outcomes j).executed = false := by
      unfold effects
      rw [List.countP_eq_zero]
      constructor
      · intro h j h1 h2 hall
        simpa using h _ (mem_sent.mpr ⟨j, h1, h2, hall, rfl⟩)
      · intro h o ho
        obtain ⟨j, h1, h2, hall, rfl⟩ := mem_sent.mp ho
        simpa using h j h1 h2 hall
    rw [hfirst, ih, hnone]
    constructor
    · intro h i j hi hij hj hall he
      obtain ⟨hrest, hzero⟩ := h (hall attempt (le_refl _) (by omega))
      rcases Nat.eq_or_lt_of_le hi with rfl | hlt
      · exact hzero he j (by omega) (by omega) fun k hk hkj => hall k (by omega) hkj
      · exact hrest i j hlt hij (by omega) (fun k hk hkj => hall k (by omega) hkj) he
    · intro h hr
      have hstep : ∀ j, (∀ k, attempt + 1 ≤ k → k < j → (outcomes k).answer.retried = true) →
          ∀ k, attempt ≤ k → k < j → (outcomes k).answer.retried = true := by
        intro j hall k hk hkj
        rcases Nat.eq_or_lt_of_le hk with rfl | hlt
        · exact hr
        · exact hall k hlt hkj
      refine ⟨fun i j hi hij hj hall he => ?_, fun he j h1 h2 hall => ?_⟩
      · exact h i j (by omega) hij (by omega) (hstep j hall) he
      · exact h attempt j (le_refl _) (by omega) (by omega) (hstep j hall) he

end Loop

/-- No request that is sent again after a failure took effect before one that took effect too. -/
def Once (outcomes : ℕ → HttpOutcome) : Prop :=
  ∀ i j, i < j → j < 3 → (∀ k < j, (outcomes k).answer.retried = true) →
    (outcomes i).executed = true → (outcomes j).executed = false

theorem request_once_iff (post : Post) (outcomes : ℕ → HttpOutcome) (g : Gateway) :
    (request post outcomes g).2.length ≤ g.length + 1 ↔ Once outcomes := by
  have hlen : (request post outcomes g).2.length = g.length + effects outcomes 3 0 :=
    length_fetchLoop post none g
  have honce : OnceFrom outcomes 3 0 ↔ Once outcomes := by
    unfold OnceFrom Once
    simp only [Nat.zero_le, true_implies, zero_add]
  rw [hlen, ← honce, ← effects_le_one_iff]
  omega

/-- One call creates at most one refund, or order, exactly when nothing was sent or no two of the
attempts took effect. -/
theorem created_once_iff (cfg : RazorpayConfig) (token : String) (outcomes : ℕ → HttpOutcome)
    (g : Gateway) :
    (∀ input, (refund cfg token input outcomes g).2.length ≤ g.length + 1 ↔
      cfg.settleLocally = true ∨ Once outcomes) ∧
    ∀ input, (createOrder cfg token input outcomes g).2.length ≤ g.length + 1 ↔
      cfg.settleLocally = true ∨ Once outcomes := by
  constructor
  · intro input
    unfold refund
    split
    next h => simp [h]
    next h =>
      rw [or_iff_right h]
      exact request_once_iff _ outcomes g
  · intro input
    unfold createOrder
    split
    next h => simp [h]
    next h =>
      rw [or_iff_right h]
      dsimp only
      split
      · exact request_once_iff _ outcomes g
      · split
        · exact request_once_iff _ outcomes g
        · exact request_once_iff _ outcomes g

/-- The first request is aborted after the gateway executed it, and the next one succeeds. -/
def abortedOnce : ℕ → HttpOutcome
  | 0 => ⟨.failure "This operation was aborted", true⟩
  | _ => ⟨.response ⟨200, some { id := some "rfnd_2", status := some "processed" }⟩, true⟩

/-- Two refunds of one call that returns the second one. -/
theorem aborted_refund_doubled :
    (refund ⟨false, false⟩ "" { gatewayPaymentId := "pay_1", amount := 100, currency := "INR" }
      abortedOnce []).1 = .ok ⟨"rfnd_2", .processed⟩ ∧
    (refund ⟨false, false⟩ "" { gatewayPaymentId := "pay_1", amount := 100, currency := "INR" }
      abortedOnce []).2.length = 2 := by
  decide +kernel

end ElectronicsCart.Razorpay
