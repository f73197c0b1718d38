import ElectronicsCart.Auth.Refresh
import ElectronicsCart.Core.Values

/-!
# One-time passwords

`OtpService` of `modules/auth/services/otp.service.ts` over `OtpRepository`.  The hash of a code is
a parameter; the digits of a code come with the input of the call that draws them.
-/

namespace ElectronicsCart.Auth

open Interleaving Relational

inductive OtpChannel where
  | sms | email | whatsapp
deriving DecidableEq, Repr

inductive OtpPurpose where
  | login | register | resetPassword | verifyEmail | verifyMobile | twoFactor
deriving DecidableEq, Repr

structure Otp where
  id : ℕ
  userId : Option ℕ := none
  destination : String
  channel : OtpChannel
  purpose : OtpPurpose
  codeHash : String
  attempts : ℕ := 0
  maxAttempts : ℕ := 5
  expiresAt : ℕ
  consumedAt : Option ℕ := none
  status : RecordStatus := .active
  createdAt : ℕ
  deleted : Bool := false
deriving DecidableEq, Repr

instance : Keyed Otp := ⟨Otp.id⟩

@[simp] theorem key_otp (o : Otp) : key o = o.id := rfl

structure OtpState where
  users : List ℕ := []
  otps : Table Otp := Table.empty

/-- The answer of `randomInt`. -/
structure OtpReply where
  random : ℕ := 0
deriving DecidableEq, Repr

abbrev OtpInput := Input OtpReply

/-- The calls.  A read carries the code that its caller holds. -/
inductive OtpCall where
  | generate
  | create (destination : String) (purpose : OtpPurpose)
  | findLatestActive (destination : String) (purpose : OtpPurpose) (code : String)
  | incrementAttempts (id : ℕ)
  | consume (id : ℕ)
deriving DecidableEq, Repr

abbrev OtpProg := Prog OtpCall OtpInput OtpState Failure

/-! ### `OtpRepository` -/

namespace OtpRepository

/-- `orderBy: { created_at: 'desc' }`, the first row. -/
def newest : List Otp → Option Otp
  | [] => none
  | a :: rest =>
    match newest rest with
    | none => some a
    | some b => if b.createdAt ≤ a.createdAt then some a else some b

def isActive (destination : String) (purpose : OtpPurpose) (now : ℕ) (o : Otp) : Bool :=
  o.destination == destination && o.purpose == purpose && o.consumedAt.isNone &&
    o.status == .active && decide (now < o.expiresAt) && !o.deleted

def findLatestActive (destination : String) (purpose : OtpPurpose) (now : ℕ) (s : OtpState) :
    Option Otp :=
  newest (s.otps.rows.filter (isActive destination purpose now))

/-- `create`; the database stamps the row. -/
def create (row : ℕ → Otp) (hrow : ∀ n, key (row n) = n) (s : OtpState) :
    Except Failure (Otp × OtpState) := do
  let o := row s.otps.next
  check (o.userId.all s.users.contains) "otps_user_id_fkey"
  return (o, { s with otps := s.otps.insert row hrow })

def consume (id now : ℕ) (s : OtpState) : Except Failure (Unit × OtpState) := do
  check (s.otps.find? id).isSome "P2025"
  return ((), { s with otps := s.otps.update id fun o =>
    { o with consumedAt := some now, status := .inactive } })

def incrementAttempts (id : ℕ) (s : OtpState) : Except Failure (Unit × OtpState) := do
  check (s.otps.find? id).isSome "P2025"
  return ((), { s with otps := s.otps.update id fun o => { o with attempts := o.attempts + 1 } })

end OtpRepository

/-! ### `OtpService` -/

namespace OtpService

structure IssueOtpInput where
  destination : String
  channel : OtpChannel
  purpose : OtpPurpose
  userId : Option ℕ := none
deriving DecidableEq, Repr

structure IssueOtpResult where
  code : String
  expiresAt : ℕ
  otpId : ℕ
deriving DecidableEq, Repr

structure VerifyOtpInput where
  destination : String
  purpose : OtpPurpose
  code : String
deriving DecidableEq, Repr

structure VerifyOtpResult where
  userId : Option ℕ
  otpId : ℕ
deriving DecidableEq, Repr

/-- `String(randomInt(100000, 999999))`, which leaves the upper bound out. -/
def generateCode (random : ℕ) : String := toString (100000 + random % 899999)

def otpTtl : ℕ := 600000

def otpExpired : Failure := .throwApp .authOtpExpired "OTP expired or not found" 400
def otpMaxAttempts : Failure := .throwApp .authOtpMaxAttempts "Maximum OTP attempts exceeded" 400
def otpInvalid : Failure := .throwApp .authOtpInvalid "Invalid OTP code" 400

section Service

variable (sha256 toLowerCase : String → String)

def normalizeDestination (destination : String) (channel : OtpChannel) : String :=
  if channel = .email then jsTrim (toLowerCase destination) else jsTrim destination

/-- A destination with an at sign is taken for an address, and not trimmed. -/
def normalized (destination : String) : String :=
  if destination.toList.contains '@' then toLowerCase destination else jsTrim destination

def newOtp (r : IssueOtpInput) (code : String) (expiresAt now n : ℕ) : Otp where
  id := n
  userId := r.userId
  destination := normalizeDestination toLowerCase r.destination r.channel
  channel := r.channel
  purpose := r.purpose
  codeHash := sha256 code
  expiresAt := expiresAt
  createdAt := now

def store (r : IssueOtpInput) (code : String) (expiresAt : ℕ) : OtpProg IssueOtpResult := do
  let otp ← atomic
    (.create (normalizeDestination toLowerCase r.destination r.channel) r.purpose) fun i s =>
      OtpRepository.create (newOtp sha256 toLowerCase r code expiresAt i.now) (fun _ => rfl) s
  pure ⟨code, expiresAt, otp.id⟩

def issueOtp (r : IssueOtpInput) : OtpProg IssueOtpResult := do
  let drawn ← Prog.call .generate fun i s =>
    (.ok (generateCode i.reply.random, i.now + otpTtl), s)
  store sha256 toLowerCase r drawn.1 drawn.2

/-- A wrong code costs an attempt. -/
def reject (id : ℕ) : OtpProg VerifyOtpResult := do
  atomic (.incrementAttempts id) fun _ s => OtpRepository.incrementAttempts id s
  throw otpInvalid

def accept (otp : Otp) : OtpProg VerifyOtpResult := do
  atomic (.consume otp.id) fun i s => OtpRepository.consume otp.id i.now s
  pure ⟨otp.userId, otp.id⟩

def verifyOtp (r : VerifyOtpInput) : OtpProg VerifyOtpResult := do
  let destination := normalized toLowerCase r.destination
  let found ← query (.findLatestActive destination r.purpose r.code) fun i s =>
    OtpRepository.findLatestActive destination r.purpose i.now s
  let otp ← Prog.orThrow otpExpired found
  if otp.maxAttempts ≤ otp.attempts then throw otpMaxAttempts
  else if sha256 r.code = otp.codeHash then accept otp
  else reject otp.id

end Service

end OtpService

/-! ### Requests -/

inductive OtpRequest where
  | issue (r : OtpService.IssueOtpInput)
  | verify (r : OtpService.VerifyOtpInput)
deriving DecidableEq, Repr

inductive OtpAnswer where
  | issued (r : OtpService.IssueOtpResult)
  | verified (r : OtpService.VerifyOtpResult)
deriving DecidableEq, Repr

def OtpRequest.prog (sha256 toLowerCase : String → String) : OtpRequest → OtpProg OtpAnswer
  | .issue r => (OtpService.issueOtp sha256 toLowerCase r).bind fun a => pure (.issued a)
  | .verify r => (OtpService.verifyOtp sha256 toLowerCase r).bind fun a => pure (.verified a)

abbrev OtpPool := Pool OtpCall OtpInput OtpState Failure OtpAnswer

def otpPool (sha256 toLowerCase : String → String) (requests : List OtpRequest) (s : OtpState) :
    OtpPool :=
  ⟨requests.map (OtpRequest.prog sha256 toLowerCase), s⟩

end ElectronicsCart.Auth
