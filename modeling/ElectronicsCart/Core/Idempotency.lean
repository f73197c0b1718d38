import ElectronicsCart.Core.Environment
import ElectronicsCart.Core.Values
import ElectronicsCart.Lib.Stages
import ElectronicsCart.Lib.Volatile

/-!
# Idempotent requests

`shared/idempotency`: the interceptor that answers a repeated request from a record in Redis, and
the service that keeps the record.  The handler is a call of its own; what it answers, a status code
and a body as JSON, comes with its input.
-/

namespace ElectronicsCart.Idempotency

open Interleaving Volatile

variable {β : Type}

structure IdempotentOptions where
  required : Bool := true
  ttlSeconds : ℕ := 86400
deriving DecidableEq, Repr

/-- What the interceptor reads of a request: the path of its route, its URL, the JSON text of its
body, its user and its `Idempotency-Key` header. -/
structure Request where
  method : String
  path : String
  url : String
  body : Option String := none
  userId : Option String := none
  header : Option String := none
deriving DecidableEq, Repr

structure Response (β : Type) where
  statusCode : ℕ
  body : Option β
  statusCode_ne : statusCode ≠ 0
deriving DecidableEq

inductive RecordStatus where
  | processing | completed
deriving DecidableEq, Repr

structure IdempotencyRecord (β : Type) where
  status : RecordStatus
  fingerprint : String
  statusCode : ℕ
  body : Option β
deriving DecidableEq

structure Handled (β : Type) where
  fingerprint : String
  outcome : Except Failure (Response β)

def Handled.succeeded (h : Handled β) : Bool := h.outcome.isOk

/-- Redis, and what the handler has done, newest first. -/
structure Server (β : Type) where
  records : Store String (IdempotencyRecord β) := fun _ => none
  handled : List (Handled β) := []

inductive Call where
  | get (key : String)
  | begin (key : String)
  | handle (fingerprint : String)
  | complete (key : String)
  | clear (key : String)
deriving DecidableEq, Repr

abbrev RequestProg (β α : Type) :=
  Prog Call (Input (Except Failure (Response β))) (Server β) Failure α

inductive PrepareResult (β : Type) where
  | passthrough
  | replay (statusCode : ℕ) (body : Option β)
  | execute (key fingerprint : String) (ttlSeconds : ℕ)

/-! ### `IdempotencyService` -/

namespace IdempotencyService

def buildKey (scope key : String) : String := "idempotency:" ++ scope ++ ":" ++ key

def fingerprint (sha256 : String → String) (method path : String) (body : Option String) : String :=
  sha256 ("\x7b\"method\":" ++ JsValue.quote method ++ ",\"path\":" ++ JsValue.quote path ++
    ",\"body\":" ++ body.getD "null" ++ "\x7d")

/-- Fail-open: an error is a miss. -/
def get (key : String) : RequestProg β (Option (IdempotencyRecord β)) :=
  Prog.call (.get key) fun i s =>
    (.ok (if i.fails then none else (s.records key).map Entry.value), s)

/-- `SET key record EX ttl NX`. -/
def begin (key fingerprint : String) (ttlSeconds : ℕ) : RequestProg β Bool :=
  atomic (.begin key) fun i s =>
    let taken := s.records.setNX key ⟨.processing, fingerprint, 0, none⟩ (some (i.now + ttlSeconds))
    .ok (taken.1, { s with records := taken.2 })

def complete (key fingerprint : String) (statusCode : ℕ) (body : Option β) (ttlSeconds : ℕ) :
    RequestProg β Unit :=
  Prog.call (.complete key) fun i s =>
    let records := s.records.put key ⟨.completed, fingerprint, statusCode, body⟩
      (some (i.now + ttlSeconds))
    (.ok (), if i.fails then s else { s with records })

def clear (key : String) : RequestProg β Unit :=
  Prog.call (.clear key) fun i s =>
    (.ok (), if i.fails then s else { s with records := s.records.drop key })

end IdempotencyService

/-! ### `IdempotencyInterceptor` -/

namespace IdempotencyInterceptor

open IdempotencyService

def keyRequired : Failure :=
  .throwApp .idempotencyKeyRequired "Idempotency-Key header is required for this operation" 400

def keyLength : Failure :=
  .throwApp .idempotencyKeyRequired "Idempotency-Key must be 8–128 characters" 400

def keyConflict : Failure :=
  .throwApp .idempotencyKeyConflict "Idempotency-Key was reused with a different request payload" 409

def inProgress : Failure :=
  .throwApp .idempotencyInProgress "A request with this Idempotency-Key is still processing" 409

/-- `statusCode || 200`. -/
def orOk (statusCode : ℕ) : ℕ := if statusCode = 0 then 200 else statusCode

theorem orOk_ne (statusCode : ℕ) : orOk statusCode ≠ 0 := by
  unfold orOk
  split <;> omega

def key (request : Request) : String := (request.header.map jsTrim).getD ""

def scope (request : Request) : String :=
  request.userId.getD "anon" ++ ":" ++ (request.method ++ ":" ++ request.path)

def redisKey (request : Request) : String := buildKey (scope request) (key request)

variable (sha256 : String → String)

def requestFingerprint (request : Request) : String :=
  fingerprint sha256 request.method.toUpper request.url request.body

def recorded (fingerprint : String) (existing : IdempotencyRecord β) :
    RequestProg β (PrepareResult β) :=
  if existing.fingerprint ≠ fingerprint then throw keyConflict
  else if existing.status = .processing then throw inProgress
  else pure (.replay (orOk existing.statusCode) existing.body)

/-- The second read, after a lost race. -/
def reread (redisKey fingerprint : String) : RequestProg β (PrepareResult β) := do
  let raced ← get redisKey
  match raced with
  | some record =>
    if record.status = .completed ∧ record.fingerprint = fingerprint then
      pure (.replay (orOk record.statusCode) record.body)
    else throw inProgress
  | none => throw inProgress

def claim (redisKey fingerprint : String) (ttlSeconds : ℕ) : RequestProg β (PrepareResult β) := do
  let claimed ← begin redisKey fingerprint ttlSeconds
  if claimed then pure (.execute redisKey fingerprint ttlSeconds) else reread redisKey fingerprint

def lookUp (redisKey fingerprint : String) (ttlSeconds : ℕ) : RequestProg β (PrepareResult β) := do
  let existing ← get redisKey
  match existing with
  | some record => recorded fingerprint record
  | none => claim redisKey fingerprint ttlSeconds

def prepare (request : Request) (options : IdempotentOptions) : RequestProg β (PrepareResult β) :=
  if key request = "" then
    if options.required then throw keyRequired else pure .passthrough
  else if utf16Length (key request) < 8 ∨ 128 < utf16Length (key request) then throw keyLength
  else lookUp (redisKey request) (requestFingerprint sha256 request) options.ttlSeconds

/-- `next.handle()`. -/
def handle (fingerprint : String) : RequestProg β (Response β) :=
  Prog.call (.handle fingerprint) fun i s =>
    (i.reply, { s with handled := ⟨fingerprint, i.reply⟩ :: s.handled })

/-- What follows the handler: its answer is recorded, or the record is cleared while the error is
already on its way. -/
def finish (key fingerprint : String) (ttlSeconds : ℕ) :
    Except Failure (Response β) → RequestProg β (Response β)
  | .ok response =>
    (complete key fingerprint (orOk response.statusCode) response.body ttlSeconds).bind fun _ =>
      pure response
  | .error e => .fork (clear key).discard (throw e)

def respond (request : Request) : PrepareResult β → RequestProg β (Response β)
  | .passthrough => handle (requestFingerprint sha256 request)
  | .replay statusCode body => pure ⟨orOk statusCode, body, orOk_ne statusCode⟩
  | .execute key fingerprint ttlSeconds =>
    (handle fingerprint).attempt.bind (finish key fingerprint ttlSeconds)

def mutates (method : String) : Bool := ["POST", "PUT", "PATCH", "DELETE"].contains method.toUpper

def intercept (options : Option IdempotentOptions) (request : Request) :
    RequestProg β (Response β) :=
  match options with
  | none => handle (requestFingerprint sha256 request)
  | some options =>
    if mutates request.method then
      (prepare sha256 request options).bind (respond sha256 request)
    else handle (requestFingerprint sha256 request)

end IdempotencyInterceptor

end ElectronicsCart.Idempotency
