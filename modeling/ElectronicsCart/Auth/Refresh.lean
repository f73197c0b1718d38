import ElectronicsCart.Core.Environment
import ElectronicsCart.Lib.Table

/-!
# Refresh tokens

`AuthService.refresh` and `changePassword` (`modules/auth/services/auth.service.ts`)
over `RefreshTokenRepository`, `UserRepository` and `SessionRepository`.  Each
repository call is one atomic step.

The hash of a raw token is a parameter, as are the random values and the answers of
the password library and of the role tables, which come with the input of their call.
-/

namespace ElectronicsCart.Auth

open Interleaving Relational

inductive TokenStatus where
  | active | rotated | revoked | expired
deriving DecidableEq, Repr

inductive RecordStatus where
  | active | inactive | suspended | pending | archived
deriving DecidableEq, Repr

structure RefreshToken where
  id : ℕ
  userId : ℕ
  tokenHash : String
  familyId : ℕ
  replacedById : Option ℕ := none
  userAgent : Option String := none
  ipAddress : Option String := none
  expiresAt : ℕ
  revokedAt : Option ℕ := none
  status : TokenStatus
  deleted : Bool := false
deriving DecidableEq, Repr

structure User where
  id : ℕ
  email : Option String := none
  mobile : Option String := none
  passwordHash : Option String := none
  lockedUntil : Option ℕ := none
  status : RecordStatus := .active
  deleted : Bool := false
deriving DecidableEq, Repr

structure Session where
  id : ℕ
  userId : ℕ
  active : Bool
  revokedAt : Option ℕ := none
  deleted : Bool := false
deriving DecidableEq, Repr

instance : Keyed RefreshToken := ⟨RefreshToken.id⟩
instance : Keyed User := ⟨User.id⟩
instance : Keyed Session := ⟨Session.id⟩

@[simp] theorem key_refreshToken (t : RefreshToken) : key t = t.id := rfl

structure AuthState where
  users : Table User
  tokens : Table RefreshToken
  sessions : Table Session

/-- The answers of code outside the program: `randomBytes`, argon2, the role tables. -/
structure AuthReply where
  raw : String := ""
  verified : Bool := false
  codes : List String := []
deriving DecidableEq, Repr

/-- The repository calls.  `create` names the token that is being exchanged. -/
inductive AuthCall where
  | findByHash (tokenHash : String)
  | revokeFamily (familyId : ℕ)
  | findUser (userId : ℕ)
  | create (stored : RefreshToken)
  | rotate (id replacedById : ℕ)
  | roleCodes (userId : ℕ)
  | permissionCodes (userId : ℕ)
  | verifyPassword
  | hashPassword
  | updatePassword (userId : ℕ)
  | revokeAllForUser (userId : ℕ)
  | revokeSessions (userId : ℕ)
  | audit
deriving DecidableEq, Repr

abbrev AuthProg := Prog AuthCall (Input AuthReply) AuthState Failure

/-- `stored.status === active` and not deleted: the token can still be exchanged. -/
def RefreshToken.active (t : RefreshToken) : Bool := t.status == .active && !t.deleted

/-! ### Repositories -/

def findByHash (tokenHash : String) (s : AuthState) : Option RefreshToken :=
  s.tokens.first? fun t => t.tokenHash == tokenHash && !t.deleted

def findById (userId : ℕ) (s : AuthState) : Option User :=
  s.users.first? fun u => u.id == userId && !u.deleted

def addDays (now days : ℕ) : ℕ := now + days * 86400000

def refreshDays : ℕ := 7

/-- The row `refresh` stores for a user, in the family of the token it exchanges. -/
def newToken (hash : String → String) (userId : ℕ) (stored : RefreshToken) (i : Input AuthReply)
    (n : ℕ) : RefreshToken where
  id := n
  userId := userId
  tokenHash := hash i.reply.raw
  familyId := stored.familyId
  userAgent := stored.userAgent
  ipAddress := stored.ipAddress
  expiresAt := addDays i.now refreshDays
  status := .active

def create (hash : String → String) (userId : ℕ) (stored : RefreshToken) (i : Input AuthReply)
    (s : AuthState) : Except Failure (RefreshToken × AuthState) := do
  check (s.tokens.rows.all fun t => t.deleted || t.tokenHash != hash i.reply.raw)
    "uq_refresh_tokens_token_hash"
  return (newToken hash userId stored i s.tokens.next,
    { s with tokens := s.tokens.insert (newToken hash userId stored i) })

def rotate (id replacedById : ℕ) (i : Input AuthReply) (s : AuthState) :
    Except Failure (Unit × AuthState) := do
  check (s.tokens.find? id).isSome "P2025"
  return ((), { s with tokens := s.tokens.update id fun t =>
    { t with status := .rotated, replacedById := some replacedById, revokedAt := some i.now } })

/-- `updateMany` over the active tokens that `p` selects. -/
def revokeWhere (p : RefreshToken → Bool) (i : Input AuthReply) (s : AuthState) : AuthState :=
  { s with tokens := s.tokens.updateWhere (fun t => p t && t.active) fun t =>
    { t with status := .revoked, revokedAt := some i.now } }

def revokeFamily (familyId : ℕ) : AuthProg Unit :=
  atomic (.revokeFamily familyId) fun i s =>
    .ok ((), revokeWhere (fun t => t.familyId == familyId) i s)

def revokeAllForUser (userId : ℕ) : AuthProg Unit :=
  atomic (.revokeAllForUser userId) fun i s =>
    .ok ((), revokeWhere (fun t => t.userId == userId) i s)

def updatePassword (userId : ℕ) (passwordHash : String) (s : AuthState) :
    Except Failure (Unit × AuthState) := do
  check (s.users.find? userId).isSome "P2025"
  return ((), { s with users := s.users.update userId fun u =>
    { u with passwordHash := some passwordHash } })

def revokeSessions (userId : ℕ) (keep : Option ℕ) (i : Input AuthReply) (s : AuthState) :
    AuthState :=
  let selected := fun x : Session => x.userId == userId && x.active && x.revokedAt.isNone &&
    !x.deleted && keep.all (x.id != ·)
  { s with sessions := s.sessions.updateWhere selected fun x =>
    { x with active := false, revokedAt := some i.now } }

/-! ### Refresh -/

structure JwtPayload where
  sub : ℕ
  email : Option String
  mobile : Option String
  roles : List String
  permissions : List String
  tokenFamilyId : ℕ
deriving DecidableEq, Repr

/-- The access token is kept as the payload that is signed. -/
structure AuthTokensResponse where
  accessToken : JwtPayload
  refreshToken : String
  expiresIn : ℕ
deriving DecidableEq, Repr

/-- What the service reads from its configuration and from `node:crypto`. -/
structure AuthConfig where
  hashToken : String → String
  accessExpiresInSeconds : ℕ

def invalidRefreshToken : Failure := .throwApp .authInvalidToken "Invalid refresh token" 401

def refreshTokenReused : Failure := .throwApp .authTokenReused "Refresh token reuse detected" 401

def refreshTokenExpired : Failure := .throwApp .authInvalidToken "Refresh token expired" 401

def assertAccountAccessible {L ι σ : Type} (user : User) (now : ℕ) : Prog L ι σ Failure Unit := do
  Prog.ensure (¬ user.lockedUntil.any (now < ·) = true)
    (.throwApp .authAccountLocked "Account is temporarily locked" 403)
  Prog.ensure (user.status ≠ .inactive ∧ user.status ≠ .suspended ∧ user.status ≠ .archived)
    (.throwApp .authAccountInactive "Account is inactive" 403)

/-- From the new token on: rotate the old one and sign an access token. -/
def finishRefresh (cfg : AuthConfig) (user : User) (stored created : RefreshToken)
    (raw : String) : AuthProg AuthTokensResponse := do
  atomic (.rotate stored.id created.id) (rotate stored.id created.id)
  let roles ← query (.roleCodes user.id) fun i _ => i.reply.codes
  let permissions ← query (.permissionCodes user.id) fun i _ => i.reply.codes
  pure {
    accessToken := ⟨user.id, user.email, user.mobile, roles, permissions, stored.familyId⟩
    refreshToken := raw
    expiresIn := cfg.accessExpiresInSeconds }

/-- `AuthService.refresh`. -/
def refresh (cfg : AuthConfig) (refreshToken : String) : AuthProg AuthTokensResponse := do
  let tokenHash := cfg.hashToken refreshToken
  let (found, now) ← query (.findByHash tokenHash) fun i s => (findByHash tokenHash s, i.now)
  let stored ← Prog.orThrow invalidRefreshToken found
  if stored.status = .rotated ∨ stored.status = .revoked then do
    revokeFamily stored.familyId
    throw refreshTokenReused
  else do
    Prog.ensure (stored.status = .active ∧ now < stored.expiresAt) refreshTokenExpired
    let (found, now) ← query (.findUser stored.userId) fun i s => (findById stored.userId s, i.now)
    let user ← Prog.orThrow invalidRefreshToken found
    assertAccountAccessible user now
    let (created, raw) ← atomic (.create stored) fun i s =>
      (create cfg.hashToken user.id stored i s).map fun r => ((r.1, i.reply.raw), r.2)
    finishRefresh cfg user stored created raw

/-! ### Change of password -/

/-- `STRONG_PASSWORD_PATTERN` of `password.service.ts`; `.` matches one UTF-16 unit and
no line terminator. -/
def isStrongPassword (plain : String) : Bool :=
  let cs := plain.toList
  let lower := fun c : Char => decide ('a' ≤ c ∧ c ≤ 'z')
  let upper := fun c : Char => decide ('A' ≤ c ∧ c ≤ 'Z')
  let digit := fun c : Char => decide ('0' ≤ c ∧ c ≤ '9')
  let lineEnd := fun c : Char => c = '\n' || c = '\r' || c.val = 0x2028 || c.val = 0x2029
  let units : ℕ := (cs.map fun c => if c.val < 0x10000 then 1 else 2).sum
  cs.any lower && cs.any upper && cs.any digit &&
    cs.any (fun c => !(lower c || upper c || digit c)) && !cs.any lineEnd && decide (8 ≤ units)

def currentPasswordInvalid : Failure :=
  .throwApp .authCurrentPasswordInvalid "Current password is invalid" 400

/-- `AuthService.changePassword`. -/
def changePassword (userId : ℕ) (newPassword : String) (keepSessionId : Option ℕ) :
    AuthProg Unit := do
  let found ← query (.findUser userId) fun _ s => findById userId s
  let _ ← Prog.orThrow currentPasswordInvalid (truthy (found.bind User.passwordHash))
  let valid ← query .verifyPassword fun i _ => i.reply.verified
  Prog.ensure (valid = true) currentPasswordInvalid
  Prog.ensure (isStrongPassword newPassword = true)
    (.throwApp .authWeakPassword "Password does not meet policy requirements" 400)
  let passwordHash ← query .hashPassword fun i _ => i.reply.raw
  atomic (.updatePassword userId) fun _ s => updatePassword userId passwordHash s
  revokeAllForUser userId
  atomic (.revokeSessions userId) fun i s => .ok ((), revokeSessions userId keepSessionId i s)
  query .audit fun _ _ => ()

/-! ### Concurrent requests -/

inductive AuthRequest where
  | refresh (refreshToken : String)
  | changePassword (userId : ℕ) (newPassword : String) (keepSessionId : Option ℕ)
  | revokeFamily (familyId : ℕ)
deriving DecidableEq, Repr

def AuthRequest.prog (cfg : AuthConfig) : AuthRequest → AuthProg (Option AuthTokensResponse)
  | .refresh refreshToken => do
    let response ← Auth.refresh cfg refreshToken
    pure (some response)
  | .changePassword userId newPassword keepSessionId => do
    Auth.changePassword userId newPassword keepSessionId
    pure none
  | .revokeFamily familyId => do
    Auth.revokeFamily familyId
    pure none

def authPool (cfg : AuthConfig) (requests : List AuthRequest) (s : AuthState) :
    Pool AuthCall (Input AuthReply) AuthState Failure (Option AuthTokensResponse) :=
  ⟨requests.map (AuthRequest.prog cfg), s⟩

end ElectronicsCart.Auth
