import ElectronicsCart.Auth.Refresh
import ElectronicsCart.Core.Values

/-!
# Login

`AuthService.login` of `modules/auth/services/auth.service.ts` with the repositories under it.  A
repository call and a verification of a password are one atomic step each.

`argon2.verify`, lower case and the hash of a token are parameters.  The role tables are outside:
the codes they hold, random tokens and random ids come with the input of their call.
-/

namespace ElectronicsCart.Auth

open Interleaving Relational

inductive UserType where
  | customer | admin | vendor | technician | support | system
deriving DecidableEq, Repr

/-- A row of `users` with the columns that a login reads or writes. -/
structure Account extends User where
  userType : UserType := .customer
  emailVerifiedAt : Option ℕ := none
  mobileVerifiedAt : Option ℕ := none
  failedLoginCount : ℕ := 0
  lastLoginAt : Option ℕ := none
  lastLoginIp : Option String := none
  createdAt : ℕ := 0
deriving DecidableEq, Repr

instance : Keyed Account := ⟨fun a => a.id⟩

@[simp] theorem key_account (a : Account) : key a = a.id := rfl

structure LoginAttempt where
  userId : Option ℕ
  identifier : String
  ipAddress : Option String
  userAgent : Option String
  success : Bool
  failureReason : Option String := none
deriving DecidableEq, Repr

structure LoginState where
  users : Table Account := Table.empty
  attempts : List LoginAttempt := []
  sessions : Table Session := Table.empty
  tokens : Table RefreshToken := Table.empty

structure LoginReply where
  raw : String := ""
  family : ℕ := 0
  codes : List String := []
deriving DecidableEq, Repr

abbrev LoginInput := Input LoginReply

structure LoginDto where
  identifier : String
  password : String
deriving DecidableEq, Repr

structure RequestMeta where
  ipAddress : Option String := none
  userAgent : Option String := none
  requestId : Option String := none
deriving DecidableEq, Repr

/-- The calls.  A verification carries the row that its caller has read. -/
inductive LoginCall where
  | findByIdentifier (identifier : String)
  | verify (user : Account) (password : String)
  | createAttempt (attempt : LoginAttempt)
  | incrementFailedLogin (id : ℕ)
  | lockUntil (id : ℕ)
  | resetFailedLogin (id : ℕ)
  | update (id : ℕ)
  | getUserRoleCodes (id : ℕ)
  | getUserPermissionCodes (id : ℕ)
  | assignRole (id : ℕ)
  | createSession (id : ℕ)
  | createToken (id : ℕ)
  | audit
deriving DecidableEq, Repr

abbrev LoginProg := Prog LoginCall LoginInput LoginState Failure

/-- `auth.constants.ts`. -/
def maxFailedLogins : ℕ := 5
def lockoutMinutes : ℕ := 30

def addMinutes (now minutes : ℕ) : ℕ := now + minutes * 60000

/-! ### Repositories -/

/-- The columns hold 255, 45 and 512 characters. -/
def LoginAttempt.fits (a : LoginAttempt) : Bool :=
  decide (a.identifier.length ≤ 255) && a.ipAddress.all (fun t => decide (t.length ≤ 45)) &&
    a.userAgent.all fun t => decide (t.length ≤ 512)

def LoginAttemptRepository.create (a : LoginAttempt) (s : LoginState) :
    Except Failure (Unit × LoginState) := do
  check a.fits "P2000"
  check (a.userId.all fun id => (s.users.find? id).isSome) "login_attempts_user_id_fkey"
  return ((), { s with attempts := a :: s.attempts })

namespace UserRepository

def findByEmail (toLowerCase : String → String) (email : String) (s : LoginState) :
    Option Account :=
  s.users.first? fun u => u.email == some (toLowerCase email) && !u.deleted

def findByMobile (mobile : String) (s : LoginState) : Option Account :=
  s.users.first? fun u => u.mobile == some mobile && !u.deleted

def findByIdentifier (toLowerCase : String → String) (identifier : String) (s : LoginState) :
    Option Account :=
  let trimmed := jsTrim identifier
  if trimmed.toList.contains '@' then findByEmail toLowerCase trimmed s else findByMobile trimmed s

/-- `prisma.user.update`, which returns the new row. -/
def write (id : ℕ) (g : Account → Account) (hg : ∀ a, key (g a) = key a) (s : LoginState) :
    Except Failure (Account × LoginState) :=
  match s.users.find? id with
  | none => .error (.constraint "P2025")
  | some u => .ok (g u, { s with users := s.users.update id g hg })

def incrementFailedLogin (id : ℕ) : LoginState → Except Failure (Account × LoginState) :=
  write id (fun u => { u with failedLoginCount := u.failedLoginCount + 1 }) fun _ => rfl

def resetFailedLogin (id : ℕ) : LoginState → Except Failure (Account × LoginState) :=
  write id (fun u => { u with failedLoginCount := 0, lockedUntil := none }) fun _ => rfl

def lockUntil (id until_ : ℕ) : LoginState → Except Failure (Account × LoginState) :=
  write id (fun u => { u with lockedUntil := some until_ }) fun _ => rfl

def updateLastLogin (id now : ℕ) (ip : Option String) :
    LoginState → Except Failure (Account × LoginState) :=
  -- an absent address leaves the column as it is
  write id (fun u => { u with lastLoginAt := some now, lastLoginIp := ip.or u.lastLoginIp })
    fun _ => rfl

end UserRepository

/-! ### Tokens and sessions -/

structure PublicUser where
  id : ℕ
  email : Option String
  mobile : Option String
  emailVerifiedAt : Option ℕ
  mobileVerifiedAt : Option ℕ
  userType : UserType
  status : RecordStatus
  lastLoginAt : Option ℕ
  createdAt : ℕ
deriving DecidableEq, Repr

def toPublicUser (user : Account) : PublicUser where
  id := user.id
  email := user.email
  mobile := user.mobile
  emailVerifiedAt := user.emailVerifiedAt
  mobileVerifiedAt := user.mobileVerifiedAt
  userType := user.userType
  status := user.status
  lastLoginAt := user.lastLoginAt
  createdAt := user.createdAt

/-- The access token of a login also names its session. -/
structure SessionPayload extends JwtPayload where
  sessionId : ℕ
deriving DecidableEq, Repr

structure LoginResponse where
  accessToken : SessionPayload
  refreshToken : String
  expiresIn : ℕ
  user : PublicUser
  roles : List String
  permissions : List String
deriving DecidableEq, Repr

def getUserRoleCodes (userId : ℕ) : LoginProg (List String) :=
  query (.getUserRoleCodes userId) fun i _ => i.reply.codes

def getUserPermissionCodes (userId : ℕ) : LoginProg (List String) :=
  query (.getUserPermissionCodes userId) fun i _ => i.reply.codes

def createSession (userId : ℕ) : LoginProg ℕ :=
  atomic (.createSession userId) fun _ s => do
    check (s.users.find? userId).isSome "sessions_user_id_fkey"
    return (s.sessions.next,
      { s with sessions := s.sessions.insert fun n => { id := n, userId := userId, active := true } })

def firstToken (cfg : AuthConfig) (userId : ℕ) (m : RequestMeta) (i : LoginInput) (n : ℕ) :
    RefreshToken where
  id := n
  userId := userId
  tokenHash := cfg.hashToken i.reply.raw
  familyId := i.reply.family
  userAgent := m.userAgent
  ipAddress := m.ipAddress
  expiresAt := addDays i.now refreshDays
  status := .active

/-- `TokenService.createRefreshPair`: the access token's payload and the raw refresh token. -/
def createRefreshPair (cfg : AuthConfig) (user : Account) (m : RequestMeta) (sessionId : ℕ) :
    LoginProg (SessionPayload × String) := do
  let roles ← getUserRoleCodes user.id
  let permissions ← getUserPermissionCodes user.id
  let (family, raw) ← atomic (.createToken user.id) fun i s => do
    check (s.tokens.rows.all fun t => t.deleted || t.tokenHash != cfg.hashToken i.reply.raw)
      "uq_refresh_tokens_token_hash"
    return ((i.reply.family, i.reply.raw),
      { s with tokens := s.tokens.insert (firstToken cfg user.id m i) })
  pure (⟨⟨user.id, user.email, user.mobile, roles, permissions, family⟩, sessionId⟩, raw)

/-- `createAuthResponse`; the event that `issueAuthResponse` publishes after it changes nothing. -/
def issueAuthResponse (cfg : AuthConfig) (user : Account) (m : RequestMeta) :
    LoginProg LoginResponse := do
  let sessionId ← createSession user.id
  let (accessToken, refreshToken) ← createRefreshPair cfg user m sessionId
  let roles ← getUserRoleCodes user.id
  let permissions ← getUserPermissionCodes user.id
  pure ⟨accessToken, refreshToken, cfg.accessExpiresInSeconds, toPublicUser user, roles, permissions⟩

/-! ### `AuthService.login` -/

def invalidCredentials : Failure :=
  .throwApp .authInvalidCredentials "Invalid credentials" 401

section Service

variable (cfg : AuthConfig) (toLowerCase : String → String) (verify : String → String → Bool)

def createAttempt (a : LoginAttempt) : LoginProg Unit :=
  atomic (.createAttempt a) fun _ s => LoginAttemptRepository.create a s

def handleFailedLogin (user : Account) (identifier : String) (m : RequestMeta) (reason : String) :
    LoginProg Unit := do
  createAttempt ⟨some user.id, identifier, m.ipAddress, m.userAgent, false, some reason⟩
  let (updated, now) ← atomic (.incrementFailedLogin user.id) fun i s =>
    (UserRepository.incrementFailedLogin user.id s).map fun r => ((r.1, i.now), r.2)
  if maxFailedLogins ≤ updated.failedLoginCount then do
    let _ ← atomic (.lockUntil user.id) fun _ s =>
      UserRepository.lockUntil user.id (addMinutes now lockoutMinutes) s
    pure ()
  else pure ()

def rejectLogin (user : Account) (input : LoginDto) (m : RequestMeta) :
    LoginProg LoginResponse := do
  handleFailedLogin user input.identifier m "invalid_password"
  throw invalidCredentials

def backfillRole (userId : ℕ) (roles : List String) : LoginProg Unit :=
  if roles.isEmpty then query (.assignRole userId) fun _ _ => () else pure ()

def finishLogin (user : Account) (input : LoginDto) (m : RequestMeta) :
    LoginProg LoginResponse := do
  let _ ← atomic (.update user.id) fun i s =>
    UserRepository.updateLastLogin user.id i.now m.ipAddress s
  let roles ← getUserRoleCodes user.id
  backfillRole user.id roles
  createAttempt ⟨some user.id, input.identifier, m.ipAddress, m.userAgent, true, none⟩
  let response ← issueAuthResponse cfg user m
  query .audit fun _ _ => ()
  pure response

def acceptLogin (user : Account) (input : LoginDto) (m : RequestMeta) :
    LoginProg LoginResponse := do
  let _ ← atomic (.resetFailedLogin user.id) fun _ s => UserRepository.resetFailedLogin user.id s
  finishLogin cfg user input m

/-- An account without a hash is never verified. -/
def checkPassword (user : Account) (input : LoginDto) (m : RequestMeta) :
    LoginProg LoginResponse :=
  match truthy user.passwordHash with
  | none => rejectLogin user input m
  | some hash => do
    let valid ← Prog.call (.verify user input.password) fun _ s => (.ok (verify hash input.password), s)
    if valid then acceptLogin cfg user input m else rejectLogin user input m

def login (input : LoginDto) (m : RequestMeta) : LoginProg LoginResponse := do
  let (found, now) ← query (.findByIdentifier input.identifier) fun i s =>
    (UserRepository.findByIdentifier toLowerCase input.identifier s, i.now)
  match found with
  | none => do
    createAttempt ⟨none, input.identifier, m.ipAddress, m.userAgent, false, some "user_not_found"⟩
    throw invalidCredentials
  | some user => do
    assertAccountAccessible user.toUser now
    checkPassword cfg verify user input m

abbrev LoginPool := Pool LoginCall LoginInput LoginState Failure LoginResponse

def loginPool (logins : List (LoginDto × RequestMeta)) (s : LoginState) : LoginPool :=
  ⟨logins.map fun r => login cfg toLowerCase verify r.1 r.2, s⟩

end Service

end ElectronicsCart.Auth
