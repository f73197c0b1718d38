import ElectronicsCart.Auth.Login

/-!
# Firebase logins

`AuthService.loginWithFirebase` and `register` of `modules/auth/services/auth.service.ts`, with
`FirebaseAuthService.verifyIdToken` and the calls of `UserRepository` under them, on the state of a login
and the rows of `oauth_accounts`.

`jwtVerify` of the library `jose`, `argon2.hash` and lower case are outside.  The one-time passwords and
the mails of a registration are calls without an effect on this state, as are events and the role tables.
-/

namespace ElectronicsCart.Auth

open Interleaving Relational

inductive AuthProvider where
  | «local» | google | apple | otp
deriving DecidableEq, Repr

structure OauthAccount where
  id : ℕ
  userId : ℕ
  provider : AuthProvider
  providerUserId : String
  email : Option String := none
  status : RecordStatus := .active
  deleted : Bool := false
deriving DecidableEq, Repr

instance : Keyed OauthAccount := ⟨OauthAccount.id⟩

structure SocialState where
  login : LoginState := {}
  oauth : Table OauthAccount := Table.empty

inductive SocialCall where
  | verifyIdToken (idToken : String)
  | findByOauth (provider : AuthProvider) (providerUserId : String)
  | findByEmail (email : String)
  | findByMobile (mobile : String)
  | hashPassword
  | createUser (email mobile : Option String)
  | assignRole (id : ℕ)
  | updateUser (id : ℕ)
  | upsertOauth (userId : ℕ) (provider : AuthProvider) (providerUserId : String)
  | issueOtp (email : String)
  | sendMail (email : String)
  | login (call : LoginCall)
deriving DecidableEq, Repr

abbrev SocialProg := Prog SocialCall LoginInput SocialState Failure

def onLogin {α : Type} (p : LoginProg α) : SocialProg α :=
  p.zoom .login SocialState.login fun l s => { s with login := l }

/-! ### Repositories -/

/-- The columns that a new row of `users` is given. -/
structure NewUser where
  email : Option String
  mobile : Option String
  passwordHash : Option String := none
  status : RecordStatus
  emailVerifiedAt : Option ℕ := none
  mobileVerifiedAt : Option ℕ := none
deriving DecidableEq, Repr

def NewUser.row (u : NewUser) (now n : ℕ) : Account where
  id := n
  email := u.email
  mobile := u.mobile
  passwordHash := u.passwordHash
  status := u.status
  emailVerifiedAt := u.emailVerifiedAt
  mobileVerifiedAt := u.mobileVerifiedAt
  createdAt := now

theorem NewUser.key_row (u : NewUser) (now n : ℕ) : key (u.row now n) = n := rfl

namespace UserRepository

def taken (contact : Account → Option String) (value : Option String) (s : LoginState) : Bool :=
  value.isSome && s.users.rows.any fun u => !u.deleted && contact u == value

/-- `prisma.user.create` under the constraints and the unique indexes of `users`. -/
def create (u : NewUser) (now : ℕ) (s : LoginState) : Except Failure (Account × LoginState) := do
  check (u.email.isSome || u.mobile.isSome) "chk_users_contact"
  check (u.mobile.all fun t => decide (t.length ≤ 20)) "P2000"
  check (!taken (fun r => r.email) u.email s) "uq_users_email_active"
  check (!taken (fun r => r.mobile) u.mobile s) "uq_users_mobile_active"
  return (u.row now s.users.next, { s with users := s.users.insert (u.row now) (u.key_row now) })

def liveOauth (provider : AuthProvider) (providerUserId : String) (a : OauthAccount) : Bool :=
  a.provider == provider && a.providerUserId == providerUserId && !a.deleted

/-- The user of the link, deleted or not. -/
def findByOauth (provider : AuthProvider) (providerUserId : String) (s : SocialState) : Option Account :=
  (s.oauth.first? (liveOauth provider providerUserId)).bind fun a => s.login.users.find? a.userId

def newOauth (userId : ℕ) (provider : AuthProvider) (providerUserId : String) (email : Option String)
    (n : ℕ) : OauthAccount where
  id := n
  userId := userId
  provider := provider
  providerUserId := providerUserId
  email := email

theorem key_newOauth (userId : ℕ) (provider : AuthProvider) (providerUserId : String)
    (email : Option String) (n : ℕ) : key (newOauth userId provider providerUserId email n) = n := rfl

def relinked (userId : ℕ) (email : Option String) (x : OauthAccount) : OauthAccount :=
  { x with userId := userId, email := email, status := .active }

theorem key_relinked (userId : ℕ) (email : Option String) (x : OauthAccount) :
    key (relinked userId email x) = key x := rfl

/-- `INSERT … ON CONFLICT … DO UPDATE`. -/
def upsertOauth (userId : ℕ) (provider : AuthProvider) (providerUserId : String) (email : Option String)
    (s : SocialState) : Except Failure (Unit × SocialState) := do
  check (provider == .google || provider == .apple) "chk_oauth_provider"
  check (decide (providerUserId.length ≤ 255)) "value too long for type character varying(255)"
  check (s.login.users.find? userId).isSome "oauth_accounts_user_id_fkey"
  match s.oauth.first? (liveOauth provider providerUserId) with
  | none => return ((), { s with
      oauth := s.oauth.insert (newOauth userId provider providerUserId email)
        (key_newOauth userId provider providerUserId email) })
  | some x => return ((), { s with
      oauth := s.oauth.update x.id (relinked userId email) (key_relinked userId email) })

end UserRepository

/-! ### `FirebaseAuthService` -/

/-- What the payload of a verified token says, where it is of the right type. -/
structure IdTokenClaims where
  sub : Option String
  email : Option String := none
  emailVerified : Option Bool := none
  phoneNumber : Option String := none
  signInProvider : Option String := none
deriving DecidableEq, Repr

structure VerifiedFirebaseIdentity where
  uid : String
  email : Option String
  emailVerified : Bool
  phone : Option String
  signInProvider : String
deriving DecidableEq, Repr

/-- The two places of the project id, and `jwtVerify` of a token, an issuer and an audience at a time. -/
structure FirebaseConfig where
  firebaseProjectId : Option String := none
  envProjectId : Option String := none
  jwtVerify : String → String → String → ℕ → Option IdTokenClaims

def FirebaseConfig.projectId (fb : FirebaseConfig) : String :=
  ((truthy (fb.firebaseProjectId.map jsTrim)).or (truthy (fb.envProjectId.map jsTrim))).getD ""

/-- A payload without a subject is no identity. -/
def identityOf (claims : IdTokenClaims) : Option VerifiedFirebaseIdentity :=
  let uid := claims.sub.getD ""
  if uid.isEmpty then none
  else some ⟨uid, claims.email, claims.emailVerified == some true, claims.phoneNumber,
    claims.signInProvider.getD "unknown"⟩

def FirebaseConfig.identify (fb : FirebaseConfig) (idToken : String) (now : ℕ) :
    Option VerifiedFirebaseIdentity :=
  (fb.jwtVerify idToken ("https://securetoken.google.com/" ++ fb.projectId) fb.projectId now).bind identityOf

def firebaseNotConfigured : Failure := .throwApp .internalError "FIREBASE_PROJECT_ID is not configured" 503

def invalidIdToken : Failure := .throwApp .unauthorized "Invalid Firebase ID token" 401

/-- Whatever goes wrong with a token, and with the keys it is verified against, it is invalid. -/
def verifyIdToken (fb : FirebaseConfig) (idToken : String) : SocialProg VerifiedFirebaseIdentity := do
  Prog.ensure (fb.projectId.isEmpty = false) firebaseNotConfigured
  let found ← Prog.call (.verifyIdToken idToken) fun i s =>
    (.ok (if i.fails then none else fb.identify idToken i.now), s)
  Prog.orThrow invalidIdToken found

def mapFirebaseProvider (signInProvider : String) : AuthProvider :=
  if signInProvider = "phone" then .otp
  else if signInProvider = "google.com" then .google
  else if signInProvider = "apple.com" then .apple
  else .google

/-! ### `AuthService.loginWithFirebase` -/

def noContact : Failure :=
  .throwApp .validationError "Firebase account must have an email or phone number" 400

def couldNotLink : Failure := .throwApp .internalError "Could not create or link Firebase user" 500

section Service

variable (cfg : AuthConfig) (fb : FirebaseConfig) (toLowerCase : String → String)

/-- The user of the email, if there is an email; else what was found before, at the time of the last read. -/
def lookupEmail (now : ℕ) (email : Option String) : SocialProg (Option Account × ℕ) :=
  match truthy email with
  | none => pure (none, now)
  | some e => query (.findByEmail e) fun i s => (UserRepository.findByEmail toLowerCase e s.login, i.now)

def lookupMobile (now : ℕ) (mobile : Option String) : SocialProg (Option Account × ℕ) :=
  match truthy mobile with
  | none => pure (none, now)
  | some m => query (.findByMobile m) fun i s => (UserRepository.findByMobile m s.login, i.now)

def findContact (now : ℕ) (identity : VerifiedFirebaseIdentity) : SocialProg (Option Account × ℕ) := do
  let (found, now) ← lookupEmail toLowerCase now identity.email
  match found with
  | some user => pure (some user, now)
  | none => lookupMobile now identity.phone

/-- The row of `createFromSocial`. -/
def socialUser (identity : VerifiedFirebaseIdentity) (now : ℕ) : NewUser where
  email := identity.email.map toLowerCase
  mobile := identity.phone
  status := .active
  emailVerifiedAt := if identity.emailVerified then some now else none
  mobileVerifiedAt := if (truthy identity.phone).isSome then some now else none

def createFromSocial (identity : VerifiedFirebaseIdentity) : SocialProg Account :=
  atomic (.createUser identity.email identity.phone) fun i s =>
    (UserRepository.create (socialUser toLowerCase identity i.now) i.now s.login).map fun r =>
      (r.1, { s with login := r.2 })

/-- Another request, or an earlier one that stopped half way, may have created the user. -/
def findAgain (identity : VerifiedFirebaseIdentity) : SocialProg (Account × Bool) := do
  let (found, _) ← findContact toLowerCase 0 identity
  let user ← Prog.orThrow couldNotLink found
  pure (user, false)

def createOrFind (identity : VerifiedFirebaseIdentity) : SocialProg (Account × Bool) :=
  tryCatch (do
    let user ← createFromSocial toLowerCase identity
    pure (user, true)) fun _ => findAgain toLowerCase identity

def grantRole (userId : ℕ) (created : Bool) : SocialProg Unit :=
  if created then query (.assignRole userId) fun _ _ => () else pure ()

def signUp (identity : VerifiedFirebaseIdentity) : SocialProg Account := do
  let (user, created) ← createOrFind toLowerCase identity
  grantRole user.id created
  pure user

/-- The columns that a returning user is given, as the row that was read suggests. -/
def returning (user : Account) (identity : VerifiedFirebaseIdentity) (m : RequestMeta) (now : ℕ)
    (u : Account) : Account :=
  { u with
    lastLoginAt := some now
    lastLoginIp := m.ipAddress.or u.lastLoginIp
    emailVerifiedAt :=
      if identity.emailVerified && user.emailVerifiedAt.isNone then some now else u.emailVerifiedAt
    mobileVerifiedAt :=
      if (truthy identity.phone).isSome && user.mobileVerifiedAt.isNone then some now else u.mobileVerifiedAt
    status := if user.status = .pending then .active else u.status }

def welcomeBack (user : Account) (identity : VerifiedFirebaseIdentity) (m : RequestMeta) (now : ℕ) :
    SocialProg Account := do
  assertAccountAccessible user.toUser now
  atomic (.updateUser user.id) fun _ s =>
    (UserRepository.write user.id (returning user identity m now) (fun _ => rfl) s.login).map fun r =>
      (r.1, { s with login := r.2 })

/-- The table holds accounts of Google and Apple only. -/
def linkOauth (identity : VerifiedFirebaseIdentity) (userId : ℕ) : SocialProg Unit :=
  let provider := mapFirebaseProvider identity.signInProvider
  if provider = .google ∨ provider = .apple then
    atomic (.upsertOauth userId provider identity.uid) fun _ s =>
      UserRepository.upsertOauth userId provider identity.uid (identity.email.map toLowerCase) s
  else pure ()

/-- From `resetFailedLogin` on. -/
def issueFor (identity : VerifiedFirebaseIdentity) (user : Account) (m : RequestMeta) :
    LoginProg LoginResponse := do
  let _ ← atomic (.resetFailedLogin user.id) fun _ s => UserRepository.resetFailedLogin user.id s
  createAttempt ⟨some user.id, (identity.email.or identity.phone).getD identity.uid, m.ipAddress,
    m.userAgent, true, none⟩
  let response ← issueAuthResponse cfg user m
  query .audit fun _ _ => ()
  pure response

def findUser (identity : VerifiedFirebaseIdentity) (now : ℕ) :
    Option Account → SocialProg (Option Account × ℕ)
  | some user => pure (some user, now)
  | none => findContact toLowerCase now identity

def enter (identity : VerifiedFirebaseIdentity) (m : RequestMeta) (now : ℕ) :
    Option Account → SocialProg Account
  | none => signUp toLowerCase identity
  | some user => welcomeBack user identity m now

/-- From `findByOauth` on. -/
def loginAs (identity : VerifiedFirebaseIdentity) (m : RequestMeta) : SocialProg LoginResponse := do
  let provider := mapFirebaseProvider identity.signInProvider
  let (linked, now) ← query (.findByOauth provider identity.uid) fun i s =>
    ((UserRepository.findByOauth provider identity.uid s).filter fun u => !u.deleted, i.now)
  let (found, now) ← findUser toLowerCase identity now linked
  let user ← enter toLowerCase identity m now found
  linkOauth toLowerCase identity user.id
  onLogin (issueFor cfg identity user m)

def loginWithFirebaseInner (idToken : String) (m : RequestMeta) : SocialProg LoginResponse := do
  let identity ← verifyIdToken fb idToken
  Prog.ensure ((truthy identity.email).isSome = true ∨ (truthy identity.phone).isSome = true) noContact
  loginAs cfg toLowerCase identity m

/-- An error that is no `AppException` is answered as an internal one. -/
def asAppException : Failure → Failure
  | .app e => .app e
  | e => .throwApp .internalError e.message 500

def loginWithFirebase (idToken : String) (m : RequestMeta) : SocialProg LoginResponse :=
  tryCatch (loginWithFirebaseInner cfg fb toLowerCase idToken m) fun e => throw (asAppException e)

/-! ### `AuthService.register` -/

structure RegisterInput where
  email : Option String := none
  mobile : Option String := none
  password : String
deriving DecidableEq, Repr

def contactRequired : Failure := .throwApp .validationError "Email or mobile is required" 400

def weakPassword : Failure :=
  .throwApp .authWeakPassword "Password does not meet policy requirements" 400

def emailTaken : Failure := .throwApp .authEmailTaken "Email is already registered" 409

def mobileTaken : Failure := .throwApp .authMobileTaken "Mobile number is already registered" 409

/-- The one-time password and its mail must not stop the registration. -/
def sendVerification (user : Account) : SocialProg Unit :=
  match truthy user.email with
  | none => pure ()
  | some email => tryCatch (do
      query (.issueOtp email) fun _ _ => ()
      query (.sendMail email) fun _ _ => ()) fun _ => pure ()

/-- From `passwordService.hash` on. -/
def createAccount (input : RegisterInput) (m : RequestMeta) : SocialProg LoginResponse := do
  let passwordHash ← query .hashPassword fun i _ => i.reply.raw
  let user ← atomic (.createUser input.email input.mobile) fun i s =>
    (UserRepository.create ⟨input.email.map toLowerCase, input.mobile, some passwordHash, .pending, none,
      none⟩ i.now s.login).map fun r => (r.1, { s with login := r.2 })
  query (.assignRole user.id) fun _ _ => ()
  onLogin (query .audit fun _ _ => ())
  sendVerification user
  onLogin (issueAuthResponse cfg user m)

def register (input : RegisterInput) (m : RequestMeta) : SocialProg LoginResponse := do
  Prog.ensure ((truthy input.email).isSome = true ∨ (truthy input.mobile).isSome = true) contactRequired
  Prog.ensure (isStrongPassword input.password = true) weakPassword
  let (existing, _) ← lookupEmail toLowerCase 0 input.email
  Prog.ensure (existing = none) emailTaken
  let (existing, _) ← lookupMobile 0 input.mobile
  Prog.ensure (existing = none) mobileTaken
  createAccount cfg toLowerCase input m

/-! ### Concurrent requests -/

inductive SocialRequest where
  | firebase (idToken : String) (m : RequestMeta)
  | register (input : RegisterInput) (m : RequestMeta)
deriving DecidableEq, Repr

def SocialRequest.prog : SocialRequest → SocialProg LoginResponse
  | .firebase idToken m => loginWithFirebase cfg fb toLowerCase idToken m
  | .register input m => Auth.register cfg toLowerCase input m

def socialPool (requests : List SocialRequest) (s : SocialState) :
    Pool SocialCall LoginInput SocialState Failure LoginResponse :=
  ⟨requests.mapIdx fun _ => SocialRequest.prog cfg fb toLowerCase, s⟩

end Service

end ElectronicsCart.Auth
