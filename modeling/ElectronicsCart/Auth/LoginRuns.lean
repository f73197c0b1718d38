import ElectronicsCart.Auth.Login
import ElectronicsCart.Core.Journal

/-!
# Guessing passwords under any schedule

A login checks the lock on a row that it has read, verifies the password later and counts a failure
last.  So guesses that overlap all pass the check, and a failure that is never counted is free.
-/

namespace ElectronicsCart.Auth

open Interleaving Relational

/-! ### What a run does -/

section Guesses

variable (verify : String → String → Bool)

def accepts (user : Account) (password : String) : Bool :=
  (truthy user.passwordHash).any fun hash => verify hash password

/-- The wrong passwords of an account since its last login or lock, after one more step. -/
def wrongAfter (u : ℕ) (p : LoginPool) (j : ℕ) (i : LoginInput) (n : ℕ) : ℕ :=
  match p.label? j with
  | some (.verify user password) =>
    if user.id = u ∧ accepts verify user password = false then n + 1 else n
  | some (.resetFailedLogin id) => if id = u ∧ i.fails = false then 0 else n
  | some (.lockUntil id) => if id = u ∧ i.fails = false then 0 else n
  | _ => n

def wrongSince (u : ℕ) : LoginPool → List (ℕ × LoginInput) → ℕ → ℕ
  | _, [], n => n
  | p, (j, i) :: rest, n => wrongSince u (p.step j i) rest (wrongAfter verify u p j i n)

/-- The `failed_login_count` and the `locked_until` of an account. -/
def guarded (s : LoginState) (id : ℕ) : Option (ℕ × Option ℕ) :=
  (s.users.find? id).map fun u => (u.failedLoginCount, u.lockedUntil)

def failedCount (s : LoginState) (id : ℕ) : ℕ := (guarded s id).elim 0 Prod.fst

def lockOf (s : LoginState) (id : ℕ) : Option ℕ := (guarded s id).bind Prod.snd

/-- No password is verified while the account is locked. -/
def Unlocked (p : LoginPool) (j : ℕ) (i : LoginInput) : Prop :=
  ∀ user password, p.label? j = some (.verify user password) →
    ∀ d, lockOf p.state user.id = some d → d ≤ i.now

structure GuessesBounded (p : LoginPool) (sched : List (ℕ × LoginInput)) : Prop where
  bounded : ∀ u first rest, sched = first ++ rest → wrongSince verify u p first 0 ≤ maxFailedLogins
  unlocked : p.Heeds Unlocked sched

/-! ### In time -/

def LoginAttempt.failureOf (a : LoginAttempt) : Option ℕ :=
  if a.success then none else a.userId

/-- The account whose failure is verified and not yet counted. -/
def LoginCall.uncounted (u : ℕ) : LoginCall → Bool
  | .createAttempt a => a.failureOf == some u
  | .incrementFailedLogin id => id == u
  | _ => false

def LoginCall.locks (u : ℕ) : LoginCall → Bool
  | .lockUntil id => id == u
  | _ => false

/-- One more failure stays within the limit, with those that are still to be counted; at the limit
no lock is pending. -/
def Room (u : ℕ) (p : LoginPool) : Prop :=
  p.awaiting (LoginCall.uncounted u) < maxFailedLogins ∧
    if failedCount p.state u < maxFailedLogins then
      failedCount p.state u + p.awaiting (LoginCall.uncounted u) < maxFailedLogins
    else p.awaiting (LoginCall.locks u) = 0

/-- A password is verified while the lock that its login has read is still the account's, or has
been lifted; a wrong one while there is room for it; and every failure is counted. -/
def Careful (p : LoginPool) (i : LoginInput) : LoginCall → Prop
  | .verify user password =>
    (lockOf p.state user.id = none ∨ lockOf p.state user.id = user.lockedUntil) ∧
      (accepts verify user password = true ∨ Room user.id p)
  | .createAttempt a => a.failureOf = none ∨ i.fails = false ∧ a.fits = true
  | .incrementFailedLogin _ => i.fails = false
  | .lockUntil _ => i.fails = false
  | _ => True

def InTime (p : LoginPool) (j : ℕ) (i : LoginInput) : Prop :=
  (p.label? j).elim True (Careful verify p i)

instance (u : ℕ) (p : LoginPool) : Decidable (Room u p) :=
  inferInstanceAs (Decidable (p.awaiting (LoginCall.uncounted u) < maxFailedLogins ∧
    if failedCount p.state u < maxFailedLogins then
      failedCount p.state u + p.awaiting (LoginCall.uncounted u) < maxFailedLogins
    else p.awaiting (LoginCall.locks u) = 0))

instance (p : LoginPool) (i : LoginInput) : (l : LoginCall) → Decidable (Careful verify p i l)
  | .verify user password =>
    inferInstanceAs (Decidable ((lockOf p.state user.id = none ∨
      lockOf p.state user.id = user.lockedUntil) ∧
        (accepts verify user password = true ∨ Room user.id p)))
  | .createAttempt a =>
    inferInstanceAs (Decidable (a.failureOf = none ∨ i.fails = false ∧ a.fits = true))
  | .incrementFailedLogin _ => inferInstanceAs (Decidable (i.fails = false))
  | .lockUntil _ => inferInstanceAs (Decidable (i.fails = false))
  | .findByIdentifier _ | .resetFailedLogin _ | .update _ | .getUserRoleCodes _
  | .getUserPermissionCodes _ | .assignRole _ | .createSession _ | .createToken _ | .audit =>
    inferInstanceAs (Decidable True)

instance (p : LoginPool) (j : ℕ) (i : LoginInput) : Decidable (InTime verify p j i) :=
  match h : p.label? j with
  | some l => decidable_of_iff (Careful verify p i l) (by simp [InTime, h])
  | none => .isTrue (by simp [InTime, h])

/-- The clock does not run backwards. -/
def Ticks (sched : List (ℕ × LoginInput)) : Prop := sched.Pairwise fun a b => a.2.now ≤ b.2.now

instance (sched : List (ℕ × LoginInput)) : Decidable (Ticks sched) :=
  inferInstanceAs (Decidable (List.Pairwise _ _))

end Guesses

/-! ### One call -/

section Calls

variable {verify : String → String → Bool} {s s' : LoginState} {id : ℕ}

theorem write_cases {g : Account → Account} {hg : ∀ a, key (g a) = key a} {a : Account}
    (h : UserRepository.write id g hg s = .ok (a, s')) :
    ∃ u, s.users.find? id = some u ∧ a = g u ∧ s' = { s with users := s.users.update id g hg } := by
  unfold UserRepository.write at h
  split at h
  · cases h
  · rename_i u hu
    obtain ⟨rfl, rfl⟩ := Prod.mk.inj (Except.ok.inj h)
    exact ⟨u, hu, rfl, rfl⟩

theorem guarded_write {g : Account → Account} {hg : ∀ a, key (g a) = key a} {u : Account}
    (hu : s.users.find? id = some u) :
    guarded { s with users := s.users.update id g hg } =
      Function.update (guarded s) id (some ((g u).failedLoginCount, (g u).lockedUntil)) := by
  funext k
  by_cases hk : k = id
  · subst hk
    rw [Function.update_self]
    simp only [guarded, Table.find?_update_self hg hu, Option.map_some]
  · rw [Function.update_of_ne hk]
    simp only [guarded, Table.find?_update_ne hg hk]

theorem find_of_guarded {c : ℕ} {d : Option ℕ} (h : guarded s id = some (c, d)) :
    ∃ u, s.users.find? id = some u ∧ u.failedLoginCount = c ∧ u.lockedUntil = d := by
  obtain ⟨u, hu, heq⟩ := Option.map_eq_some_iff.mp h
  obtain ⟨hc, hd⟩ := Prod.mk.inj heq
  exact ⟨u, hu, hc, hd⟩

/-- Calls that leave counts and locks alone and are no part of a failure. -/
def LoginCall.quiet : LoginCall → Bool
  | .createAttempt a => a.failureOf.isNone
  | .update _ | .getUserRoleCodes _ | .getUserPermissionCodes _ | .assignRole _ | .createSession _
  | .createToken _ | .audit => true
  | _ => false

def Quiet (n : Option LoginCall) : Prop := n.all LoginCall.quiet = true

def Rejected (id : ℕ) (n : Option LoginCall) : Prop :=
  ∃ a, a.failureOf = some id ∧ n = some (.createAttempt a)

variable (verify) in
/-- What each call does to the counts and locks, and which call comes after it. -/
def LoginStep (l : LoginCall) (i : LoginInput) (s s' : LoginState) (n : Option LoginCall) : Prop :=
  match l with
  | .findByIdentifier _ => guarded s' = guarded s ∧ (Quiet n ∨ ∃ u,
      guarded s u.id = some (u.failedLoginCount, u.lockedUntil) ∧
      (∀ d, u.lockedUntil = some d → d ≤ i.now) ∧
      ((∃ password, n = some (.verify u password)) ∨ Rejected u.id n))
  | .verify u password => guarded s' = guarded s ∧
      if accepts verify u password then n = some (.resetFailedLogin u.id) else Rejected u.id n
  | .createAttempt a => guarded s' = guarded s ∧ match a.failureOf with
    | none => Quiet n
    | some id => i.fails = false → a.fits = true → (guarded s id).isSome = true →
        n = some (.incrementFailedLogin id)
  | .incrementFailedLogin id => ∀ c d, guarded s id = some (c, d) → i.fails = false →
      guarded s' = Function.update (guarded s) id (some (c + 1, d)) ∧
        n = if maxFailedLogins ≤ c + 1 then some (.lockUntil id) else none
  | .lockUntil id => n = none ∧ ∀ c d, guarded s id = some (c, d) → i.fails = false →
      ∃ t, guarded s' = Function.update (guarded s) id (some (c, some t))
  | .resetFailedLogin id => Quiet n ∧ ∀ c d, guarded s id = some (c, d) →
      guarded s' = if i.fails then guarded s else Function.update (guarded s) id (some (0, none))
  | _ => guarded s' = guarded s ∧ Quiet n

theorem follow_of_quiet {α : Type} {p : LoginProg α} (hseq : p.Sequential)
    (h : p.Every (fun _ _ _ => True) fun l _ s s' => l.quiet = true ∧ guarded s' = guarded s) :
    Quiet p.label? ∧ p.Follow (fun _ _ _ => True) (LoginStep verify) := by
  induction p with
  | done r => exact ⟨rfl, trivial⟩
  | halt => exact ⟨rfl, trivial⟩
  | step l u k ih =>
    have hquiet : l.quiet = true := (h { reply := {} } {} trivial).1.1
    refine ⟨hquiet, fun i s _ => ?_⟩
    obtain ⟨⟨-, hkept⟩, hk⟩ := h i s trivial
    obtain ⟨hnext, hfollow⟩ := ih i s (hseq i s) hk
    refine ⟨?_, hfollow⟩
    cases l with
    | createAttempt a =>
      refine ⟨hkept, ?_⟩
      rw [Option.isNone_iff_eq_none.mp hquiet]
      exact hnext
    | findByIdentifier _ => cases hquiet
    | verify _ _ => cases hquiet
    | incrementFailedLogin _ => cases hquiet
    | lockUntil _ => cases hquiet
    | resetFailedLogin _ => cases hquiet
    | _ => exact ⟨hkept, hnext⟩
  | fork c k => exact hseq.elim

theorem createAttempt_users {a : LoginAttempt} {b : Unit}
    (h : LoginAttemptRepository.create a s = .ok (b, s')) : s'.users = s.users := by
  simp only [LoginAttemptRepository.create, bind_eq_ok, check_eq_ok, pure_eq_ok] at h
  obtain ⟨-, -, -, -, h⟩ := h
  obtain ⟨-, rfl⟩ := Prod.mk.inj h
  rfl

theorem guarded_of_users (h : s'.users = s.users) : guarded s' = guarded s := by
  funext k
  simp only [guarded, h]

/-- A quiet call and what its program does with the answer. -/
abbrev QuietProg {α : Type} (p : LoginProg α) : Prop :=
  p.Sequential ∧
    p.Every (fun _ _ _ => True) fun l _ s s' => l.quiet = true ∧ guarded s' = guarded s

theorem quiet_done {α : Type} (r : Except Failure α) : QuietProg (.done r) := ⟨trivial, trivial⟩

theorem QuietProg.bind {α β : Type} {p : LoginProg α} {k : α → LoginProg β} (hp : QuietProg p)
    (hk : ∀ a, QuietProg (k a)) : QuietProg (p.bind k) :=
  ⟨hp.1.bind fun a => (hk a).1, hp.2.bind fun a => (hk a).2⟩

theorem quiet_query {β : Type} {l : LoginCall} {f : LoginInput → LoginState → β}
    (hl : l.quiet = true) : QuietProg (query l f) :=
  ⟨Prog.sequential_call _ _, every_query fun _ _ _ => ⟨hl, rfl⟩⟩

theorem quiet_atomic {β : Type} {l : LoginCall}
    {f : LoginInput → LoginState → Except Failure (β × LoginState)} (hl : l.quiet = true)
    (hf : ∀ i s b s', f i s = .ok (b, s') → guarded s' = guarded s) : QuietProg (atomic l f) :=
  ⟨sequential_atomic l f,
    every_atomic (fun _ _ _ => ⟨hl, rfl⟩) fun i s b s' _ _ h => ⟨hl, hf i s b s' h⟩⟩

theorem quiet_createAttempt {a : LoginAttempt} (ha : a.failureOf = none) :
    QuietProg (createAttempt a) := by
  apply quiet_atomic
  · simp [LoginCall.quiet, ha]
  · intro i s b s' h
    exact guarded_of_users (createAttempt_users h)

theorem quiet_updateLastLogin {now : ℕ} {ip : Option String} {a : Account}
    (h : UserRepository.updateLastLogin id now ip s = .ok (a, s')) : guarded s' = guarded s := by
  obtain ⟨u, hu, -, rfl⟩ := write_cases h
  rw [guarded_write hu]
  apply Function.update_eq_self_iff.mpr
  simp [guarded, hu]

theorem quiet_createSession (userId : ℕ) : QuietProg (createSession userId) := by
  apply quiet_atomic rfl
  intro i s b s' h
  simp only [bind_eq_ok, check_eq_ok, pure_eq_ok] at h
  obtain ⟨-, -, h⟩ := h
  obtain ⟨-, rfl⟩ := Prod.mk.inj h
  rfl

theorem quiet_createRefreshPair (cfg : AuthConfig) (user : Account) (m : RequestMeta) (n : ℕ) :
    QuietProg (createRefreshPair cfg user m n) := by
  apply (quiet_query rfl).bind
  intro roles
  apply (quiet_query rfl).bind
  intro permissions
  apply QuietProg.bind
  · apply quiet_atomic rfl
    intro i s b s' h
    simp only [bind_eq_ok, check_eq_ok, pure_eq_ok] at h
    obtain ⟨-, -, h⟩ := h
    obtain ⟨-, rfl⟩ := Prod.mk.inj h
    rfl
  · intro created
    exact quiet_done _

theorem quiet_issueAuthResponse (cfg : AuthConfig) (user : Account) (m : RequestMeta) :
    QuietProg (issueAuthResponse cfg user m) := by
  apply (quiet_createSession user.id).bind
  intro sessionId
  apply (quiet_createRefreshPair cfg user m sessionId).bind
  intro pair
  apply (quiet_query rfl).bind
  intro roles
  apply (quiet_query rfl).bind
  intro permissions
  exact quiet_done _

theorem quiet_finishLogin (cfg : AuthConfig) (user : Account) (input : LoginDto) (m : RequestMeta) :
    QuietProg (finishLogin cfg user input m) := by
  apply QuietProg.bind
  · apply quiet_atomic rfl
    intro i s b s' h
    exact quiet_updateLastLogin h
  intro updated
  apply (quiet_query rfl).bind
  intro roles
  apply QuietProg.bind
  · unfold backfillRole
    split
    · exact quiet_query rfl
    · exact quiet_done _
  intro assigned
  apply (quiet_createAttempt rfl).bind
  intro attempt
  apply (quiet_issueAuthResponse cfg user m).bind
  intro response
  apply (quiet_query rfl).bind
  intro logged
  exact quiet_done _

/-! The calls that count a failure. -/

theorem follow_lock {user : Account} {until_ : ℕ} {α : Type} {r : Except Failure α}
    {k : Unit → LoginProg α} (hk : k () = .done r) :
    ((do
      let _ ← atomic (.lockUntil user.id) fun _ s => UserRepository.lockUntil user.id until_ s
      pure () : LoginProg Unit).bind k).Follow (fun _ _ _ => True) (LoginStep verify) := by
  rw [Prog.bind_eq, Prog.bind_assoc]
  apply follow_atomicBind
  intro i s _
  refine ⟨fun e he => ⟨rfl, ?_⟩, fun a s' hf hw => ?_⟩
  · intro c d hg hfails
    obtain ⟨u, hu, -, -⟩ := find_of_guarded hg
    rcases he with he | he
    · rw [hfails] at he
      cases he
    · simp [UserRepository.lockUntil, UserRepository.write, hu] at he
  · obtain ⟨u, hu, -, rfl⟩ := write_cases hw
    have hlast : (Prog.bind (pure () : LoginProg Unit) k) = .done r := hk
    rw [hlast]
    refine ⟨⟨rfl, fun c d hg _ => ⟨until_, ?_⟩⟩, trivial⟩
    obtain ⟨v, hv, hc, -⟩ := find_of_guarded hg
    obtain rfl := Option.some.inj (hu.symm.trans hv)
    rw [guarded_write hu, ← hc]

theorem follow_increment {user : Account} {α : Type} {r : Except Failure α}
    {k : Unit → LoginProg α} (hk : k () = .done r) :
    ((atomic (.incrementFailedLogin user.id) fun i s =>
      (UserRepository.incrementFailedLogin user.id s).map fun r => ((r.1, i.now), r.2)).bind
        fun counted => (if maxFailedLogins ≤ counted.1.failedLoginCount then do
          let _ ← atomic (.lockUntil user.id) fun _ s =>
            UserRepository.lockUntil user.id (addMinutes counted.2 lockoutMinutes) s
          pure ()
        else pure () : LoginProg Unit).bind k).Follow (fun _ _ _ => True) (LoginStep verify) := by
  apply follow_atomicBind
  intro i s _
  refine ⟨fun e he c d hg hfails => ?_, fun b s' hf hw => ?_⟩
  · obtain ⟨u, hu, -, -⟩ := find_of_guarded hg
    rcases he with he | he
    · rw [hfails] at he
      cases he
    · simp [UserRepository.incrementFailedLogin, UserRepository.write, hu, Except.map] at he
  · cases hinc : UserRepository.incrementFailedLogin user.id s with
    | error e => simp [hinc, Except.map] at hw
    | ok r =>
      simp only [hinc, Except.map, Except.ok.injEq] at hw
      obtain ⟨rfl, rfl⟩ := Prod.mk.inj hw
      obtain ⟨u, hu, hr, hs'⟩ := write_cases hinc
      refine ⟨fun c d hg _ => ?_, ?_⟩
      · obtain ⟨v, hv, hc, hd⟩ := find_of_guarded hg
        obtain rfl := Option.some.inj (hu.symm.trans hv)
        refine ⟨by rw [hs', guarded_write hu, ← hc, ← hd], ?_⟩
        have hcount : r.1.failedLoginCount = c + 1 := by rw [hr, ← hc]
        dsimp only
        rw [hcount]
        split
        · rfl
        · exact congrArg Prog.label? hk
      · split
        · exact follow_lock hk
        · rw [Prog.pure_eq, Prog.done_ok_bind, hk]
          trivial

theorem follow_rejectLogin (user : Account) (input : LoginDto) (m : RequestMeta) :
    Rejected user.id (rejectLogin user input m).label? ∧
      (rejectLogin user input m).Follow (fun _ _ _ => True) (LoginStep verify) := by
  refine ⟨⟨_, rfl, rfl⟩, ?_⟩
  simp only [rejectLogin, handleFailedLogin, createAttempt, Prog.bind_eq, Prog.bind_assoc]
  apply follow_atomicBind
  intro i s _
  refine ⟨fun e he => ⟨rfl, fun hfails hfits hknown => ?_⟩, fun b s' hf hw => ?_⟩
  · rcases he with he | he
    · rw [hfails] at he
      cases he
    · have hfound : (s.users.find? user.id).isSome = true := by simpa [guarded] using hknown
      simp [LoginAttemptRepository.create, check, demand, hfits, hfound, bind, Except.bind, pure,
        Except.pure] at he
  · exact ⟨⟨guarded_of_users (createAttempt_users hw), fun _ _ _ => rfl⟩, follow_increment rfl⟩

theorem follow_acceptLogin (cfg : AuthConfig) (user : Account) (input : LoginDto) (m : RequestMeta) :
    (acceptLogin cfg user input m).Follow (fun _ _ _ => True) (LoginStep verify) := by
  have hquiet := quiet_finishLogin cfg user input m
  obtain ⟨hlabel, hfollow⟩ := @follow_of_quiet verify _ _ hquiet.1 hquiet.2
  unfold acceptLogin
  apply follow_atomicBind
  intro i s _
  refine ⟨fun e he => ⟨rfl, fun c d hg => ?_⟩, fun b s' hf hw => ⟨⟨hlabel, fun c d hg => ?_⟩, hfollow⟩⟩
  · obtain ⟨u, hu, -, -⟩ := find_of_guarded hg
    rcases he with he | he
    · rw [if_pos he]
    · simp [UserRepository.resetFailedLogin, UserRepository.write, hu] at he
  · obtain ⟨u, hu, -, rfl⟩ := write_cases hw
    rw [guarded_write hu]
    simp [hf]

theorem follow_checkPassword (cfg : AuthConfig) (user : Account) (input : LoginDto)
    (m : RequestMeta) :
    ((∃ password, (checkPassword cfg verify user input m).label? = some (.verify user password)) ∨
        Rejected user.id (checkPassword cfg verify user input m).label?) ∧
      (checkPassword cfg verify user input m).Follow (fun _ _ _ => True) (LoginStep verify) := by
  obtain ⟨hrejected, hfollow⟩ := @follow_rejectLogin verify user input m
  unfold checkPassword
  cases hhash : truthy user.passwordHash with
  | none => exact ⟨.inr hrejected, hfollow⟩
  | some hash =>
    refine ⟨.inl ⟨input.password, rfl⟩, ?_⟩
    apply Prog.Follow.callBind
    intro i s _
    dsimp only
    have haccepts : accepts verify user input.password = verify hash input.password := by
      simp [accepts, hhash]
    cases hvalid : verify hash input.password with
    | true =>
      refine ⟨⟨rfl, ?_⟩, ?_⟩
      · rw [haccepts, hvalid]
        rfl
      · exact follow_acceptLogin cfg user input m
    | false =>
      refine ⟨⟨rfl, ?_⟩, ?_⟩
      · rw [haccepts, hvalid]
        exact hrejected
      · exact hfollow

theorem findByIdentifier_mem {toLowerCase : String → String} {identifier : String} {u : Account}
    (h : UserRepository.findByIdentifier toLowerCase identifier s = some u) :
    s.users.find? u.id = some u := by
  have hmem : u ∈ s.users.rows := by
    simp only [UserRepository.findByIdentifier] at h
    split at h
    · exact (Table.first?_mem h).1
    · exact (Table.first?_mem h).1
  exact Table.find?_eq_some_iff.mpr ⟨hmem, rfl⟩

theorem follow_login (cfg : AuthConfig) (toLowerCase : String → String) (input : LoginDto)
    (m : RequestMeta) :
    (login cfg toLowerCase verify input m).Follow (fun _ _ _ => True) (LoginStep verify) := by
  unfold login
  apply follow_queryBind
  intro i s _
  refine ⟨⟨rfl, .inl rfl⟩, ?_⟩
  dsimp only
  cases hfound : UserRepository.findByIdentifier toLowerCase input.identifier s with
  | none =>
    have hquiet : QuietProg ((createAttempt ⟨none, input.identifier, m.ipAddress, m.userAgent, false,
        some "user_not_found"⟩).bind fun _ => (throw invalidCredentials : LoginProg LoginResponse)) :=
      (quiet_createAttempt rfl).bind fun _ => quiet_done _
    obtain ⟨hlabel, hfollow⟩ := @follow_of_quiet verify _ _ hquiet.1 hquiet.2
    exact ⟨⟨rfl, .inl hlabel⟩, hfollow⟩
  | some user =>
    obtain ⟨hnext, hfollow⟩ := @follow_checkPassword verify cfg user input m
    have hrow : guarded s user.id = some (user.failedLoginCount, user.lockedUntil) := by
      rw [guarded, findByIdentifier_mem hfound]
      rfl
    simp only [assertAccountAccessible, Prog.bind_eq, Prog.bind_assoc]
    by_cases hlocked : user.lockedUntil.any (i.now < ·) = true
    · simp only [Prog.ensure, hlocked, not_true, if_false]
      exact ⟨⟨rfl, .inl rfl⟩, trivial⟩
    by_cases hstatus : user.status ≠ .inactive ∧ user.status ≠ .suspended ∧ user.status ≠ .archived
    · simp only [Prog.ensure, if_pos hlocked, if_pos hstatus, Prog.done_ok_bind]
      refine ⟨⟨rfl, .inr ⟨user, hrow, fun d hd => ?_, hnext⟩⟩, hfollow⟩
      simpa [hd] using hlocked
    · simp only [Prog.ensure, if_pos hlocked, if_neg hstatus]
      exact ⟨⟨rfl, .inl rfl⟩, trivial⟩

end Calls

/-! ### The invariant -/

/-- The account that a call belongs to, as far as its failures and locks go. -/
def LoginCall.user? : LoginCall → Option ℕ
  | .verify u _ => some u.id
  | .createAttempt a => a.failureOf
  | .incrementFailedLogin id => some id
  | .lockUntil id => some id
  | .resetFailedLogin id => some id
  | _ => none

/-- The wrong passwords since the last login or lock are counted or about to be; at the limit a lock
is pending or all of them are still to be counted. -/
structure Tallied (p : LoginPool) (clock : ℕ) (wrong : ℕ → ℕ) : Prop where
  known : ∀ j l, p.label? j = some l → ∀ id, l.user? = some id → (guarded p.state id).isSome = true
  checked : ∀ j u password, p.label? j = some (.verify u password) →
    ∀ d, u.lockedUntil = some d → d ≤ clock
  bounded : ∀ u, wrong u ≤ maxFailedLogins
  counted : ∀ u, wrong u ≤ failedCount p.state u + p.awaiting (LoginCall.uncounted u)
  full : ∀ u, maxFailedLogins ≤ failedCount p.state u → p.awaiting (LoginCall.locks u) = 0 →
    wrong u ≤ p.awaiting (LoginCall.uncounted u)

section Steps

variable {verify : String → String → Bool} {p : LoginPool} {clock : ℕ} {wrong : ℕ → ℕ} {j : ℕ}
  {i : LoginInput} {l : LoginCall} {n : Option LoginCall} {s' : LoginState}

theorem quiet_next (hn : Quiet n) (u : ℕ) :
    n.any (LoginCall.uncounted u) = false ∧ n.any (LoginCall.locks u) = false := by
  cases n with
  | none => exact ⟨rfl, rfl⟩
  | some l =>
    have hl : l.quiet = true := hn
    cases l with
    | createAttempt a =>
      have hnone : a.failureOf = none := Option.isNone_iff_eq_none.mp hl
      simp [LoginCall.uncounted, LoginCall.locks, hnone]
    | findByIdentifier _ => cases hl
    | verify _ _ => cases hl
    | incrementFailedLogin _ => cases hl
    | lockUntil _ => cases hl
    | resetFailedLogin _ => cases hl
    | _ => exact ⟨rfl, rfl⟩

theorem quiet_user (hn : Quiet n) : ∀ l, n = some l → l.user? = none := by
  intro l hl
  subst hl
  have hl : l.quiet = true := hn
  cases l with
  | createAttempt a => exact Option.isNone_iff_eq_none.mp hl
  | findByIdentifier _ => cases hl
  | verify _ _ => cases hl
  | incrementFailedLogin _ => cases hl
  | lockUntil _ => cases hl
  | resetFailedLogin _ => cases hl
  | _ => rfl

/-- What the calls after the next one have to be known to do. -/
structure Onward (s : LoginState) (now : ℕ) (n : Option LoginCall) : Prop where
  known : ∀ l, n = some l → ∀ id, l.user? = some id → (guarded s id).isSome = true
  checked : ∀ u password, n = some (.verify u password) → ∀ d, u.lockedUntil = some d → d ≤ now

theorem Onward.of_same {s s' : LoginState} {now : ℕ} (h : Onward s now n)
    (hsame : guarded s' = guarded s) : Onward s' now n := by
  constructor
  · rw [hsame]
    exact h.known
  · exact h.checked

theorem onward_quiet {s : LoginState} {now : ℕ} (hn : Quiet n) : Onward s now n := by
  constructor
  · intro l hl id hid
    rw [quiet_user hn l hl] at hid
    cases hid
  · intro u password hl
    cases quiet_user hn _ hl

theorem onward_of_user {s : LoginState} {now id : ℕ} (hk : (guarded s id).isSome = true)
    (hl : l.user? = some id) (hne : ∀ u password, l ≠ .verify u password) :
    Onward s now (some l) := by
  constructor
  · intro l' hl' id' hid'
    obtain rfl := Option.some.inj hl'
    obtain rfl := Option.some.inj (hl.symm.trans hid')
    exact hk
  · intro u password hl'
    exact absurd (Option.some.inj hl') (hne u password)

theorem onward_rejected {s : LoginState} {now id : ℕ} (hk : (guarded s id).isSome = true)
    (hn : Rejected id n) : Onward s now n := by
  obtain ⟨a, ha, rfl⟩ := hn
  apply onward_of_user (l := .createAttempt a) hk ha
  intro u password h
  cases h

theorem Tallied.next {wrong' : ℕ → ℕ} (h : Tallied p clock wrong) (hclock : clock ≤ i.now)
    (hlab : (p.step j i).label? = Function.update p.label? j n)
    (hknown : ∀ id, (guarded p.state id).isSome = true →
      (guarded (p.step j i).state id).isSome = true)
    (hon : Onward (p.step j i).state i.now n)
    (hcount : ∀ u, wrong' u ≤ maxFailedLogins ∧
      wrong' u ≤ failedCount (p.step j i).state u +
        (p.step j i).awaiting (LoginCall.uncounted u) ∧
      (maxFailedLogins ≤ failedCount (p.step j i).state u →
        (p.step j i).awaiting (LoginCall.locks u) = 0 →
        wrong' u ≤ (p.step j i).awaiting (LoginCall.uncounted u))) :
    Tallied (p.step j i) i.now wrong' := by
  constructor
  · intro j' l' hl' id hid
    rw [hlab] at hl'
    by_cases hj : j' = j
    · subst hj
      rw [Function.update_self] at hl'
      exact hon.known l' hl' id hid
    · rw [Function.update_of_ne hj] at hl'
      exact hknown id (h.known j' l' hl' id hid)
  · intro j' u password hl' d hd
    rw [hlab] at hl'
    by_cases hj : j' = j
    · subst hj
      rw [Function.update_self] at hl'
      exact hon.checked u password hl' d hd
    · rw [Function.update_of_ne hj] at hl'
      exact (h.checked j' u password hl' d hd).trans hclock
  · intro u
    exact (hcount u).1
  · intro u
    exact (hcount u).2.1
  · intro u
    exact (hcount u).2.2

theorem awaiting_after (hl : p.label? j = some l)
    (hlab : (p.step j i).label? = Function.update p.label? j n) (c : LoginCall → Bool) :
    (p.step j i).awaiting c + (if c l then 1 else 0) =
      p.awaiting c + if n.any c then 1 else 0 := by
  have hstep := Pool.awaiting_step (c := c) (i := i) hl
  rwa [hlab, Function.update_self] at hstep

theorem failedCount_update {s : LoginState} {id c : ℕ} {d : Option ℕ}
    (h : guarded s' = Function.update (guarded s) id (some (c, d))) (u : ℕ) :
    failedCount s' u = if u = id then c else failedCount s u := by
  unfold failedCount
  rw [h]
  by_cases hu : u = id
  · rw [if_pos hu, hu, Function.update_self]
    rfl
  · rw [if_neg hu, Function.update_of_ne hu]

theorem known_update {s : LoginState} {id : ℕ} {g : ℕ × Option ℕ}
    (h : guarded s' = Function.update (guarded s) id (some g)) (k : ℕ)
    (hk : (guarded s k).isSome = true) : (guarded s' k).isSome = true := by
  rw [h]
  by_cases hkid : k = id
  · rw [hkid, Function.update_self]
    rfl
  · rwa [Function.update_of_ne hkid]

theorem failedCount_of_eq {s : LoginState} (h : guarded s' = guarded s) (u : ℕ) :
    failedCount s' u = failedCount s u := by
  rw [failedCount, h]
  rfl

theorem Tallied.pass (h : Tallied p clock wrong) (hclock : clock ≤ i.now) (hl : p.label? j = some l)
    (hlab : (p.step j i).label? = Function.update p.label? j n)
    (hsame : guarded (p.step j i).state = guarded p.state) (hon : Onward p.state i.now n)
    (hunc : ∀ u, l.uncounted u = true → n.any (LoginCall.uncounted u) = true)
    (hlock : ∀ u, l.locks u = false) : Tallied (p.step j i) i.now wrong := by
  apply h.next hclock hlab (fun k hk => by rwa [hsame]) (hon.of_same hsame)
  intro u
  have ha := awaiting_after hl hlab (LoginCall.uncounted u)
  have hb := awaiting_after hl hlab (LoginCall.locks u)
  rw [hlock u] at hb
  have hmore : (if l.uncounted u = true then 1 else 0) ≤
      if n.any (LoginCall.uncounted u) = true then 1 else 0 := by
    by_cases hu : l.uncounted u = true
    · rw [if_pos hu, if_pos (hunc u hu)]
    · rw [if_neg hu]
      exact Nat.zero_le _
  have hcount := h.counted u
  have hfull := h.full u
  rw [failedCount_of_eq hsame]
  refine ⟨h.bounded u, by omega, fun hc hn => ?_⟩
  simp only [Bool.false_eq_true, if_false, add_zero] at hb
  have := hfull hc (by omega)
  omega

theorem Tallied.guess {user : Account} {password : String} (h : Tallied p clock wrong)
    (hclock : clock ≤ i.now) (hl : p.label? j = some (.verify user password))
    (hlab : (p.step j i).label? = Function.update p.label? j n)
    (hsame : guarded (p.step j i).state = guarded p.state) (hn : Rejected user.id n)
    (hroom : Room user.id p) :
    Tallied (p.step j i) i.now fun u => if user.id = u then wrong u + 1 else wrong u := by
  have hk := h.known j _ hl user.id rfl
  have hon : Onward p.state i.now n := onward_rejected hk hn
  apply h.next hclock hlab (fun k hk => by rwa [hsame]) (hon.of_same hsame)
  intro u
  obtain ⟨a, hfail, rfl⟩ := hn
  have ha := awaiting_after hl hlab (LoginCall.uncounted u)
  have hb := awaiting_after hl hlab (LoginCall.locks u)
  simp only [LoginCall.uncounted, LoginCall.locks, Option.any_some, hfail] at ha hb
  have hcount := h.counted u
  have hfull := h.full u
  have hle := h.bounded u
  rw [failedCount_of_eq hsame]
  by_cases hu : user.id = u
  · obtain ⟨hfew, hrest⟩ := hroom
    rw [hu] at hfew hrest ha
    simp only [hu, if_true, beq_self_eq_true, Bool.false_eq_true, if_false, add_zero] at ha hb ⊢
    by_cases hc : failedCount p.state u < maxFailedLogins
    · rw [if_pos hc] at hrest
      refine ⟨by omega, by omega, fun hmax => by omega⟩
    · rw [if_neg hc] at hrest
      have hwrong := hfull (by omega) hrest
      refine ⟨by omega, by omega, fun _ _ => by omega⟩
  · have hne : (some user.id == some u) = false := by simp [hu]
    simp only [hne, hu, Bool.false_eq_true, if_false, add_zero] at ha hb ⊢
    refine ⟨hle, by omega, fun hmax hnone => ?_⟩
    have := hfull hmax (by omega)
    omega

theorem Tallied.count {id c : ℕ} {d : Option ℕ} (h : Tallied p clock wrong) (hclock : clock ≤ i.now)
    (hl : p.label? j = some (.incrementFailedLogin id))
    (hlab : (p.step j i).label? = Function.update p.label? j n)
    (hrow : guarded p.state id = some (c, d))
    (hwrite : guarded (p.step j i).state = Function.update (guarded p.state) id (some (c + 1, d)))
    (hn : n = if maxFailedLogins ≤ c + 1 then some (.lockUntil id) else none) :
    Tallied (p.step j i) i.now wrong := by
  have hc : failedCount p.state id = c := by rw [failedCount, hrow]; rfl
  have hk' : (guarded (p.step j i).state id).isSome = true := by
    rw [hwrite, Function.update_self]
    rfl
  have hon : Onward (p.step j i).state i.now n := by
    rw [hn]
    split
    · apply onward_of_user (l := .lockUntil id) hk' rfl
      intro u password heq
      cases heq
    · exact onward_quiet rfl
  apply h.next hclock hlab (known_update hwrite) hon
  intro u
  have ha := awaiting_after hl hlab (LoginCall.uncounted u)
  have hb := awaiting_after hl hlab (LoginCall.locks u)
  have hcount := h.counted u
  have hfull := h.full u
  have hle := h.bounded u
  rw [failedCount_update hwrite]
  simp only [LoginCall.uncounted, LoginCall.locks, Bool.false_eq_true, if_false] at ha hb
  have hunc : n.any (LoginCall.uncounted u) = false := by
    rw [hn]
    split <;> rfl
  rw [hunc] at ha
  by_cases hu : u = id
  · subst hu
    simp only [beq_self_eq_true, if_true, Bool.false_eq_true, if_false] at ha ⊢
    refine ⟨hle, by omega, fun hmax hnone => ?_⟩
    rw [hn, if_pos hmax] at hb
    simp [LoginCall.locks] at hb
    omega
  · have hne : (id == u) = false := by simpa using fun heq => hu heq.symm
    have hlock : n.any (LoginCall.locks u) = false := by
      rw [hn]
      split
      · exact hne
      · rfl
    rw [hlock] at hb
    rw [if_neg hu]
    simp only [hne, Bool.false_eq_true, if_false, add_zero] at ha hb
    refine ⟨hle, by omega, fun hmax hnone => ?_⟩
    have := hfull hmax (by omega)
    omega

theorem Tallied.forget {id c : ℕ} {d : Option ℕ} (h : Tallied p clock wrong) (hclock : clock ≤ i.now)
    (hl : p.label? j = some l) (hlab : (p.step j i).label? = Function.update p.label? j n)
    (hwrite : guarded (p.step j i).state = Function.update (guarded p.state) id (some (c, d)))
    (hn : Quiet n) (hunc : ∀ u, l.uncounted u = false) (hlock : ∀ u, u ≠ id → l.locks u = false) :
    Tallied (p.step j i) i.now fun u => if id = u then 0 else wrong u := by
  apply h.next hclock hlab (known_update hwrite) (onward_quiet hn)
  intro u
  by_cases hu : u = id
  · subst hu
    simp
  · have ha := awaiting_after hl hlab (LoginCall.uncounted u)
    have hb := awaiting_after hl hlab (LoginCall.locks u)
    rw [hunc u, (quiet_next hn u).1] at ha
    rw [hlock u hu, (quiet_next hn u).2] at hb
    have hcount := h.counted u
    have hfull := h.full u
    have hle := h.bounded u
    rw [failedCount_update hwrite, if_neg hu, if_neg (Ne.symm hu)]
    simp only [Bool.false_eq_true, if_false, add_zero] at ha hb
    refine ⟨hle, by omega, fun hmax hnone => ?_⟩
    have := hfull hmax (by omega)
    omega

theorem Tallied.step_find {identifier : String} (h : Tallied p clock wrong) (hclock : clock ≤ i.now)
    (hl : p.label? j = some (.findByIdentifier identifier))
    (hlab : (p.step j i).label? = Function.update p.label? j n)
    (hstep : LoginStep verify (.findByIdentifier identifier) i p.state (p.step j i).state n) :
    Tallied (p.step j i) i.now fun u => wrongAfter verify u p j i (wrong u) := by
  obtain ⟨hsame, hnext⟩ := hstep
  have hquiet : (fun u => wrongAfter verify u p j i (wrong u)) = wrong := by
    funext u
    simp only [wrongAfter, hl]
  rw [hquiet]
  have hpass := fun hon => h.pass hclock hl hlab hsame hon (fun _ hu => nomatch hu) fun _ => rfl
  rcases hnext with hn | ⟨u, hrow, hlock, ⟨password, rfl⟩ | hn⟩
  · exact hpass (onward_quiet hn)
  · apply hpass
    constructor
    · intro l' hl' id hid
      obtain rfl := Option.some.inj hl'
      obtain rfl := Option.some.inj hid
      rw [hrow]
      rfl
    · intro u' password' hl'
      obtain ⟨rfl, -⟩ := LoginCall.verify.inj (Option.some.inj hl')
      exact hlock
  · apply hpass
    apply onward_rejected _ hn
    rw [hrow]
    rfl

theorem Tallied.step_verify {user : Account} {password : String} (h : Tallied p clock wrong)
    (hclock : clock ≤ i.now)
    (hl : p.label? j = some (.verify user password))
    (hlab : (p.step j i).label? = Function.update p.label? j n)
    (hstep : LoginStep verify (.verify user password) i p.state (p.step j i).state n)
    (hroom : accepts verify user password = true ∨ Room user.id p) :
    Tallied (p.step j i) i.now fun u => wrongAfter verify u p j i (wrong u) := by
  obtain ⟨hsame, hnext⟩ := hstep
  have hk := h.known j _ hl user.id rfl
  cases haccepts : accepts verify user password with
  | true =>
    rw [haccepts, if_pos rfl] at hnext
    have hquiet : (fun u => wrongAfter verify u p j i (wrong u)) = wrong := by
      funext u
      simp [wrongAfter, hl, haccepts]
    rw [hquiet]
    subst hnext
    apply h.pass hclock hl hlab hsame _ (fun _ hu => nomatch hu) fun _ => rfl
    apply onward_of_user (l := .resetFailedLogin user.id) hk rfl
    intro u password' heq
    cases heq
  | false =>
    rw [haccepts, if_neg Bool.false_ne_true] at hnext
    have hmore : (fun u => wrongAfter verify u p j i (wrong u)) =
        fun u => if user.id = u then wrong u + 1 else wrong u := by
      funext u
      simp [wrongAfter, hl, haccepts]
    rw [hmore]
    have hrest : Room user.id p := hroom.resolve_left (by rw [haccepts]; exact Bool.false_ne_true)
    exact h.guess hclock hl hlab hsame hnext hrest

theorem Tallied.step_attempt {a : LoginAttempt} (h : Tallied p clock wrong) (hclock : clock ≤ i.now)
    (hl : p.label? j = some (.createAttempt a))
    (hlab : (p.step j i).label? = Function.update p.label? j n)
    (hstep : LoginStep verify (.createAttempt a) i p.state (p.step j i).state n)
    (hg : a.failureOf = none ∨ i.fails = false ∧ a.fits = true) :
    Tallied (p.step j i) i.now fun u => wrongAfter verify u p j i (wrong u) := by
  obtain ⟨hsame, hnext⟩ := hstep
  have hquiet : (fun u => wrongAfter verify u p j i (wrong u)) = wrong := by
    funext u
    simp only [wrongAfter, hl]
  rw [hquiet]
  cases hfail : a.failureOf with
  | none =>
    rw [hfail] at hnext
    apply h.pass hclock hl hlab hsame (onward_quiet hnext) _ fun _ => rfl
    intro u hu
    simp [LoginCall.uncounted, hfail] at hu
  | some id =>
    rw [hfail] at hnext
    obtain ⟨hf, hfits⟩ := hg.resolve_left (by simp [hfail])
    have hk := h.known j _ hl id hfail
    have hn := hnext hf hfits hk
    subst hn
    apply h.pass hclock hl hlab hsame _ _ fun _ => rfl
    · apply onward_of_user (l := .incrementFailedLogin id) hk rfl
      intro u password heq
      cases heq
    · intro u hu
      simpa [LoginCall.uncounted, hfail] using hu

theorem Tallied.step_increment {id : ℕ} (h : Tallied p clock wrong) (hclock : clock ≤ i.now)
    (hl : p.label? j = some (.incrementFailedLogin id))
    (hlab : (p.step j i).label? = Function.update p.label? j n)
    (hstep : LoginStep verify (.incrementFailedLogin id) i p.state (p.step j i).state n)
    (hg : i.fails = false) :
    Tallied (p.step j i) i.now fun u => wrongAfter verify u p j i (wrong u) := by
  have hk := h.known j _ hl id rfl
  obtain ⟨⟨c, d⟩, hrow⟩ := Option.isSome_iff_exists.mp hk
  obtain ⟨hwrite, hn⟩ := hstep c d hrow hg
  have hquiet : (fun u => wrongAfter verify u p j i (wrong u)) = wrong := by
    funext u
    simp only [wrongAfter, hl]
  rw [hquiet]
  exact h.count hclock hl hlab hrow hwrite hn

theorem Tallied.step_lock {id : ℕ} (h : Tallied p clock wrong) (hclock : clock ≤ i.now)
    (hl : p.label? j = some (.lockUntil id))
    (hlab : (p.step j i).label? = Function.update p.label? j n)
    (hstep : LoginStep verify (.lockUntil id) i p.state (p.step j i).state n)
    (hg : i.fails = false) :
    Tallied (p.step j i) i.now fun u => wrongAfter verify u p j i (wrong u) := by
  have hk := h.known j _ hl id rfl
  obtain ⟨⟨c, d⟩, hrow⟩ := Option.isSome_iff_exists.mp hk
  obtain ⟨hn, hwrites⟩ := hstep
  obtain ⟨until_, hwrite⟩ := hwrites c d hrow hg
  have hforget : (fun u => wrongAfter verify u p j i (wrong u)) =
      fun u => if id = u then 0 else wrong u := by
    funext u
    have hf : i.fails = false := hg
    simp [wrongAfter, hl, hf]
  rw [hforget]
  apply h.forget hclock hl hlab hwrite (by rw [hn]; rfl) fun _ => rfl
  intro u hu
  simpa [LoginCall.locks] using Ne.symm hu

theorem Tallied.step_reset {id : ℕ} (h : Tallied p clock wrong) (hclock : clock ≤ i.now)
    (hl : p.label? j = some (.resetFailedLogin id))
    (hlab : (p.step j i).label? = Function.update p.label? j n)
    (hstep : LoginStep verify (.resetFailedLogin id) i p.state (p.step j i).state n) :
    Tallied (p.step j i) i.now fun u => wrongAfter verify u p j i (wrong u) := by
  have hk := h.known j _ hl id rfl
  obtain ⟨⟨c, d⟩, hrow⟩ := Option.isSome_iff_exists.mp hk
  obtain ⟨hn, hwrites⟩ := hstep
  have hwrite := hwrites c d hrow
  cases hf : i.fails with
  | true =>
    rw [hf, if_pos rfl] at hwrite
    have hquiet : (fun u => wrongAfter verify u p j i (wrong u)) = wrong := by
      funext u
      simp [wrongAfter, hl, hf]
    rw [hquiet]
    exact h.pass hclock hl hlab hwrite (onward_quiet hn) (fun _ hu => nomatch hu) fun _ => rfl
  | false =>
    rw [hf, if_neg Bool.false_ne_true] at hwrite
    have hforget : (fun u => wrongAfter verify u p j i (wrong u)) =
        fun u => if id = u then 0 else wrong u := by
      funext u
      simp [wrongAfter, hl, hf]
    rw [hforget]
    exact h.forget hclock hl hlab hwrite hn (fun _ => rfl) fun _ _ => rfl

theorem Tallied.step (h : Tallied p clock wrong)
    (hp : ∀ t ∈ p.threads, t.Follow (fun _ _ _ => True) (LoginStep verify)) (hclock : clock ≤ i.now)
    (hg : InTime verify p j i) :
    (∀ t ∈ (p.step j i).threads, t.Follow (fun _ _ _ => True) (LoginStep verify)) ∧
      Unlocked p j i ∧
      Tallied (p.step j i) i.now fun u => wrongAfter verify u p j i (wrong u) := by
  have hallows : p.Allows (fun _ _ _ => True) j i := Pool.allows_of_forall (fun _ _ _ => trivial) p j i
  rcases Pool.follow_step hp hallows with ⟨l, n, hl, -, hstep, hlab, hp'⟩ | ⟨hnone, heq⟩
  · refine ⟨hp', ?_, ?_⟩
    · intro user password hverify d hd
      rw [InTime, hverify] at hg
      rcases hg.1 with hfree | hsame
      · rw [hfree] at hd
        cases hd
      · rw [hsame] at hd
        exact (h.checked j user password hverify d hd).trans hclock
    · rw [InTime, hl] at hg
      cases l with
      | findByIdentifier identifier => exact h.step_find hclock hl hlab hstep
      | verify user password => exact h.step_verify hclock hl hlab hstep hg.2
      | createAttempt a => exact h.step_attempt hclock hl hlab hstep hg
      | incrementFailedLogin id => exact h.step_increment hclock hl hlab hstep hg
      | lockUntil id => exact h.step_lock hclock hl hlab hstep hg
      | resetFailedLogin id => exact h.step_reset hclock hl hlab hstep
      | _ =>
        obtain ⟨hsame, hn⟩ := hstep
        have hquiet : (fun u => wrongAfter verify u p j i (wrong u)) = wrong := by
          funext u
          simp only [wrongAfter, hl]
        rw [hquiet]
        exact h.pass hclock hl hlab hsame (onward_quiet hn) (fun _ hu => nomatch hu) fun _ => rfl
  · rw [heq]
    refine ⟨hp, ?_, ?_⟩
    · intro user password hverify
      rw [hnone] at hverify
      cases hverify
    · have hquiet : (fun u => wrongAfter verify u p j i (wrong u)) = wrong := by
        funext u
        simp only [wrongAfter, hnone]
      rw [hquiet]
      exact ⟨h.known, fun j u pw hj d hd => (h.checked j u pw hj d hd).trans hclock, h.bounded,
        h.counted, h.full⟩

theorem Tallied.run {sched : List (ℕ × LoginInput)} (h : Tallied p clock wrong)
    (hp : ∀ t ∈ p.threads, t.Follow (fun _ _ _ => True) (LoginStep verify)) (hticks : Ticks sched)
    (hclock : ∀ a ∈ sched, clock ≤ a.2.now) (hg : p.Heeds (InTime verify) sched) :
    (∀ u first rest, sched = first ++ rest →
        wrongSince verify u p first (wrong u) ≤ maxFailedLogins) ∧ p.Heeds Unlocked sched := by
  induction sched generalizing p clock wrong with
  | nil =>
    refine ⟨fun u first rest heq => ?_, trivial⟩
    obtain ⟨rfl, -⟩ := List.append_eq_nil_iff.mp heq.symm
    exact h.bounded u
  | cons a later ih =>
    obtain ⟨hp', hunlocked, h'⟩ := h.step hp (hclock a List.mem_cons_self) hg.1
    obtain ⟨hafter, hticks'⟩ := List.pairwise_cons.mp hticks
    obtain ⟨hbounded, hheeds⟩ := ih h' hp' hticks' hafter hg.2
    refine ⟨fun u first rest heq => ?_, hunlocked, hheeds⟩
    cases first with
    | nil => exact h.bounded u
    | cons b first =>
      obtain ⟨rfl, hrest⟩ := List.cons.inj heq
      exact hbounded u first rest hrest

theorem tallied_start (cfg : AuthConfig) (toLowerCase : String → String)
    (logins : List (LoginDto × RequestMeta)) (s : LoginState) :
    Tallied (loginPool cfg toLowerCase verify logins s) 0 fun _ => 0 := by
  have hfirst : ∀ j l, (loginPool cfg toLowerCase verify logins s).label? j = some l →
      ∃ identifier, l = .findByIdentifier identifier := by
    intro j l hl
    rw [Pool.label?_eq, loginPool, List.getElem?_map] at hl
    obtain ⟨t, ht, hlabel⟩ := Option.bind_eq_some_iff.mp hl
    obtain ⟨r, -, rfl⟩ := Option.map_eq_some_iff.mp ht
    exact ⟨r.1.identifier, (Option.some.inj hlabel).symm⟩
  constructor
  · intro j l hl id hid
    obtain ⟨identifier, rfl⟩ := hfirst j l hl
    cases hid
  · intro j u password hl
    obtain ⟨identifier, heq⟩ := hfirst j _ hl
    cases heq
  · intro u
    exact Nat.zero_le _
  · intro u
    exact Nat.zero_le _
  · intro u _ _
    exact Nat.zero_le _

/-- Logins that verify while there is room, and before a lock that they have not seen, guess no more
often than the limit and never while the account is locked. -/
theorem guesses_bounded (cfg : AuthConfig) (toLowerCase : String → String)
    (verify : String → String → Bool) (logins : List (LoginDto × RequestMeta)) (start : LoginState)
    (sched : List (ℕ × LoginInput)) (hclock : Ticks sched)
    (hg : (loginPool cfg toLowerCase verify logins start).Heeds (InTime verify) sched) :
    GuessesBounded verify (loginPool cfg toLowerCase verify logins start) sched := by
  have hfollow : ∀ t ∈ (loginPool cfg toLowerCase verify logins start).threads,
      t.Follow (fun _ _ _ => True) (LoginStep verify) := by
    intro t ht
    obtain ⟨r, -, rfl⟩ := List.mem_map.mp ht
    exact follow_login cfg toLowerCase r.1 r.2
  obtain ⟨hbounded, hunlocked⟩ := (tallied_start cfg toLowerCase logins start).run hfollow hclock
    (fun a _ => Nat.zero_le _) hg
  exact ⟨hbounded, hunlocked⟩

end Steps

section Scenarios

def plainConfig : AuthConfig := ⟨id, 900⟩

def matches_ (hash plain : String) : Bool := hash == "argon2:" ++ plain

def withFailures (n : ℕ) : LoginState where
  users := Table.empty.insert fun id =>
    { id := id, email := some "ann@mail.test", passwordHash := some "argon2:Secret-1",
      failedLoginCount := n }

def guess (password : String) : LoginDto × RequestMeta := (⟨"ann@mail.test", password⟩, {})

/-- Two wrong guesses, the second of which locks the account, and the right password. -/
def guessedInTurn : List (ℕ × LoginInput) :=
  [(0, { now := 1, reply := {} }), (0, { now := 2, reply := {} }), (0, { now := 3, reply := {} }),
   (0, { now := 4, reply := {} }), (1, { now := 5, reply := {} }), (1, { now := 6, reply := {} }),
   (1, { now := 7, reply := {} }), (1, { now := 8, reply := {} }), (1, { now := 9, reply := {} }),
   (2, { now := 10, reply := {} })]

theorem guesses_bounded_in_turn :
    GuessesBounded matches_ (loginPool plainConfig id matches_
      [guess "Wrong-01", guess "Wrong-02", guess "Secret-1"] (withFailures 3)) guessedInTurn :=
  guesses_bounded plainConfig id matches_ [guess "Wrong-01", guess "Wrong-02", guess "Secret-1"]
    (withFailures 3) guessedInTurn (by decide +kernel) (by decide +kernel)

/-- Six wrong guesses that are all verified before one of them is counted. -/
def sixAtOnce : List (ℕ × LoginInput) :=
  (List.range 6).map (fun j => (j, { now := 1, reply := {} })) ++
    (List.range 6).map fun j => (j, { now := 2, reply := {} })

theorem six_guesses_at_once :
    Ticks sixAtOnce ∧ ¬ GuessesBounded matches_ (loginPool plainConfig id matches_
      (List.replicate 6 (guess "Wrong-01")) (withFailures 0)) sixAtOnce := by
  refine ⟨by decide +kernel, fun h => ?_⟩
  have hmany : wrongSince matches_ 0 (loginPool plainConfig id matches_
      (List.replicate 6 (guess "Wrong-01")) (withFailures 0)) sixAtOnce 0 = 6 := by
    decide +kernel
  have hfew := h.bounded 0 sixAtOnce [] (List.append_nil _).symm
  rw [hmany] at hfew
  exact absurd hfew (by decide)

end Scenarios

end ElectronicsCart.Auth
