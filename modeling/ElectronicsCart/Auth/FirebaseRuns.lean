import ElectronicsCart.Auth.Firebase
import ElectronicsCart.Auth.LoginRuns
import ElectronicsCart.Lib.Callers

/-!
# Logins with one Firebase account

All logins with one account of a provider are logins of the same user, although nothing but the unique
indexes keeps two of them from creating it.  The user of an account is the one it is linked to or, before
there is a link, the one that has its email or phone number; no call of the service changes it.
-/

namespace ElectronicsCart.Auth

open Interleaving Relational

/-- An account of a provider, with the contact that its tokens carry. -/
structure FirebaseAccount where
  provider : AuthProvider
  uid : String
  email : Option String := none
  phone : Option String := none

variable {cfg : AuthConfig} {fb : FirebaseConfig} {toLowerCase : String → String} {A : FirebaseAccount}
  {s s' t : SocialState} {l l' : LoginState} {T T' : Table Account} {a : Account} {id now : ℕ}
  {v : VerifiedFirebaseIdentity} {m : RequestMeta} {i : LoginInput}

/-! ### The user of an account -/

def live (u : Account) : Bool := !u.deleted

def FirebaseAccount.linked (A : FirebaseAccount) (s : SocialState) : Option ℕ :=
  ((UserRepository.findByOauth A.provider A.uid s).filter live).map fun u => u.id

/-- The user with the email of the account, or else with its phone number. -/
def FirebaseAccount.owner (toLowerCase : String → String) (A : FirebaseAccount) (s : SocialState) :
    Option ℕ :=
  match truthy A.email with
  | some email => (UserRepository.findByEmail toLowerCase email s.login).map fun u => u.id
  | none => (truthy A.phone).bind fun phone =>
    (UserRepository.findByMobile phone s.login).map fun u => u.id

def FirebaseAccount.user (toLowerCase : String → String) (A : FirebaseAccount) (s : SocialState) :
    Option ℕ :=
  (A.linked s).or (A.owner toLowerCase s)

/-- The account has an email or a phone number, and not both. -/
def FirebaseAccount.OneContact (A : FirebaseAccount) : Prop :=
  (truthy A.email).isSome ≠ (truthy A.phone).isSome

/-- The foreign key of `oauth_accounts`. -/
def Linked (s : SocialState) : Prop := ∀ x ∈ s.oauth.rows, (s.login.users.find? x.userId).isSome = true

/-- The user of the account stays, and a new link is to the owner of the contact. -/
structure KeepsUser (toLowerCase : String → String) (A : FirebaseAccount) (s s' : SocialState) : Prop where
  linked : ∀ id, A.linked s = some id → A.linked s' = some id
  owner : ∀ id, A.owner toLowerCase s = some id → A.owner toLowerCase s' = some id
  new : A.linked s = none → A.linked s' = none ∨ A.linked s' = A.owner toLowerCase s'

namespace KeepsUser

theorem of_eq (hl : A.linked s' = A.linked s) (ho : A.owner toLowerCase s' = A.owner toLowerCase s) :
    KeepsUser toLowerCase A s s' where
  linked _ hu := hl.trans hu
  owner _ hu := ho.trans hu
  new hn := .inl (hl.trans hn)

theorem refl (s : SocialState) : KeepsUser toLowerCase A s s := of_eq rfl rfl

theorem trans {s'' : SocialState} (h : KeepsUser toLowerCase A s s') (h' : KeepsUser toLowerCase A s' s'') :
    KeepsUser toLowerCase A s s'' where
  linked u hu := h'.linked u (h.linked u hu)
  owner u hu := h'.owner u (h.owner u hu)
  new hn := by
    rcases h.new hn with hn' | heq
    · exact h'.new hn'
    cases hlinked : A.linked s' with
    | none => exact h'.new hlinked
    | some u => exact .inr ((h'.linked u hlinked).trans (h'.owner u (heq ▸ hlinked)).symm)

theorem user (h : KeepsUser toLowerCase A s s') (hu : A.user toLowerCase s = some id) :
    A.user toLowerCase s' = some id := by
  unfold FirebaseAccount.user at hu ⊢
  cases hlinked : A.linked s with
  | some u =>
    rw [hlinked, Option.some_or] at hu
    rw [h.linked u hlinked, Option.some_or, hu]
  | none =>
    rw [hlinked, Option.none_or] at hu
    have howner := h.owner id hu
    rcases h.new hlinked with hn | heq
    · rw [hn, Option.none_or, howner]
    · rw [heq, howner, Option.some_or]

end KeepsUser

def Unclaimed (toLowerCase : String → String) (A : FirebaseAccount) (s : SocialState) : Prop :=
  A.linked s = none ∨ A.linked s = A.owner toLowerCase s

theorem Unclaimed.kept (h : Unclaimed toLowerCase A s) (hs : KeepsUser toLowerCase A s s') :
    Unclaimed toLowerCase A s' := by
  rcases h with hn | heq
  · exact hs.new hn
  cases hlinked : A.linked s with
  | none => exact hs.new hlinked
  | some u => exact .inr ((hs.linked u hlinked).trans (hs.owner u (heq ▸ hlinked)).symm)

theorem Unclaimed.user (h : Unclaimed toLowerCase A s) (ho : A.owner toLowerCase s = some id) :
    A.user toLowerCase s = some id := by
  rcases h with hn | heq
  · rw [FirebaseAccount.user, hn, Option.none_or, ho]
  · rw [FirebaseAccount.user, heq, ho, Option.some_or]

/-! ### Calls that leave the contacts as they are -/

def contact (u : Account) : ℕ × Option String × Option String × Bool := (u.id, u.email, u.mobile, u.deleted)

def SameContacts (T T' : Table Account) : Prop := T'.rows.map contact = T.rows.map contact

theorem SameContacts.first? (h : SameContacts T T') (p : ℕ × Option String × Option String × Bool → Bool) :
    (T'.first? fun u => p (contact u)).map contact = (T.first? fun u => p (contact u)).map contact := by
  have hmap : ∀ T : Table Account,
      (T.first? fun u => p (contact u)).map contact = (T.rows.map contact).find? p := by
    intro T
    rw [List.find?_map]
    rfl
  rw [hmap, hmap, h]

theorem SameContacts.find? (h : SameContacts T T') (id : ℕ) :
    (T'.find? id).map contact = (T.find? id).map contact :=
  h.first? fun c => c.1 == id

theorem SameContacts.update {g : Account → Account} (hg : ∀ u, key (g u) = key u)
    (hc : ∀ u, contact (g u) = contact u) : SameContacts T (T.update id g hg) := by
  rw [SameContacts, Table.rows_update, List.map_map]
  refine List.map_congr_left fun u _ => ?_
  rw [Function.comp_apply]
  split
  · exact hc u
  · rfl

/-- The calls of a login find and write users by their ids. -/
def KeepsContacts {α : Type} (p : LoginProg α) : Prop :=
  p.Every (fun _ _ _ => True) fun _ _ l l' => SameContacts l.users l'.users

theorem keeps_query {β : Type} {c : LoginCall} {f : LoginInput → LoginState → β} :
    KeepsContacts (query c f) :=
  every_query fun _ _ _ => rfl

theorem keeps_atomic {β : Type} {c : LoginCall}
    {f : LoginInput → LoginState → Except Failure (β × LoginState)}
    (hf : ∀ i l b l', f i l = .ok (b, l') → SameContacts l.users l'.users) :
    KeepsContacts (atomic c f) :=
  every_atomic (fun _ _ _ => rfl) fun i l b l' _ _ h => hf i l b l' h

theorem SameContacts.write {g : Account → Account} {hg : ∀ a, key (g a) = key a}
    (h : UserRepository.write id g hg l = .ok (a, l')) (hc : ∀ u, contact (g u) = contact u) :
    SameContacts l.users l'.users := by
  obtain ⟨u, -, -, rfl⟩ := write_cases h
  exact SameContacts.update hg hc

theorem keepsContacts_issueAuthResponse (user : Account) :
    KeepsContacts (issueAuthResponse cfg user m) := by
  have hsession : KeepsContacts (createSession user.id) := by
    apply keeps_atomic
    intro i l b l' h
    simp only [bind_eq_ok, check_eq_ok, pure_eq_ok] at h
    obtain ⟨-, -, h⟩ := h
    obtain ⟨-, rfl⟩ := Prod.mk.inj h
    rfl
  have hpair : ∀ sessionId, KeepsContacts (createRefreshPair cfg user m sessionId) := by
    intro sessionId
    apply keeps_query.bind
    intro roles
    apply keeps_query.bind
    intro permissions
    apply Prog.Every.bind
    · apply keeps_atomic
      intro i l b l' h
      simp only [bind_eq_ok, check_eq_ok, pure_eq_ok] at h
      obtain ⟨-, -, h⟩ := h
      obtain ⟨-, rfl⟩ := Prod.mk.inj h
      rfl
    · exact fun _ => trivial
  apply hsession.bind
  intro sessionId
  apply (hpair sessionId).bind
  intro tokens
  apply keeps_query.bind
  intro roles
  apply keeps_query.bind
  exact fun _ => trivial

theorem keepsContacts_issueFor (user : Account) : KeepsContacts (issueFor cfg v user m) := by
  apply Prog.Every.bind
  · exact keeps_atomic fun _ _ _ _ h => SameContacts.write h fun _ => rfl
  intro _
  apply Prog.Every.bind
  · apply keeps_atomic
    intro i l b l' h
    rw [createAttempt_users h]
    rfl
  intro _
  apply (keepsContacts_issueAuthResponse user).bind
  intro response
  apply keeps_query.bind
  exact fun _ => trivial

theorem id_of_contact {o o' : Option Account} (h : o'.map contact = o.map contact) :
    o'.map (fun u => u.id) = o.map fun u => u.id := by
  have hid := congrArg (Option.map Prod.fst) h
  simpa only [Option.map_map, Function.comp_def, contact] using hid

theorem live_of_contact {o o' : Option Account} (h : o'.map contact = o.map contact) :
    (o'.filter live).map (fun u => u.id) = (o.filter live).map fun u => u.id := by
  cases o with
  | none =>
    rw [Option.map_none, Option.map_eq_none_iff] at h
    rw [h]
  | some u =>
    rw [Option.map_some, Option.map_eq_some_iff] at h
    obtain ⟨u', rfl, hc⟩ := h
    simp only [contact, Prod.mk.injEq] at hc
    simp [Option.filter, live, hc.1, hc.2.2.2]

theorem SameContacts.owner (h : SameContacts s.login.users s'.login.users) :
    A.owner toLowerCase s' = A.owner toLowerCase s := by
  unfold FirebaseAccount.owner
  cases truthy A.email with
  | some email => exact id_of_contact (h.first? fun c => c.2.1 == some (toLowerCase email) && !c.2.2.2)
  | none =>
    cases truthy A.phone with
    | none => rfl
    | some phone => exact id_of_contact (h.first? fun c => c.2.2.1 == some phone && !c.2.2.2)

theorem SameContacts.linked (h : SameContacts s.login.users s'.login.users) (ho : s'.oauth = s.oauth) :
    A.linked s' = A.linked s := by
  unfold FirebaseAccount.linked UserRepository.findByOauth
  rw [ho]
  cases s.oauth.first? (UserRepository.liveOauth A.provider A.uid) with
  | none => rfl
  | some x => exact live_of_contact (h.find? x.userId)

theorem SameContacts.foreignKey (h : SameContacts s.login.users s'.login.users) (ho : s'.oauth = s.oauth)
    (hs : Linked s) : Linked s' := by
  intro x hx
  have hfound := congrArg Option.isSome (h.find? x.userId)
  rw [Option.isSome_map, Option.isSome_map] at hfound
  exact hfound.trans (hs x (ho ▸ hx))

/-! ### New users and links -/

theorem createUser_cases {u : NewUser} (h : UserRepository.create u now l = .ok (a, l')) :
    a = u.row now l.users.next ∧ l' = { l with users := l.users.insert (u.row now) (u.key_row now) } ∧
      UserRepository.taken (fun r => r.email) u.email l = false ∧
      UserRepository.taken (fun r => r.mobile) u.mobile l = false := by
  simp only [UserRepository.create, bind_eq_ok, check_eq_ok, pure_eq_ok, Prod.mk.injEq, exists_const,
    Bool.not_eq_true'] at h
  obtain ⟨-, -, hemail, hmobile, rfl, rfl⟩ := h
  exact ⟨rfl, rfl, hemail, hmobile⟩

theorem onUsers_eq_ok {β : Type} {x : Except Failure (β × LoginState)} {b : β}
    (h : x.map (fun r => (r.1, { s with login := r.2 })) = .ok (b, t)) :
    ∃ l, x = .ok (b, l) ∧ t = { s with login := l } := by
  cases x with
  | error e => cases h
  | ok r =>
    obtain ⟨rfl, rfl⟩ := Prod.mk.inj (Except.ok.inj h)
    exact ⟨r.2, rfl, rfl⟩

def withUser (u : NewUser) (now : ℕ) (s : SocialState) : SocialState :=
  { s with login := { s.login with users := s.login.users.insert (u.row now) (u.key_row now) } }

theorem linked_withUser (u : NewUser) (hs : Linked s) : A.linked (withUser u now s) = A.linked s := by
  unfold FirebaseAccount.linked UserRepository.findByOauth
  change (((s.oauth.first? _).bind fun x =>
    (s.login.users.insert (u.row now) (u.key_row now)).find? x.userId).filter
    live).map _ = _
  cases hlink : s.oauth.first? (UserRepository.liveOauth A.provider A.uid) with
  | none => rfl
  | some x =>
    obtain ⟨r, hr⟩ := Option.isSome_iff_exists.mp (hs x (Table.first?_mem hlink).1)
    rw [Option.bind_some, Option.bind_some, hr, Table.find?_insert_of_some (u.key_row now) hr]

theorem foreignKey_withUser (u : NewUser) (hs : Linked s) : Linked (withUser u now s) := by
  intro x hx
  obtain ⟨r, hr⟩ := Option.isSome_iff_exists.mp (hs x hx)
  have hfound : (withUser u now s).login.users.find? x.userId = some r :=
    Table.find?_insert_of_some (u.key_row now) hr
  rw [hfound]
  rfl

theorem owner_withUser (u : NewUser) (h : A.owner toLowerCase s = some id) :
    A.owner toLowerCase (withUser u now s) = some id := by
  have hstays : ∀ p : Account → Bool, (s.login.users.first? p).map (fun r => r.id) = some id →
      ((s.login.users.insert (u.row now) (u.key_row now)).first? p).map (fun r => r.id) = some id := by
    intro p hp
    obtain ⟨r, hr, rfl⟩ := Option.map_eq_some_iff.mp hp
    rw [Table.first?_insert, hr, Option.some_or, Option.map_some]
  unfold FirebaseAccount.owner at h ⊢
  cases hemail : truthy A.email with
  | some email =>
    rw [hemail] at h
    exact hstays _ h
  | none =>
    rw [hemail] at h
    cases hphone : truthy A.phone with
    | none =>
      rw [hphone] at h
      cases h
    | some phone =>
      rw [hphone] at h
      exact hstays _ h

theorem keepsUser_withUser (u : NewUser) (hs : Linked s) : KeepsUser toLowerCase A s (withUser u now s) where
  linked _ hl := (linked_withUser u hs).trans hl
  owner _ ho := owner_withUser u ho
  new hn := .inl ((linked_withUser u hs).trans hn)

theorem first?_of_not_taken {f : Account → Option String} {value : String}
    (h : UserRepository.taken f (some value) l = false) :
    l.users.first? (fun u => f u == some value && !u.deleted) = none := by
  rw [UserRepository.taken, Option.isSome_some, Bool.true_and, List.any_eq_false] at h
  refine List.find?_eq_none.mpr fun u hu => ?_
  rw [Bool.and_comm]
  exact h u hu

theorem truthy_eq_some {o : Option String} {x : String} (h : truthy o = some x) : o = some x :=
  (Option.filter_eq_some_iff.mp h).1

theorem first?_newUser {u : NewUser} {p : Account → Bool} (hnone : T.first? p = none)
    (hp : p (u.row now T.next) = true) :
    ((T.insert (u.row now) (u.key_row now)).first? p).map (fun r => r.id) = some T.next := by
  rw [Table.first?_insert, hnone, Option.none_or, if_pos hp, Option.map_some]
  rfl

theorem owner_created (hone : A.OneContact) (hemail : v.email = A.email) (hphone : v.phone = A.phone)
    (h : UserRepository.create (socialUser toLowerCase v i.now) i.now s.login = .ok (a, l')) :
    A.owner toLowerCase { s with login := l' } = some a.id := by
  obtain ⟨rfl, rfl, hfree, hfree'⟩ := createUser_cases h
  unfold FirebaseAccount.owner
  cases htruthy : truthy A.email with
  | some email =>
    have hcontact : (socialUser toLowerCase v i.now).email = some (toLowerCase email) := by
      rw [socialUser, hemail, truthy_eq_some htruthy, Option.map_some]
    rw [hcontact] at hfree
    have hnone := first?_of_not_taken hfree
    exact first?_newUser hnone (by simp [NewUser.row, hcontact])
  | none =>
    cases htruthy' : truthy A.phone with
    | none =>
      rw [FirebaseAccount.OneContact, htruthy, htruthy'] at hone
      exact (hone rfl).elim
    | some phone =>
      have hcontact : (socialUser toLowerCase v i.now).mobile = some phone := by
        rw [socialUser, hphone, truthy_eq_some htruthy']
      rw [hcontact] at hfree'
      have hnone := first?_of_not_taken hfree'
      exact first?_newUser hnone (by simp [NewUser.row, hcontact])

theorem user_live (h : A.user toLowerCase s = some id) :
    ∃ u, s.login.users.find? id = some u ∧ live u = true := by
  have hrow : ∀ {u : Account}, u ∈ s.login.users.rows → u.id = id → live u = true →
      ∃ u, s.login.users.find? id = some u ∧ live u = true := by
    intro u hu hid hlive
    exact ⟨u, Table.find?_eq_some_iff.mpr ⟨hu, hid⟩, hlive⟩
  have hfirst : ∀ p : Account → Bool,
      ((s.login.users.first? fun u => p u && !u.deleted).map fun u => u.id) = some id →
      ∃ u, s.login.users.find? id = some u ∧ live u = true := by
    intro p hp
    obtain ⟨u, hu, hid⟩ := Option.map_eq_some_iff.mp hp
    obtain ⟨hmem, hpred⟩ := Table.first?_mem hu
    rw [Bool.and_eq_true] at hpred
    exact hrow hmem hid hpred.2
  rcases Option.or_eq_some_iff.mp h with hlinked | ⟨-, howner⟩
  · obtain ⟨u, hu, hid⟩ := Option.map_eq_some_iff.mp hlinked
    obtain ⟨hfound, hlive⟩ := Option.filter_eq_some_iff.mp hu
    obtain ⟨x, -, hx⟩ := Option.bind_eq_some_iff.mp hfound
    exact hrow (Table.find?_mem hx).1 hid hlive
  · unfold FirebaseAccount.owner at howner
    cases hemail : truthy A.email with
    | some email =>
      rw [hemail] at howner
      exact hfirst _ howner
    | none =>
      rw [hemail] at howner
      obtain ⟨phone, -, hphone⟩ := Option.bind_eq_some_iff.mp howner
      exact hfirst _ hphone

section Upsert

variable {provider : AuthProvider} {uid : String} {email : Option String}

theorem liveOauth_iff {x : OauthAccount} : UserRepository.liveOauth provider uid x = true ↔
    x.provider = provider ∧ x.providerUserId = uid ∧ x.deleted = false := by
  simp [UserRepository.liveOauth, and_assoc]

theorem upsertOauth_cases (h : UserRepository.upsertOauth id provider uid email s = .ok ((), s')) :
    s'.login = s.login ∧ (s.login.users.find? id).isSome = true ∧
      (∀ x ∈ s'.oauth.rows, x.userId = id ∨ ∃ y ∈ s.oauth.rows, y.userId = x.userId) ∧
      ∀ provider' uid', (s'.oauth.first? (UserRepository.liveOauth provider' uid')).map (fun x => x.userId) =
        if provider' = provider ∧ uid' = uid then some id
        else (s.oauth.first? (UserRepository.liveOauth provider' uid')).map fun x => x.userId := by
  simp only [UserRepository.upsertOauth, bind_eq_ok, check_eq_ok, exists_const] at h
  obtain ⟨-, -, hfound, h⟩ := h
  split at h
  next hnone =>
    obtain ⟨-, rfl⟩ := Prod.mk.inj (pure_eq_ok.mp h)
    have hmk := UserRepository.key_newOauth id provider uid email
    refine ⟨rfl, hfound, ?_, ?_⟩
    · intro x hx
      rcases (Table.mem_insert hmk).mp hx with hx | rfl
      · exact .inr ⟨x, hx, rfl⟩
      · exact .inl rfl
    · intro provider' uid'
      rw [Table.first?_insert]
      by_cases heq : provider' = provider ∧ uid' = uid
      · obtain ⟨rfl, rfl⟩ := heq
        have hlive : UserRepository.liveOauth provider' uid'
            (UserRepository.newOauth id provider' uid' email s.oauth.next) = true :=
          liveOauth_iff.mpr ⟨rfl, rfl, rfl⟩
        rw [hnone, Option.none_or, if_pos hlive, Option.map_some, if_pos ⟨rfl, rfl⟩]
        rfl
      · rw [if_neg heq, if_neg, Option.or_none]
        intro hlive
        obtain ⟨hprovider, huid, -⟩ := liveOauth_iff.mp hlive
        exact heq ⟨hprovider.symm, huid.symm⟩
  next x hx =>
    obtain ⟨-, rfl⟩ := Prod.mk.inj (pure_eq_ok.mp h)
    obtain ⟨hmem, hlive⟩ := Table.first?_mem hx
    refine ⟨rfl, hfound, ?_, ?_⟩
    · intro y hy
      obtain ⟨z, hz, rfl⟩ := (Table.mem_update (UserRepository.key_relinked id email)).mp hy
      split
      · exact .inl rfl
      · exact .inr ⟨z, hz, rfl⟩
    · intro provider' uid'
      rw [Table.first?_update (UserRepository.key_relinked id email) (fun _ => rfl), Option.map_map]
      by_cases heq : provider' = provider ∧ uid' = uid
      · obtain ⟨rfl, rfl⟩ := heq
        rw [hx, Option.map_some, Function.comp_apply, if_pos (show key x = x.id from rfl),
          if_pos ⟨rfl, rfl⟩]
        rfl
      · rw [if_neg heq]
        cases hother : s.oauth.first? (UserRepository.liveOauth provider' uid') with
        | none => rfl
        | some y =>
          rw [Option.map_some, Option.map_some, Function.comp_apply, if_neg]
          intro hkey
          obtain ⟨hmem', hlive'⟩ := Table.first?_mem hother
          obtain rfl : y = x := Table.eq_of_key_eq hmem' hmem hkey
          obtain ⟨hprovider, huid, -⟩ := liveOauth_iff.mp hlive
          obtain ⟨hprovider', huid', -⟩ := liveOauth_iff.mp hlive'
          exact heq ⟨hprovider'.symm.trans hprovider, huid'.symm.trans huid⟩

theorem findByOauth_eq (provider : AuthProvider) (uid : String) (s : SocialState) :
    UserRepository.findByOauth provider uid s =
      ((s.oauth.first? (UserRepository.liveOauth provider uid)).map fun x => x.userId).bind
        s.login.users.find? := by
  rw [UserRepository.findByOauth, Option.bind_map]
  rfl

theorem foreignKey_upsert (h : UserRepository.upsertOauth id provider uid email s = .ok ((), s'))
    (hs : Linked s) : Linked s' := by
  obtain ⟨hlogin, hfound, hrows, -⟩ := upsertOauth_cases h
  intro x hx
  rw [hlogin]
  rcases hrows x hx with rfl | ⟨y, hy, hid⟩
  · exact hfound
  · exact hid ▸ hs y hy

theorem linked_upsert (h : UserRepository.upsertOauth id A.provider A.uid email s = .ok ((), s'))
    (hu : A.user toLowerCase s = some id) : A.linked s' = some id := by
  obtain ⟨hlogin, -, -, hlinks⟩ := upsertOauth_cases h
  obtain ⟨u, hfind, hlive⟩ := user_live hu
  obtain ⟨-, hid⟩ := Table.find?_mem hfind
  rw [FirebaseAccount.linked, findByOauth_eq, hlinks, if_pos ⟨rfl, rfl⟩, Option.bind_some, hlogin, hfind,
    Option.filter_some, if_pos hlive, Option.map_some]
  exact congrArg some hid

theorem keepsUser_upsert (h : UserRepository.upsertOauth id provider uid email s = .ok ((), s'))
    (hu : A.provider = provider ∧ A.uid = uid → A.user toLowerCase s = some id) :
    KeepsUser toLowerCase A s s' := by
  obtain ⟨hlogin, -, -, hlinks⟩ := upsertOauth_cases h
  have howner : A.owner toLowerCase s' = A.owner toLowerCase s := by
    unfold FirebaseAccount.owner
    rw [hlogin]
  by_cases hown : A.provider = provider ∧ A.uid = uid
  · have huser := hu hown
    obtain ⟨rfl, rfl⟩ := hown
    have hlinked := linked_upsert h huser
    refine ⟨?_, fun u ho => howner.trans ho, ?_⟩
    · intro u hl
      rw [FirebaseAccount.user, hl, Option.some_or] at huser
      rw [hlinked, huser]
    · intro hn
      rw [FirebaseAccount.user, hn, Option.none_or] at huser
      exact .inr (hlinked.trans (howner.trans huser).symm)
  · refine KeepsUser.of_eq ?_ howner
    rw [FirebaseAccount.linked, FirebaseAccount.linked, findByOauth_eq, findByOauth_eq, hlinks, if_neg hown,
      hlogin]

end Upsert

/-! ### One login -/

section Logins

variable {s₀ : SocialState} {own : Prop} {α : Type}

/-- The foreign key holds, and the user that the account had at the start is still its user. -/
def socialWorld (toLowerCase : String → String) (A : FirebaseAccount) (s₀ : SocialState) :
    World SocialCall LoginInput SocialState where
  ok _ _ _ := True
  inv s := Linked s ∧ KeepsUser toLowerCase A s₀ s

def socialDiscipline (toLowerCase : String → String) (A : FirebaseAccount) :
    Discipline SocialCall LoginInput SocialState where
  rely := KeepsUser toLowerCase A
  guar _ _ := KeepsUser toLowerCase A
  refl := KeepsUser.refl
  trans := KeepsUser.trans

abbrev SocialHolds (toLowerCase : String → String) (A : FirebaseAccount) (s₀ : SocialState)
    (Q : Except Failure α → SocialState → Prop) (p : SocialProg α) (s : SocialState) : Prop :=
  Holds (socialWorld toLowerCase A s₀) (socialDiscipline toLowerCase A) (socialDiscipline toLowerCase A) Q p s

/-- Every call keeps the foreign key and the user of the account. -/
def Keeps (toLowerCase : String → String) (A : FirebaseAccount) (p : SocialProg α) : Prop :=
  p.Every (fun _ _ s => Linked s) fun _ _ s s' => Linked s' ∧ KeepsUser toLowerCase A s s'

theorem Keeps.holds {p : SocialProg α} {P : SocialState → Prop} (hp : Keeps toLowerCase A p)
    (hP : ∀ s s', KeepsUser toLowerCase A s s' → P s → P s') (hs : P s) :
    SocialHolds toLowerCase A s₀ (fun _ s => P s) p s := by
  refine Holds.of_every hP (hp.imp ?_ ?_) hs
  · exact fun _ _ _ ho => ho.2.1
  · rintro c i t t' ho ⟨hlinked, hsteady⟩
    exact ⟨⟨hlinked, ho.2.2.trans hsteady⟩, hsteady, hsteady, hP t t' hsteady⟩

theorem keeps_onLogin {p : LoginProg α} (hp : KeepsContacts p) : Keeps toLowerCase A (onLogin p) := by
  refine (hp.zoom fun _ _ _ _ => trivial).mono ?_
  rintro c i t t' hlinked ⟨l, s', -, hsame, rfl⟩
  have hcontacts : SameContacts t.login.users ({ t with login := s' } : SocialState).login.users := hsame
  exact ⟨hcontacts.foreignKey rfl hlinked, KeepsUser.of_eq (hcontacts.linked rfl) hcontacts.owner⟩

theorem keeps_read {β : Type} {c : SocialCall} {f : LoginInput → SocialState → β} :
    Keeps toLowerCase A (query c f) :=
  every_query fun _ s hlinked => ⟨hlinked, KeepsUser.refl s⟩

/-- The lookup by email and phone finds the user of the account, unless the account is linked to another. -/
def Owns (toLowerCase : String → String) (A : FirebaseAccount) (own : Prop) (id : ℕ) (s : SocialState) : Prop :=
  own → A.user toLowerCase s = some id

def Looked (toLowerCase : String → String) (A : FirebaseAccount) (own : Prop)
    (r : Except Failure (Option Account × ℕ)) (s : SocialState) : Prop :=
  (own → Unclaimed toLowerCase A s) ∧
    ∀ user n, r = .ok (some user, n) → Owns toLowerCase A own user.id s

theorem Owns.kept (h : Owns toLowerCase A own id s) (hs : KeepsUser toLowerCase A s s') :
    Owns toLowerCase A own id s' :=
  fun ho => hs.user (h ho)

theorem looked_none {r : Except Failure (Option Account × ℕ)} (h : own → Unclaimed toLowerCase A s)
    (hr : ∀ user n, r ≠ .ok (some user, n)) (hs : KeepsUser toLowerCase A s s') :
    Looked toLowerCase A own r s' :=
  ⟨fun ho => (h ho).kept hs, fun user n heq => (hr user n heq).elim⟩

theorem lookup_holds {c : SocialCall} {f : LoginInput → SocialState → Option Account × ℕ}
    (hun : own → Unclaimed toLowerCase A s)
    (hf : ∀ i t user, own → (f i t).1 = some user → A.owner toLowerCase t = some user.id) :
    SocialHolds toLowerCase A s₀ (Looked toLowerCase A own) (query c f) s := by
  intro t ht hi i _
  refine ⟨hi, KeepsUser.refl t, fun t' ht' _ => ?_⟩
  have hun' : own → Unclaimed toLowerCase A t' := fun ho => (hun ho).kept (ht.trans ht')
  refine ⟨hun', fun user n hr ho => (hun' ho).user (ht'.owner _ (hf i t user ho ?_))⟩
  cases hfails : i.fails with
  | true => simp [hfails] at hr
  | false =>
    have hread : f i t = (some user, n) := by simpa [hfails] using hr
    rw [hread]

theorem lookupEmail_holds {email : Option String} (hun : own → Unclaimed toLowerCase A s)
    (hemail : own → email = A.email) :
    SocialHolds toLowerCase A s₀ (Looked toLowerCase A own) (lookupEmail toLowerCase now email) s := by
  unfold lookupEmail
  split
  · exact fun t ht _ => looked_none hun (fun _ _ h => by cases h) ht
  next e he =>
    refine lookup_holds hun fun i t user ho hfound => ?_
    rw [FirebaseAccount.owner, ← hemail ho, he]
    exact congrArg (Option.map fun u => u.id) hfound

theorem lookupMobile_holds {mobile : Option String} (hone : A.OneContact)
    (hun : own → Unclaimed toLowerCase A s) (hphone : own → mobile = A.phone) :
    SocialHolds toLowerCase A s₀ (Looked toLowerCase A own) (lookupMobile now mobile) s := by
  unfold lookupMobile
  split
  · exact fun t ht _ => looked_none hun (fun _ _ h => by cases h) ht
  next phone htruthy =>
    refine lookup_holds hun fun i t user ho hfound => ?_
    have hphone' : truthy A.phone = some phone := hphone ho ▸ htruthy
    have hnone : truthy A.email = none := by
      rw [FirebaseAccount.OneContact, hphone', Option.isSome_some, ne_eq, Bool.not_eq_true,
        Option.isSome_eq_false_iff, Option.isNone_iff_eq_none] at hone
      exact hone
    rw [FirebaseAccount.owner, hnone, hphone']
    exact congrArg (Option.map fun u => u.id) hfound

structure FirebaseAccount.Of (A : FirebaseAccount) (v : VerifiedFirebaseIdentity) : Prop where
  provider : mapFirebaseProvider v.signInProvider = A.provider
  uid : v.uid = A.uid

structure FirebaseAccount.Carries (A : FirebaseAccount) (v : VerifiedFirebaseIdentity) : Prop where
  email : v.email = A.email
  phone : v.phone = A.phone

theorem findContact_holds (hone : A.OneContact) (hv : A.Of v → A.Carries v)
    (hun : A.Of v → Unclaimed toLowerCase A s) (hi : (socialWorld toLowerCase A s₀).inv s) :
    SocialHolds toLowerCase A s₀ (Looked toLowerCase A (A.Of v)) (findContact toLowerCase now v) s := by
  refine Holds.bind (Holds.mono ?_ (lookupEmail_holds hun fun ho => (hv ho).email)) hi
  rintro (e | ⟨found, n⟩) t hi' ⟨hun', hfound⟩
  · exact looked_none hun' (fun _ _ h => by cases h) (KeepsUser.refl t)
  cases found with
  | some user =>
    intro t' ht' _
    refine ⟨fun ho => (hun' ho).kept ht', ?_⟩
    intro user' n' hr
    obtain ⟨⟨⟩, -⟩ := Prod.mk.inj (Except.ok.inj hr)
    exact (hfound user n rfl).kept ht'
  | none => exact lookupMobile_holds hone hun' fun ho => (hv ho).phone

/-- What the part of a login that finds or creates its user ends with. -/
def Entered (toLowerCase : String → String) (A : FirebaseAccount) (own : Prop) (user : α → Account)
    (r : Except Failure α) (s : SocialState) : Prop :=
  ∀ a, r = .ok a → Owns toLowerCase A own (user a).id s

theorem entered_error {user : α → Account} (e : Failure) (s : SocialState) :
    Entered toLowerCase A own user (.error e) s := by
  intro a h
  cases h

theorem Entered.kept {user : α → Account} {r : Except Failure α}
    (h : Entered toLowerCase A own user r s) (hs : KeepsUser toLowerCase A s s') :
    Entered toLowerCase A own user r s' :=
  fun a ha => (h a ha).kept hs

theorem create_keepsUser (hi : (socialWorld toLowerCase A s₀).inv s) {u : NewUser}
    (h : UserRepository.create u now s.login = .ok (a, l')) :
    (socialWorld toLowerCase A s₀).inv { s with login := l' } ∧
      KeepsUser toLowerCase A s { s with login := l' } := by
  obtain ⟨-, rfl, -⟩ := createUser_cases h
  have hsteady : KeepsUser toLowerCase A s (withUser u now s) := keepsUser_withUser u hi.1
  exact ⟨⟨foreignKey_withUser u hi.1, hi.2.trans hsteady⟩, hsteady⟩

theorem findAgain_holds (hone : A.OneContact) (hv : A.Of v → A.Carries v)
    (hun : A.Of v → Unclaimed toLowerCase A s) (hi : (socialWorld toLowerCase A s₀).inv s) :
    SocialHolds toLowerCase A s₀ (Entered toLowerCase A (A.Of v) Prod.fst) (findAgain toLowerCase v) s := by
  refine Holds.bind (Holds.mono ?_ (findContact_holds hone hv hun hi)) hi
  rintro (e | ⟨found, n⟩) t - hlooked
  · exact entered_error e t
  refine Holds.orThrowBind (fun user hfound t' ht' _ => ?_) fun _ _ _ _ => entered_error _ _
  subst hfound
  intro a ha
  obtain rfl := Except.ok.inj ha
  exact (hlooked.2 user n rfl).kept ht'

theorem createOrFind_holds (hone : A.OneContact) (hv : A.Of v → A.Carries v)
    (hun : A.Of v → Unclaimed toLowerCase A s) (hi : (socialWorld toLowerCase A s₀).inv s) :
    SocialHolds toLowerCase A s₀ (Entered toLowerCase A (A.Of v) Prod.fst) (createOrFind toLowerCase v) s := by
  rw [createOrFind, Prog.tryCatch_eq]
  refine Holds.tryCatch ?_ hi
  apply holds_atomicBind
  intro t ht hi i _
  refine ⟨KeepsUser.refl t, ?_, ?_⟩
  · intro e t' _ ht' hi'
    exact findAgain_holds hone hv (fun ho => (hun ho).kept (ht.trans ht')) hi'
  intro user u _ hu
  obtain ⟨l, hcreate, rfl⟩ := onUsers_eq_ok hu
  obtain ⟨hinv, hsteady⟩ := create_keepsUser hi hcreate
  refine ⟨hinv, hsteady, fun t' ht' _ t'' ht'' _ => ?_⟩
  rintro _ ⟨⟩ ho
  have hun' : Unclaimed toLowerCase A { t with login := l } := (hun ho).kept (ht.trans hsteady)
  have howner := owner_created hone (hv ho).email (hv ho).phone hcreate
  exact (ht'.trans ht'').user (hun'.user howner)

theorem signUp_holds (hone : A.OneContact) (hv : A.Of v → A.Carries v)
    (hun : A.Of v → Unclaimed toLowerCase A s) (hi : (socialWorld toLowerCase A s₀).inv s) :
    SocialHolds toLowerCase A s₀ (Entered toLowerCase A (A.Of v) fun u => u) (signUp toLowerCase v) s := by
  refine Holds.bind (Holds.mono ?_ (createOrFind_holds hone hv hun hi)) hi
  rintro (e | ⟨user, created⟩) t hi' hentered
  · exact entered_error e t
  have hgrant : Keeps toLowerCase A (grantRole user.id created) := by
    unfold grantRole
    split
    · exact keeps_read
    · trivial
  have howns : Owns toLowerCase A (A.Of v) user.id t := hentered _ rfl
  refine Holds.bind (Holds.mono ?_ (hgrant.holds (fun _ _ hs h => h.kept hs) howns)) hi'
  rintro (e | _) t' - howns'
  · exact entered_error e t'
  · rintro t'' ht'' - _ ⟨⟩
    exact howns'.kept ht''

theorem contacts_keepsUser (hi : (socialWorld toLowerCase A s₀).inv s)
    (h : SameContacts s.login.users l'.users) :
    (socialWorld toLowerCase A s₀).inv { s with login := l' } ∧
      KeepsUser toLowerCase A s { s with login := l' } := by
  have hcontacts : SameContacts s.login.users ({ s with login := l' } : SocialState).login.users := h
  have hsteady : KeepsUser toLowerCase A s { s with login := l' } :=
    KeepsUser.of_eq (hcontacts.linked rfl) hcontacts.owner
  exact ⟨⟨hcontacts.foreignKey rfl hi.1, hi.2.trans hsteady⟩, hsteady⟩

theorem welcomeBack_holds {user : Account} (howns : Owns toLowerCase A own user.id s) :
    SocialHolds toLowerCase A s₀ (Entered toLowerCase A own fun u => u) (welcomeBack user v m now) s := by
  simp only [welcomeBack, assertAccountAccessible, Prog.bind_eq, Prog.bind_assoc]
  apply Holds.ensureBind _ fun _ _ _ _ => entered_error _ _
  intro _
  apply Holds.ensureBind _ fun _ _ _ _ => entered_error _ _
  intro _
  apply holds_atomic
  intro t ht hi i _
  refine ⟨KeepsUser.refl t, fun _ _ _ _ _ => entered_error _ _, ?_⟩
  intro user' u _ hu
  obtain ⟨l, hwrite, rfl⟩ := onUsers_eq_ok hu
  obtain ⟨hinv, hsteady⟩ := contacts_keepsUser hi (SameContacts.write hwrite fun _ => rfl)
  refine ⟨hinv, hsteady, fun t' ht' _ => ?_⟩
  rintro _ ⟨⟩
  obtain ⟨r, hr, rfl, -⟩ := write_cases hwrite
  have hid : r.id = user.id := (Table.find?_mem hr).2
  have howns' : Owns toLowerCase A own user.id t' := howns.kept ((ht.trans hsteady).trans ht')
  exact hid ▸ howns'

/-- What is known of an account once its user has been looked up. -/
def Found (toLowerCase : String → String) (A : FirebaseAccount) (own : Prop) (found : Option Account)
    (s : SocialState) : Prop :=
  match found with
  | some user => Owns toLowerCase A own user.id s
  | none => own → Unclaimed toLowerCase A s

theorem Found.kept {found : Option Account} (h : Found toLowerCase A own found s)
    (hs : KeepsUser toLowerCase A s s') : Found toLowerCase A own found s' := by
  cases found with
  | some user => exact Owns.kept h hs
  | none => exact fun ho => (h ho).kept hs

theorem findUser_holds (hone : A.OneContact) (hv : A.Of v → A.Carries v)
    (hi : (socialWorld toLowerCase A s₀).inv s) {linked : Option Account}
    (hlinked : Found toLowerCase A (A.Of v) linked s) :
    SocialHolds toLowerCase A s₀
      (fun r s => ∀ found n, r = .ok (found, n) → Found toLowerCase A (A.Of v) found s)
      (findUser toLowerCase v now linked) s := by
  cases linked with
  | some user =>
    rintro t ht - _ _ ⟨⟩
    exact hlinked.kept ht
  | none =>
    refine Holds.mono ?_ (findContact_holds hone hv hlinked hi)
    rintro _ t - ⟨hun, hlooked⟩ (_ | user) n rfl
    · exact hun
    · exact hlooked user n rfl

theorem enter_holds (hone : A.OneContact) (hv : A.Of v → A.Carries v)
    (hi : (socialWorld toLowerCase A s₀).inv s) {found : Option Account}
    (hfound : Found toLowerCase A (A.Of v) found s) :
    SocialHolds toLowerCase A s₀ (Entered toLowerCase A (A.Of v) fun u => u)
      (enter toLowerCase v m now found) s := by
  cases found with
  | some user => exact welcomeBack_holds hfound
  | none => exact signUp_holds hone hv hfound hi

def LinkedTo (A : FirebaseAccount) (id : ℕ) (s : SocialState) : Prop :=
  A.provider = .google ∨ A.provider = .apple → A.linked s = some id

theorem LinkedTo.kept (h : LinkedTo A id s) (hs : KeepsUser toLowerCase A s s') : LinkedTo A id s' :=
  fun hp => hs.linked id (h hp)

theorem linkOauth_holds (howns : Owns toLowerCase A (A.Of v) id s) :
    SocialHolds toLowerCase A s₀
      (fun r s => r = .ok () → Owns toLowerCase A (A.Of v) id s ∧ (A.Of v → LinkedTo A id s))
      (linkOauth toLowerCase v id) s := by
  dsimp only [linkOauth]
  split
  next =>
    apply holds_atomic
    intro t ht hi i _
    refine ⟨KeepsUser.refl t, ?_, ?_⟩
    · rintro _ _ _ _ _ ⟨⟩
    intro _ u _ hu
    have howns' := howns.kept ht
    have hsteady : KeepsUser toLowerCase A t u :=
      keepsUser_upsert hu fun hown => howns' ⟨hown.1.symm, hown.2.symm⟩
    refine ⟨⟨foreignKey_upsert hu hi.1, hi.2.trans hsteady⟩, hsteady, ?_⟩
    intro t' ht' _ _
    refine ⟨howns'.kept (hsteady.trans ht'), fun ho => ?_⟩
    rw [ho.provider, ho.uid] at hu
    exact fun _ => ht'.linked id (linked_upsert hu (howns' ho))
  next hnone =>
    intro t ht _ _
    refine ⟨howns.kept ht, fun ho hp => ?_⟩
    exact absurd (ho.provider ▸ hp) hnone

theorem yields_issueFor (user : Account) :
    (issueFor cfg v user m).Yields fun resp => resp.user.id = user.id ∧ resp.accessToken.sub = user.id := by
  have hpure : ∀ {α β : Type} (a : α) (f : α → LoginProg β), Prog.bind (pure a) f = f a := fun _ _ => rfl
  simp only [issueFor, issueAuthResponse, createRefreshPair, Prog.bind_eq, Prog.bind_assoc, hpure]
  iterate 9 refine Prog.yields_bind (fun _ => ?_) _
  exact ⟨rfl, rfl⟩

/-- A response is for the user of the account, and an account of Google or Apple is linked to that user. -/
def LoggedIn (toLowerCase : String → String) (A : FirebaseAccount) (resp : LoginResponse) (s : SocialState) :
    Prop :=
  A.user toLowerCase s = some resp.user.id ∧ resp.accessToken.sub = resp.user.id ∧
    LinkedTo A resp.user.id s

def Answered (toLowerCase : String → String) (A : FirebaseAccount) (own : Prop)
    (r : Except Failure LoginResponse) (s : SocialState) : Prop :=
  ∀ resp, r = .ok resp → own → LoggedIn toLowerCase A resp s

theorem answered_error (e : Failure) (s : SocialState) : Answered toLowerCase A own (.error e) s := by
  intro resp h
  cases h

theorem Answered.kept {r : Except Failure LoginResponse} (h : Answered toLowerCase A own r s)
    (hs : KeepsUser toLowerCase A s s') : Answered toLowerCase A own r s' := by
  intro resp hr ho
  obtain ⟨huser, hsub, hlinked⟩ := h resp hr ho
  exact ⟨hs.user huser, hsub, hlinked.kept hs⟩

theorem loginAs_holds (hone : A.OneContact) (hv : A.Of v → A.Carries v) :
    SocialHolds toLowerCase A s₀ (Answered toLowerCase A (A.Of v)) (loginAs cfg toLowerCase v m) s := by
  apply holds_queryBind
  intro t ht hi i _
  refine ⟨KeepsUser.refl t, fun _ _ _ => answered_error _ _, fun _ => ?_⟩
  have hlinked : Found toLowerCase A (A.Of v)
      ((UserRepository.findByOauth (mapFirebaseProvider v.signInProvider) v.uid t).filter live) t := by
    cases hread : (UserRepository.findByOauth (mapFirebaseProvider v.signInProvider) v.uid t).filter live with
    | none =>
      intro ho
      rw [ho.provider, ho.uid] at hread
      exact .inl (congrArg (Option.map fun u : Account => u.id) hread)
    | some user =>
      intro ho
      rw [ho.provider, ho.uid] at hread
      have hl : A.linked t = some user.id := congrArg (Option.map fun u : Account => u.id) hread
      rw [FirebaseAccount.user, hl, Option.some_or]
  refine Holds.bind (Holds.mono ?_ (findUser_holds hone hv hi hlinked)) hi
  rintro (e | ⟨found, n⟩) t₁ hi₁ hfound
  · exact answered_error e t₁
  refine Holds.bind (Holds.mono ?_ (enter_holds hone hv hi₁ (hfound found n rfl))) hi₁
  rintro (e | user) t₂ hi₂ hentered
  · exact answered_error e t₂
  refine Holds.bind (Holds.mono ?_ (linkOauth_holds (hentered user rfl))) hi₂
  rintro (e | _) t₃ hi₃ hlink
  · exact answered_error e t₃
  have hissue : Keeps toLowerCase A (onLogin (issueFor cfg v user m)) :=
    keeps_onLogin (keepsContacts_issueFor user)
  have hkept : ∀ u u', KeepsUser toLowerCase A u u' →
      Owns toLowerCase A (A.Of v) user.id u ∧ (A.Of v → LinkedTo A user.id u) →
      Owns toLowerCase A (A.Of v) user.id u' ∧ (A.Of v → LinkedTo A user.id u') :=
    fun u u' hs h => ⟨h.1.kept hs, fun ho => (h.2 ho).kept hs⟩
  refine Holds.mono ?_ ((hissue.holds hkept (hlink rfl)).yields (yields_issueFor user).zoom)
  rintro r t₄ - ⟨hyields, howns, hlinked⟩ resp hr ho
  obtain ⟨hid, hsub⟩ := hyields resp hr
  rw [LoggedIn, hid]
  exact ⟨howns ho, hsub, hlinked ho⟩

/-- What is known at the end of a request: of a login, if its token is one of the account. -/
def SocialRequest.Ends (fb : FirebaseConfig) (toLowerCase : String → String) (A : FirebaseAccount)
    (q : SocialRequest) (r : Except Failure LoginResponse) (s : SocialState) : Prop :=
  match q with
  | .firebase idToken _ =>
    Answered toLowerCase A (∀ v now, fb.identify idToken now = some v → A.Of v) r s
  | .register _ _ => True

theorem loginWithFirebase_holds {idToken : String} (hone : A.OneContact)
    (hv : ∀ v now, fb.identify idToken now = some v → A.Of v → A.Carries v)
    (hi : (socialWorld toLowerCase A s₀).inv s) :
    SocialHolds toLowerCase A s₀
      (Answered toLowerCase A (∀ v now, fb.identify idToken now = some v → A.Of v))
      (loginWithFirebase cfg fb toLowerCase idToken m) s := by
  rw [loginWithFirebase, Prog.tryCatch_eq]
  refine Holds.tryCatch ?_ hi
  have hthrown : ∀ e t, Holds.Catch (socialWorld toLowerCase A s₀) (socialDiscipline toLowerCase A)
      (socialDiscipline toLowerCase A)
      (Answered toLowerCase A (∀ v now, fb.identify idToken now = some v → A.Of v))
      (fun e => throw (asAppException e)) (.error e) t :=
    fun e t t' _ _ => answered_error _ t'
  simp only [loginWithFirebaseInner, verifyIdToken, Prog.bind_eq, Prog.bind_assoc]
  apply Holds.ensureBind _ fun _ t _ _ => hthrown _ t
  intro _
  apply Holds.callBind
  intro t ht hi i _
  refine ⟨hi, KeepsUser.refl t, ?_⟩
  apply Holds.orThrowBind _ fun _ t _ _ => hthrown _ t
  intro v hread
  have hidentify : fb.identify idToken i.now = some v := by
    split at hread
    · cases hread
    · exact hread
  apply Holds.ensureBind _ fun _ t _ _ => hthrown _ t
  intro _
  refine Holds.mono ?_ (loginAs_holds hone (hv v i.now hidentify))
  rintro (e | resp) t' - hanswered
  · exact hthrown e t'
  · intro t'' ht'' _
    have hresp : Answered toLowerCase A (∀ v now, fb.identify idToken now = some v → A.Of v) (.ok resp) t' :=
      fun _ hr ho => hanswered _ hr (ho v i.now hidentify)
    exact hresp.kept ht''

/-! ### Registrations -/

theorem keeps_lookupEmail {email : Option String} :
    Keeps toLowerCase A (lookupEmail toLowerCase now email) := by
  unfold lookupEmail
  split
  · trivial
  · exact keeps_read

theorem keeps_lookupMobile {mobile : Option String} : Keeps toLowerCase A (lookupMobile now mobile) := by
  unfold lookupMobile
  split
  · trivial
  · exact keeps_read

theorem keeps_createAccount {input : RegisterInput} :
    Keeps toLowerCase A (createAccount cfg toLowerCase input m) := by
  apply keeps_read.bind
  intro passwordHash
  apply Prog.Every.bind
  · refine every_atomic (fun _ s hlinked => ⟨hlinked, KeepsUser.refl s⟩) fun i s user u hlinked _ hu => ?_
    obtain ⟨l, hcreate, rfl⟩ := onUsers_eq_ok hu
    obtain ⟨-, rfl, -⟩ := createUser_cases hcreate
    exact ⟨foreignKey_withUser _ hlinked, keepsUser_withUser _ hlinked⟩
  intro user
  apply keeps_read.bind
  intro _
  apply (keeps_onLogin keeps_query).bind
  intro _
  apply Prog.Every.bind
  · unfold sendVerification
    split
    · trivial
    · refine Prog.Every.tryCatch ?_ fun _ => trivial
      apply keeps_read.bind
      exact fun _ => keeps_read
  · exact fun _ => keeps_onLogin (keepsContacts_issueAuthResponse user)

theorem keeps_register {input : RegisterInput} : Keeps toLowerCase A (register cfg toLowerCase input m) := by
  apply (Prog.every_ensure _ _).bind
  intro _
  apply (Prog.every_ensure _ _).bind
  intro _
  apply keeps_lookupEmail.bind
  intro found
  apply (Prog.every_ensure _ _).bind
  intro _
  apply keeps_lookupMobile.bind
  intro found
  apply (Prog.every_ensure _ _).bind
  exact fun _ => keeps_createAccount

theorem request_holds (hone : A.OneContact) {q : SocialRequest}
    (hq : ∀ idToken m, q = .firebase idToken m → ∀ v now, fb.identify idToken now = some v →
      A.Of v → A.Carries v) (hi : (socialWorld toLowerCase A s₀).inv s) :
    SocialHolds toLowerCase A s₀ (q.Ends fb toLowerCase A) (q.prog cfg fb toLowerCase) s := by
  cases q with
  | firebase idToken m => exact loginWithFirebase_holds hone (hq idToken m rfl) hi
  | register input m =>
    have hkeeps : Keeps toLowerCase A (Auth.register cfg toLowerCase input m) := keeps_register
    exact hkeeps.holds (P := fun _ => True) (fun _ _ _ h => h) trivial

end Logins

/-! ### Whole runs -/

/-- Whatever logins and registrations run, in whatever order their calls come and whichever of them fail,
all logins with one account are logins of one user, the one that the account had before if it had one.  An
account of Google or Apple is linked to that user in the end. -/
theorem firebase_logins_agree (cfg : AuthConfig) (fb : FirebaseConfig) (toLowerCase : String → String)
    (A : FirebaseAccount) (requests : List SocialRequest) (s : SocialState)
    (sched : List (ℕ × LoginInput)) (hone : A.OneContact) (hlinked : Linked s)
    (htokens : ∀ idToken m, .firebase idToken m ∈ requests → ∀ v now, fb.identify idToken now = some v →
      A.Of v → A.Carries v) :
    ∃ user, (∀ id, A.user toLowerCase s = some id → user = id) ∧
      ∀ (j : ℕ) idToken m resp, requests[j]? = some (.firebase idToken m) →
        (∀ v now, fb.identify idToken now = some v → A.Of v) →
        ((socialPool cfg fb toLowerCase requests s).run sched).threads[j]? = some (.done (.ok resp)) →
        resp.user.id = user ∧ resp.accessToken.sub = user ∧
          (A.provider = .google ∨ A.provider = .apple →
            A.linked ((socialPool cfg fb toLowerCase requests s).run sched).state = some user) := by
  have hstart : (socialWorld toLowerCase A s).inv s := ⟨hlinked, KeepsUser.refl s⟩
  have hcompatible : ∀ {Q : ℕ → Except Failure LoginResponse → SocialState → Prop},
      (∀ j r s, requests.length ≤ j → Q j r s) →
      Pool.Compatible (socialWorld toLowerCase A s) (socialDiscipline toLowerCase A)
        (fun _ => socialDiscipline toLowerCase A) Q requests.length :=
    fun hQ => ⟨fun _ _ _ _ hg => hg, fun _ => rfl, hQ _⟩
  obtain ⟨⟨-, hsteady⟩, hanswers⟩ : (socialWorld toLowerCase A s).inv
      ((socialPool cfg fb toLowerCase requests s).run sched).state ∧ ∀ (j : ℕ) q r, requests[j]? = some q →
        ((socialPool cfg fb toLowerCase requests s).run sched).threads[j]? = some (.done r) →
        q.Ends fb toLowerCase A r ((socialPool cfg fb toLowerCase requests s).run sched).state := by
    refine Pool.run_answers (fun q => q.Ends fb toLowerCase A) hcompatible hstart ?_
      (Pool.admits_of_forall (fun _ _ _ => trivial) _ sched)
    intro j q hq _
    exact request_holds hone (fun idToken m heq => htokens idToken m (heq ▸ hq)) hstart
  refine ⟨(A.user toLowerCase ((socialPool cfg fb toLowerCase requests s).run sched).state).getD 0, ?_, ?_⟩
  · intro id hid
    rw [hsteady.user hid, Option.getD_some]
  · intro j idToken m resp hq hof hresp
    obtain ⟨huser, hsub, hlink⟩ := hanswers j _ _ hq hresp resp rfl hof
    rw [huser, Option.getD_some]
    exact ⟨rfl, hsub, hlink⟩

def googleAccount : FirebaseAccount where
  provider := .google
  uid := "g1"
  email := some "ada@example.com"

def googleTokens : FirebaseConfig where
  firebaseProjectId := some "shop"
  jwtVerify _ _ _ _ :=
    some { sub := some "g1", email := some "ada@example.com", signInProvider := some "google.com" }

def firstLogins : Pool SocialCall LoginInput SocialState Failure LoginResponse :=
  (socialPool plainConfig googleTokens (fun e => e) (List.replicate 2 (.firebase "token" {})) {}).run
    ((List.replicate 15 [0, 1]).flatten.map fun j => (j, { reply := { raw := toString j } }))

theorem firebase_logins_agree_two :
    (firstLogins.threads.map fun t => (t.isDone, t.hasThrown)) = [(true, false), (true, false)] ∧
      firstLogins.state.login.users.rows.length = 1 ∧
      ∃ user, ∀ (j : ℕ) resp, firstLogins.threads[j]? = some (.done (.ok resp)) → j < 2 →
        resp.user.id = user ∧ googleAccount.linked firstLogins.state = some user := by
  have htoken : ∀ idToken v now, googleTokens.identify idToken now = some v →
      v = ⟨"g1", some "ada@example.com", false, none, "google.com"⟩ := by
    intro idToken v now h
    have hread : googleTokens.identify idToken now =
        some ⟨"g1", some "ada@example.com", false, none, "google.com"⟩ := rfl
    exact Option.some.inj (h.symm.trans hread)
  obtain ⟨user, -, hall⟩ := firebase_logins_agree plainConfig googleTokens (fun e => e) googleAccount
    (List.replicate 2 (.firebase "token" {})) {}
    ((List.replicate 15 [0, 1]).flatten.map fun j => (j, { reply := { raw := toString j } }))
    (by unfold FirebaseAccount.OneContact; decide) (by intro x hx; cases hx)
    (by intro idToken m _ v now h _; obtain rfl := htoken _ _ _ h; exact ⟨rfl, rfl⟩)
  refine ⟨by decide +kernel, by decide +kernel, user, ?_⟩
  intro j resp hresp hj
  have hof : ∀ v now, googleTokens.identify "token" now = some v → googleAccount.Of v := by
    intro v now h
    obtain rfl := htoken _ _ _ h
    exact ⟨by decide, rfl⟩
  have hrequest : (List.replicate 2 (SocialRequest.firebase "token" {}))[j]? = some (.firebase "token" {}) := by
    rw [List.getElem?_replicate, if_pos hj]
  obtain ⟨hid, -, hlink⟩ := hall j "token" {} resp hrequest hof hresp
  exact ⟨hid, hlink (.inl rfl)⟩

end ElectronicsCart.Auth
