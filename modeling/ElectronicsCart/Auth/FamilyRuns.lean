import ElectronicsCart.Auth.Families

/-!
# Runs of concurrent refreshes and revocations

The invariant of `Families` along whole runs, and what follows: a token is exchanged
at most once, a family has two active tokens only while the rotation of the older one
is owed, and a revoked family stays without an active token.
-/

namespace ElectronicsCart.Auth

open Interleaving Relational

variable {cfg : AuthConfig} {p : Pool AuthCall (Input AuthReply) AuthState Failure
  (Option AuthTokensResponse)}

theorem families_step {s s' : AuthState} {lab : ℕ → Option AuthCall} {j : ℕ} {l : AuthCall}
    {i : Input AuthReply} {n : Option AuthCall} (h : Families s.tokens lab) (hl : lab j = some l)
    (hok : ExchangeIsFresh l i s) (he : Effect cfg l i s s' n) :
    Families s'.tokens (Function.update lab j n) := by
  have hquiet : l.isRotate = false → NotRotate n → s'.tokens = s.tokens →
      Families s'.tokens (Function.update lab j n) := by
    intro hr hn heq
    rw [heq]
    exact h.deactivate (deactivates_refl _) (fun _ _ _ _ _ hx => hx) (sameRotations_update hl hr hn)
  by_cases hp : l.plain = true
  · obtain ⟨hn, heq⟩ := (effect_plain hp).mp he
    exact hquiet (isRotate_of_plain hp) hn heq
  cases l with
  | create stored =>
    obtain ⟨hact, ⟨heq, rfl⟩ | ⟨hfresh, heq, rfl⟩⟩ := he
    · exact hquiet rfl notRotate_none heq
    · rw [heq]
      exact h.create hl hok hact hfresh
  | rotate a b =>
    obtain ⟨hn, ⟨-, hf | hnone⟩ | heq⟩ := he
    · exact absurd hf (ne_true_of_eq_false hok)
    · obtain ⟨ta, hta, -, -, rfl, -⟩ := h.pending hl
      exact absurd rfl (Table.find?_eq_none_iff.mp hnone ta hta)
    · rw [heq]
      exact h.rotate hl hn
  | revokeFamily f =>
    obtain ⟨hn, ⟨heq, -⟩ | heq⟩ := he
    · exact hquiet rfl hn heq
    · rw [heq]
      refine h.deactivate (deactivates_revokeWhere _ i s) ?_ (sameRotations_update hl rfl hn)
      intro t _ t' _ hf hx
      simpa [← hf] using hx
  | revokeAllForUser u =>
    obtain ⟨hn, ⟨heq, -⟩ | heq⟩ := he
    · exact hquiet rfl hn heq
    · rw [heq]
      refine h.deactivate (deactivates_revokeWhere _ i s) ?_ (sameRotations_update hl rfl hn)
      intro t ht t' ht' hf hx
      simpa [← h.users t ht t' ht' hf] using hx
  | _ => exact absurd rfl hp

theorem threads_follow {requests : List AuthRequest} {s : AuthState} :
    ∀ t ∈ (authPool cfg requests s).threads, t.Follow ExchangeIsFresh (Effect cfg) := by
  intro t ht
  obtain ⟨r, -, rfl⟩ := List.mem_map.mp ht
  exact (steady_request r).2.mono (fun _ _ _ _ => trivial) fun _ _ _ _ _ _ h => h

theorem families_init {requests : List AuthRequest} {s : AuthState} (hs : NewestActive s) :
    Families s.tokens (authPool cfg requests s).label? := by
  have hnone : ∀ j a b, (authPool cfg requests s).label? j ≠ some (.rotate a b) := by
    intro j a b hj
    rw [Pool.label?_eq] at hj
    obtain ⟨t, ht, hlab⟩ := Option.bind_eq_some_iff.mp hj
    obtain ⟨r, -, rfl⟩ := List.mem_map.mp (List.mem_of_getElem? ht)
    exact absurd ((steady_request r).1 _ hlab) (by simp [AuthCall.isRotate])
  obtain ⟨hhash, huser, hnew⟩ := hs
  refine ⟨hhash, huser, ?_, ?_, ?_, ?_⟩
  · intro t ht t' ht' ha hf hlt
    exact absurd (hnew t ht t' ht' ha hf) (by omega)
  · exact fun h => absurd h (hnone _ _ _)
  · exact fun h => absurd h (hnone _ _ _)
  · intro t ht t' ht' ha _ hf hlt
    exact absurd (hnew t ht t' ht' ha hf.symm) (by omega)

theorem families_run {requests : List AuthRequest} {s : AuthState}
    {sched : List (ℕ × Input AuthReply)} (hs : NewestActive s)
    (hok : (authPool cfg requests s).Admits ExchangeIsFresh sched) :
    Families ((authPool cfg requests s).run sched).state.tokens
        ((authPool cfg requests s).run sched).label? ∧
      ∀ t ∈ ((authPool cfg requests s).run sched).threads, t.Follow ExchangeIsFresh (Effect cfg) :=
  Pool.follow_run (fun s lab => Families s.tokens lab) families_step threads_follow
    (families_init hs) hok

theorem effect_cases {s s' : AuthState} {l : AuthCall} {i : Input AuthReply} {n : Option AuthCall}
    (he : Effect cfg l i s s' n) :
    (∃ X, Deactivates X s.tokens s'.tokens) ∨
      ∃ stored, l = .create stored ∧ stored.active = true ∧
        s'.tokens = s.tokens.insert (newToken cfg.hashToken stored.userId stored i) := by
  have hsame : s'.tokens = s.tokens → ∃ X, Deactivates X s.tokens s'.tokens := by
    intro heq
    rw [heq]
    exact ⟨_, deactivates_refl _⟩
  by_cases hp : l.plain = true
  · exact .inl (hsame ((effect_plain hp).mp he).2)
  cases l with
  | create stored =>
    obtain ⟨hact, ⟨heq, -⟩ | ⟨-, heq, -⟩⟩ := he
    · exact .inl (hsame heq)
    · exact .inr ⟨stored, rfl, hact, heq⟩
  | rotate a b =>
    obtain ⟨-, ⟨heq, -⟩ | heq⟩ := he
    · exact .inl (hsame heq)
    · exact .inl ⟨_, heq ▸ deactivates_rotate a b i.now s.tokens⟩
  | revokeFamily f =>
    obtain ⟨-, ⟨heq, -⟩ | heq⟩ := he
    · exact .inl (hsame heq)
    · exact .inl ⟨_, heq ▸ deactivates_revokeWhere _ i s⟩
  | revokeAllForUser u =>
    obtain ⟨-, ⟨heq, -⟩ | heq⟩ := he
    · exact .inl (hsame heq)
    · exact .inl ⟨_, heq ▸ deactivates_revokeWhere _ i s⟩
  | _ => exact absurd rfl hp

/-! ### One exchange -/

def Spent (tokenHash : String) (s : AuthState) : Prop :=
  ∃ t ∈ s.tokens.rows, t.tokenHash = tokenHash ∧ t.deleted = false ∧
    ∃ t' ∈ s.tokens.rows, t'.familyId = t.familyId ∧ t.id < t'.id

def Exchanges (tokenHash : String) (l : AuthCall) : Prop :=
  ∃ stored, l = .create stored ∧ stored.tokenHash = tokenHash ∧ stored.active = true

theorem deleted_of_active {t : RefreshToken} (h : t.active = true) : t.deleted = false := by
  simp only [RefreshToken.active, Bool.and_eq_true, Bool.not_eq_true'] at h
  exact h.2

theorem refresh_gated (refreshToken : String) :
    ((AuthRequest.refresh refreshToken).prog cfg).Gated ExchangeIsFresh
      (Exchanges (cfg.hashToken refreshToken)) (Spent (cfg.hashToken refreshToken)) := by
  simp only [AuthRequest.prog, refresh, Prog.bind_eq, Prog.bind_assoc]
  refine gated_queryBind fun i s _ => Prog.Gated.orThrowBind fun stored hfound => ?_
  obtain ⟨-, hstored⟩ := Table.first?_mem hfound
  simp only [Bool.and_eq_true, beq_iff_eq, Bool.not_eq_true'] at hstored
  split
  · rw [Prog.bind_assoc]
    exact gated_atomicBind fun _ _ _ _ _ _ _ => .inl trivial
  simp only [Prog.bind_assoc, assertAccountAccessible, Prog.bind_eq]
  refine Prog.Gated.ensureBind fun hactive => ?_
  refine gated_queryBind fun _ _ _ => Prog.Gated.orThrowBind fun user _ => ?_
  refine Prog.Gated.ensureBind fun _ => Prog.Gated.ensureBind fun _ => ?_
  refine gated_atomicBind ?_
  rintro i s ⟨created, raw⟩ s' hok - h
  refine .inr ⟨⟨stored, rfl, hstored.1, by simp [RefreshToken.active, hactive.1, hstored.2]⟩, ?_⟩
  cases hc : create cfg.hashToken user.id stored i s with
  | error e => simp [hc, Except.map] at h
  | ok r =>
    obtain ⟨row, s''⟩ := r
    simp only [hc, Except.map, Except.ok.injEq, Prod.mk.injEq] at h
    obtain ⟨-, rfl⟩ := h
    obtain ⟨-, -, htok⟩ := create_ok hc
    have hst := (Table.find?_mem hok.1).1
    rw [Spent, htok]
    refine ⟨stored, (Table.mem_insert _).mpr (.inl hst), hstored.1, hstored.2, _,
      (Table.mem_insert _).mpr (.inr rfl), rfl, s.tokens.fresh stored hst⟩

theorem spent_stable {s s' : AuthState} {l : AuthCall} {i : Input AuthReply} {n : Option AuthCall}
    {tokenHash : String} (he : Effect cfg l i s s' n) (h : Spent tokenHash s) :
    Spent tokenHash s' := by
  obtain ⟨t, ht, hh, hd, t', ht', hf, hlt⟩ := h
  rcases effect_cases he with ⟨X, g, hg, hgt⟩ | ⟨stored, -, -, heq⟩
  · obtain ⟨hid, hfam, -, hhash, hdel, -⟩ := hgt t
    obtain ⟨hid', hfam', -⟩ := hgt t'
    rw [Spent, hg]
    exact ⟨g t, List.mem_map_of_mem ht, by rw [hhash, hh], by rw [hdel, hd], g t',
      List.mem_map_of_mem ht', by rw [hfam, hfam', hf], by rwa [hid, hid']⟩
  · rw [Spent, heq]
    exact ⟨t, (Table.mem_insert _).mpr (.inl ht), hh, hd, t',
      (Table.mem_insert _).mpr (.inl ht'), hf, hlt⟩

theorem not_spent_of_fresh {s : AuthState} {lab : ℕ → Option AuthCall} {stored : RefreshToken}
    {i : Input AuthReply} (h : Families s.tokens lab) (hok : ExchangeIsFresh (.create stored) i s)
    (hact : stored.active = true) : ¬ Spent stored.tokenHash s := by
  rintro ⟨t, ht, hh, hd, t', ht', hf, hlt⟩
  obtain ⟨hfind, hsole⟩ := hok
  have hst := (Table.find?_mem hfind).1
  obtain rfl : t = stored := h.hashes t ht stored hst hd (deleted_of_active hact) hh
  have ha' := h.younger t ht t' ht' hact hf hlt
  have := hsole t' ht' ha' hf
  omega

theorem onceOnly_run {tokenHash : String} {J : ℕ → Prop} {sched : List (ℕ × Input AuthReply)}
    (hfam : Families p.state.tokens p.label?)
    (hfollow : ∀ t ∈ p.threads, t.Follow ExchangeIsFresh (Effect cfg))
    (honce : p.OnceOnly ExchangeIsFresh (Exchanges tokenHash) (Spent tokenHash) J)
    (hok : p.Admits ExchangeIsFresh sched) :
    (p.run sched).OnceOnly ExchangeIsFresh (Exchanges tokenHash) (Spent tokenHash) J := by
  induction sched generalizing p with
  | nil => exact honce
  | cons a rest ih =>
    rcases Pool.follow_step hfollow hok.1 with ⟨l, n, hl, ho, he, hlab, hfollow'⟩ | ⟨-, heq⟩
    · have hfam' : Families (p.step a.1 a.2).state.tokens (p.step a.1 a.2).label? := by
        rw [hlab]
        exact families_step hfam hl ho he
      refine ih hfam' hfollow' ?_ hok.2
      refine honce.step hok.1 hfollow ?_ (spent_stable he)
      rintro l' hl' ⟨stored, rfl, rfl, hact⟩
      rw [hl] at hl'
      cases hl'
      exact not_spent_of_fresh hfam ho hact
    · have hok' := hok.2
      rw [heq] at hok'
      rw [Pool.run, heq]
      exact ih hfam hfollow honce hok'

/-! ### Revoked families -/

theorem dead_step {s s' : AuthState} {l : AuthCall} {i : Input AuthReply} {n : Option AuthCall}
    {f : ℕ} (h : Dead s.tokens f) (hok : ExchangeIsFresh l i s) (he : Effect cfg l i s s' n) :
    Dead s'.tokens f := by
  rcases effect_cases he with ⟨X, hd⟩ | ⟨stored, rfl, hact, heq⟩
  · exact h.deactivates hd
  · rw [heq]
    intro t ht hf
    rcases (Table.mem_insert fun _ => by rfl).mp ht with ht | rfl
    · exact h t ht hf
    · have hst := (Table.find?_mem hok.1).1
      simp [h stored hst hf] at hact

theorem dead_revokeWhere {q : RefreshToken → Bool} {i : Input AuthReply} {s : AuthState} {f : ℕ}
    (h : ∀ t ∈ s.tokens.rows, t.familyId = f → q t = true) : Dead (revokeWhere q i s).tokens f := by
  obtain ⟨g, hg, hgt⟩ := deactivates_revokeWhere q i s
  intro t ht hf
  rw [hg] at ht
  obtain ⟨u, hu, rfl⟩ := List.mem_map.mp ht
  obtain ⟨-, hfam, -, -, -, hact⟩ := hgt u
  by_contra hne
  exact (hact.mp (by simpa using hne)).2 (h u hu (hfam ▸ hf))

/-- A revocation that took place leaves its families without an active token for the
rest of the run. -/
theorem dead_run {f j : ℕ} {i : Input AuthReply} {l : AuthCall}
    {after : List (ℕ × Input AuthReply)}
    (hfollow : ∀ t ∈ p.threads, t.Follow ExchangeIsFresh (Effect cfg))
    (hok : p.Admits ExchangeIsFresh ((j, i) :: after)) (hl : p.label? j = some l)
    (hdead : ∀ s' n, Effect cfg l i p.state s' n → Dead s'.tokens f) :
    Dead (p.run ((j, i) :: after)).state.tokens f := by
  rcases Pool.follow_step hfollow hok.1 with ⟨l', n, hl', -, he, -, hfollow'⟩ | ⟨hnone, -⟩
  · rw [hl] at hl'
    cases hl'
    exact (Pool.follow_run (fun s _ => Dead s.tokens f)
      (fun h _ ho he => dead_step h ho he) hfollow' (hdead _ n he) hok.2).1
  · rw [hl] at hnone
    cases hnone

/-! ### The three guarantees -/

theorem exchanged_once {requests : List AuthRequest} {s : AuthState}
    {sched : List (ℕ × Input AuthReply)} (hs : NewestActive s)
    (hok : (authPool cfg requests s).Admits ExchangeIsFresh sched) {j j' : ℕ} {raw raw' : String}
    {r r' : Option AuthTokensResponse} (hj : requests[j]? = some (.refresh raw))
    (hj' : requests[j']? = some (.refresh raw')) (hraw : cfg.hashToken raw = cfg.hashToken raw')
    (hne : j ≠ j') (hr : ((authPool cfg requests s).run sched).threads[j]? = some (.done (.ok r))) :
    ((authPool cfg requests s).run sched).threads[j']? ≠ some (.done (.ok r')) := by
  intro hr'
  let J := fun k : ℕ => ∃ x, requests[k]? = some (.refresh x) ∧ cfg.hashToken x = cfg.hashToken raw
  have hgated : ∀ k t, J k → (authPool cfg requests s).threads[k]? = some t →
      t.Gated ExchangeIsFresh (Exchanges (cfg.hashToken raw)) (Spent (cfg.hashToken raw)) := by
    rintro k t ⟨x, hx, hxr⟩ ht
    rw [authPool, List.getElem?_map, hx, Option.map_some, Option.some.injEq] at ht
    subst ht
    rw [← hxr]
    exact refresh_gated x
  have honce : (authPool cfg requests s).OnceOnly ExchangeIsFresh
      (Exchanges (cfg.hashToken raw)) (Spent (cfg.hashToken raw)) J :=
    ⟨fun k _ t _ hk _ _ ht _ => .inl (hgated k t hk ht), fun k t hk ht => .inl (hgated k t hk ht)⟩
  have hend := onceOnly_run (families_init hs) threads_follow honce hok
  exact (hend.excl j j' _ _ ⟨raw, hj, rfl⟩ ⟨raw', hj', hraw.symm⟩ hne hr hr').elim id id

/-- In every run of refreshes, password changes and family revocations in which each
new token is stored while the one it replaces is unchanged and alone in its family: no
token is exchanged twice, two tokens of a family are active only while the rotation of
the older is the next call of some thread (so never once all calls have ended), and a
revoked family has no active token from its revocation on. -/
theorem token_families (cfg : AuthConfig) (requests : List AuthRequest) (s : AuthState)
    (sched : List (ℕ × Input AuthReply)) (hs : NewestActive s)
    (hok : (authPool cfg requests s).Admits ExchangeIsFresh sched) :
    let final := (authPool cfg requests s).run sched
    (∀ (j j' : ℕ) (raw raw' : String) (r r' : Option AuthTokensResponse),
      requests[j]? = some (.refresh raw) → requests[j']? = some (.refresh raw') →
      cfg.hashToken raw = cfg.hashToken raw' → j ≠ j' →
      final.threads[j]? = some (.done (.ok r)) → final.threads[j']? ≠ some (.done (.ok r'))) ∧
    (∀ t ∈ final.state.tokens.rows, ∀ t' ∈ final.state.tokens.rows, t.active = true →
      t'.active = true → t.familyId = t'.familyId → t.id < t'.id →
      ∃ j, final.label? j = some (.rotate t.id t'.id)) ∧
    (final.quiescent = true → ∀ t ∈ final.state.tokens.rows, ∀ t' ∈ final.state.tokens.rows,
      t.active = true → t'.active = true → t.familyId = t'.familyId → t = t') ∧
    (∀ before j i after, sched = before ++ (j, i) :: after → i.fails = false →
      let p := (authPool cfg requests s).run before
      (∀ f, p.label? j = some (.revokeFamily f) → Dead final.state.tokens f) ∧
      ∀ u, p.label? j = some (.revokeAllForUser u) →
        ∀ t ∈ p.state.tokens.rows, t.userId = u → Dead final.state.tokens t.familyId) := by
  intro final
  have hfam := (families_run hs hok).1
  refine ⟨?_, hfam.owed, ?_, ?_⟩
  · intro j j' raw raw' r r' hj hj' hraw hne hr
    exact exchanged_once hs hok hj hj' hraw hne hr
  · intro hq t ht t' ht' ha ha' hf
    have hno : ∀ u ∈ final.state.tokens.rows, ∀ u' ∈ final.state.tokens.rows, u.active = true →
        u'.active = true → u.familyId = u'.familyId → ¬ u.id < u'.id := by
      intro u hu u' hu' hau hau' hfu hlt
      obtain ⟨j, hj⟩ := hfam.owed u hu u' hu' hau hau' hfu hlt
      rw [Pool.label?_of_quiescent hq j] at hj
      cases hj
    have h₁ := hno t ht t' ht' ha ha' hf
    have h₂ := hno t' ht' t ht ha' ha hf.symm
    exact Table.eq_of_key_eq ht ht' (by simp only [key_refreshToken]; omega)
  · rintro before j i after rfl hi p
    obtain ⟨hbefore, hafter⟩ := Pool.admits_append.mp hok
    obtain ⟨hfam', hfollow⟩ := families_run hs hbefore
    simp only [final, Pool.run_append]
    refine ⟨fun f hl => dead_run hfollow hafter hl ?_, fun u hl t ht hu =>
      dead_run hfollow hafter hl ?_⟩
    · rintro s' n ⟨-, ⟨-, hf⟩ | heq⟩
      · exact absurd hf (ne_true_of_eq_false hi)
      · rw [heq]
        exact dead_revokeWhere fun t _ hf => by simpa using hf
    · rintro s' n ⟨-, ⟨-, hf⟩ | heq⟩
      · exact absurd hf (ne_true_of_eq_false hi)
      · rw [heq]
        refine dead_revokeWhere fun t' ht' hf => ?_
        simpa [hu] using hfam'.users t' ht' t ht hf

/-- One user with one token, and a stand-in for the hash. -/
def oneToken : AuthState where
  users := Table.empty.insert fun n => { id := n, email := some "a@b.c", passwordHash := some "x" }
  tokens := Table.empty.insert fun n =>
    { id := n, userId := 0, tokenHash := "#r", familyId := 5, expiresAt := 1000, status := .active }
  sessions := Table.empty

def sampleConfig : AuthConfig := ⟨fun raw => "#" ++ raw, 900⟩

/-- The turns of a schedule; a call that draws a random token draws the given one. -/
def turnsDrawing (turns : List (ℕ × String)) : List (ℕ × Input AuthReply) :=
  turns.map fun t => (t.1, { reply := { raw := t.2, verified := true } })

/-- A refresh, a refresh with the new token, and a change of password. -/
def inTurn : List (ℕ × Input AuthReply) :=
  turnsDrawing [(0, ""), (0, ""), (0, "a"), (0, ""), (0, ""), (0, ""), (1, ""), (1, ""), (1, "b"),
    (1, ""), (1, ""), (1, ""), (2, ""), (2, ""), (2, "y"), (2, ""), (2, ""), (2, ""), (2, "")]

def inTurnRequests : List AuthRequest :=
  [.refresh "r", .refresh "a", .changePassword 0 "Abcdef1!" none]

theorem token_families_in_turn :
    NewestActive oneToken ∧ (authPool sampleConfig inTurnRequests oneToken).Admits ExchangeIsFresh inTurn ∧
      ((authPool sampleConfig inTurnRequests oneToken).run inTurn).quiescent = true ∧
      ∀ t ∈ ((authPool sampleConfig inTurnRequests oneToken).run inTurn).state.tokens.rows,
        ∀ t' ∈ ((authPool sampleConfig inTurnRequests oneToken).run inTurn).state.tokens.rows,
        t.active = true → t'.active = true → t.familyId = t'.familyId → t = t' :=
  ⟨by decide, by decide, by decide,
    (token_families sampleConfig inTurnRequests oneToken inTurn (by decide) (by decide)).2.2.1
      (by decide)⟩

/-- Two refreshes with the same token that both read it before either stores its own:
both return tokens, and the family is left with two active ones. -/
theorem token_exchanged_twice :
    let final := (authPool sampleConfig [.refresh "r", .refresh "r"] oneToken).run
      (turnsDrawing [(0, ""), (0, ""), (1, ""), (1, ""), (0, "a"), (0, ""), (0, ""), (0, ""),
        (1, "b"), (1, ""), (1, ""), (1, "")])
    NewestActive oneToken ∧ final.quiescent = true ∧
      (final.threads.map fun t => match t with
        | .done (.ok (some r)) => r.refreshToken
        | _ => "") = ["a", "b"] ∧
      (final.state.tokens.rows.filter fun t => t.active).map (fun t => (t.id, t.familyId)) =
        [(1, 5), (2, 5)] := by
  decide

end ElectronicsCart.Auth
