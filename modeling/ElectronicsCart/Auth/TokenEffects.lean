import ElectronicsCart.Auth.Refresh

/-!
# What the auth calls do to the token table

`Effect` says, for each repository call, how it changes `refresh_tokens` and whether a
rotation comes next; every call of `refresh`, `changePassword` and `revokeFamily` has
its effect (`steady_request`).
-/

namespace ElectronicsCart.Auth

open Interleaving Relational

def AuthCall.isRotate : AuthCall → Bool
  | .rotate _ _ => true
  | _ => false

def NotRotate (n : Option AuthCall) : Prop := ∀ c, n = some c → c.isRotate = false

theorem key_rotated (b : ℕ) (i : Input AuthReply) (t : RefreshToken) :
    key { t with status := .rotated, replacedById := some b, revokedAt := some i.now } = key t := rfl

/-- The effect of each call on the token table, with the label of the call after it. -/
def Effect (cfg : AuthConfig) :
    AuthCall → Input AuthReply → AuthState → AuthState → Option AuthCall → Prop
  | .create stored, i, s, s', n =>
    stored.active = true ∧
      ((s'.tokens = s.tokens ∧ n = none) ∨
        ((∀ t ∈ s.tokens.rows, t.deleted = false → t.tokenHash ≠ cfg.hashToken i.reply.raw) ∧
          s'.tokens = s.tokens.insert (newToken cfg.hashToken stored.userId stored i) ∧
          n = some (.rotate stored.id s.tokens.next)))
  | .rotate a b, i, s, s', n =>
    NotRotate n ∧ ((s'.tokens = s.tokens ∧ (i.fails = true ∨ s.tokens.find? a = none)) ∨
      s'.tokens = s.tokens.update a (fun t =>
        { t with status := .rotated, replacedById := some b, revokedAt := some i.now })
        (key_rotated b i))
  | .revokeFamily f, i, s, s', n =>
    NotRotate n ∧ ((s'.tokens = s.tokens ∧ i.fails = true) ∨
      s'.tokens = (revokeWhere (fun t => t.familyId == f) i s).tokens)
  | .revokeAllForUser u, i, s, s', n =>
    NotRotate n ∧ ((s'.tokens = s.tokens ∧ i.fails = true) ∨
      s'.tokens = (revokeWhere (fun t => t.userId == u) i s).tokens)
  | _, _, s, s', n => NotRotate n ∧ s'.tokens = s.tokens

theorem notRotate_none : NotRotate none := by simp [NotRotate]

theorem notRotate_some {c : AuthCall} (h : c.isRotate = false) : NotRotate (some c) := by
  rintro _ ⟨⟩
  exact h

theorem create_ok {hash : String → String} {userId : ℕ} {stored created : RefreshToken}
    {i : Input AuthReply} {s s' : AuthState}
    (h : create hash userId stored i s = .ok (created, s')) :
    (∀ t ∈ s.tokens.rows, t.deleted = false → t.tokenHash ≠ hash i.reply.raw) ∧
      created.id = s.tokens.next ∧
      s'.tokens = s.tokens.insert (newToken hash userId stored i) := by
  simp only [create, bind, Except.bind] at h
  split at h
  · cases h
  next hc =>
    obtain ⟨rfl, rfl⟩ := Prod.mk.inj (Except.ok.inj h)
    refine ⟨?_, rfl, rfl⟩
    intro t ht hd
    have hall := check_eq_ok.mp hc
    rw [List.all_eq_true] at hall
    simpa [hd] using hall t ht

theorem rotate_cases {a b : ℕ} {i : Input AuthReply} {s : AuthState}
    {r : Except Failure (Unit × AuthState)} (h : rotate a b i s = r) :
    (s.tokens.find? a = none ∧ ∃ e, r = .error e) ∨
      r = .ok ((), { s with tokens := s.tokens.update a fun t =>
        { t with status := .rotated, replacedById := some b, revokedAt := some i.now } }) := by
  cases hf : s.tokens.find? a with
  | none => exact .inl ⟨rfl, _, by rw [← h]; simp [rotate, hf, check, bind, Except.bind]; rfl⟩
  | some t => exact .inr (by rw [← h]; simp [rotate, hf, check, bind, Except.bind]; rfl)

variable {cfg : AuthConfig} {α β : Type}

/-- A program all of whose calls have their effect, and that does not start with a
rotation. -/
def Steady (cfg : AuthConfig) (p : AuthProg α) : Prop :=
  NotRotate p.label? ∧ p.Follow (fun _ _ _ => True) (Effect cfg)

theorem steady_done {r : Except Failure α} : Steady cfg (.done r : AuthProg α) :=
  ⟨notRotate_none, trivial⟩

theorem steady_ensureBind {c : Prop} [Decidable c] {e : Failure} {k : Unit → AuthProg α}
    (h : c → Steady cfg (k ())) : Steady cfg ((Prog.ensure c e).bind k) := by
  by_cases hc : c
  · rw [Prog.ensure, if_pos hc]
    exact h hc
  · rw [Prog.ensure, if_neg hc]
    exact steady_done

theorem steady_orThrowBind {o : Option β} {e : Failure} {k : β → AuthProg α}
    (h : ∀ b, o = some b → Steady cfg (k b)) : Steady cfg ((Prog.orThrow e o).bind k) := by
  cases o with
  | some b => exact h b rfl
  | none => exact steady_done

def AuthCall.plain : AuthCall → Bool
  | .create _ | .rotate _ _ | .revokeFamily _ | .revokeAllForUser _ => false
  | _ => true

theorem effect_plain {l : AuthCall} (hl : l.plain = true) {i : Input AuthReply} {s s' : AuthState}
    {n : Option AuthCall} : Effect cfg l i s s' n ↔ NotRotate n ∧ s'.tokens = s.tokens := by
  cases l <;> simp_all [AuthCall.plain, Effect]

theorem isRotate_of_plain {l : AuthCall} (hl : l.plain = true) : l.isRotate = false := by
  cases l <;> simp_all [AuthCall.plain, AuthCall.isRotate]

theorem steady_queryBind {l : AuthCall} {f : Input AuthReply → AuthState → β}
    {k : β → AuthProg α} (hl : l.plain = true) (h : ∀ i s, Steady cfg (k (f i s))) :
    Steady cfg ((query l f).bind k) := by
  refine ⟨notRotate_some (isRotate_of_plain hl), follow_queryBind fun i s _ => ?_⟩
  exact ⟨(effect_plain hl).mpr ⟨notRotate_none, rfl⟩, (effect_plain hl).mpr ⟨(h i s).1, rfl⟩, (h i s).2⟩

theorem steady_atomicBind {l : AuthCall} {f : Input AuthReply → AuthState → Except Failure (β × AuthState)}
    {k : β → AuthProg α} (hl : l.plain = true)
    (hf : ∀ i s b s', f i s = .ok (b, s') → s'.tokens = s.tokens) (h : ∀ b, Steady cfg (k b)) :
    Steady cfg ((atomic l f).bind k) := by
  refine ⟨notRotate_some (isRotate_of_plain hl), follow_atomicBind fun i s _ => ⟨fun _ _ => ?_, ?_⟩⟩
  · exact (effect_plain hl).mpr ⟨notRotate_none, rfl⟩
  · intro b s' _ hs
    exact ⟨(effect_plain hl).mpr ⟨(h b).1, hf i s b s' hs⟩, (h b).2⟩

theorem steady_revokeWhere {l : AuthCall} {p : RefreshToken → Bool} {k : Unit → AuthProg α}
    (hrotate : l.isRotate = false)
    (heffect : ∀ i s s' n, Effect cfg l i s s' n ↔ NotRotate n ∧
      ((s'.tokens = s.tokens ∧ i.fails = true) ∨ s'.tokens = (revokeWhere p i s).tokens))
    (h : Steady cfg (k ())) :
    Steady cfg ((atomic l fun i s => .ok ((), revokeWhere p i s)).bind k) := by
  refine ⟨notRotate_some hrotate, follow_atomicBind fun i s _ => ⟨?_, ?_⟩⟩
  · rintro e (hf | he)
    · exact (heffect _ _ _ _).mpr ⟨notRotate_none, .inl ⟨rfl, hf⟩⟩
    · cases he
  · rintro b s' - hs
    obtain ⟨-, rfl⟩ := Prod.mk.inj (Except.ok.inj hs)
    exact ⟨(heffect _ _ _ _).mpr ⟨h.1, .inr rfl⟩, h.2⟩

theorem steady_revokeFamily {f : ℕ} {k : Unit → AuthProg α} (h : Steady cfg (k ())) :
    Steady cfg ((revokeFamily f).bind k) :=
  steady_revokeWhere rfl (fun _ _ _ _ => Iff.rfl) h

theorem steady_revokeAllForUser {u : ℕ} {k : Unit → AuthProg α} (h : Steady cfg (k ())) :
    Steady cfg ((revokeAllForUser u).bind k) :=
  steady_revokeWhere rfl (fun _ _ _ _ => Iff.rfl) h

theorem finishRefresh_follow {user : User} {stored created : RefreshToken} {raw : String}
    {k : AuthTokensResponse → AuthProg α} (hk : ∀ r, Steady cfg (k r)) :
    ((finishRefresh cfg user stored created raw).bind k).Follow (fun _ _ _ => True)
      (Effect cfg) := by
  simp only [finishRefresh, Prog.bind_eq, Prog.bind_assoc]
  refine follow_atomicBind fun i s _ => ⟨?_, ?_⟩
  · rintro e (hf | he)
    · exact ⟨notRotate_none, .inl ⟨rfl, .inl hf⟩⟩
    · rcases rotate_cases he with ⟨hn, -⟩ | h
      · exact ⟨notRotate_none, .inl ⟨rfl, .inr hn⟩⟩
      · cases h
  · intro b s' _ h
    rcases rotate_cases h with ⟨-, e, he⟩ | h
    · cases he
    obtain ⟨-, rfl⟩ := Prod.mk.inj (Except.ok.inj h)
    suffices hrest : Steady cfg _ from ⟨⟨hrest.1, .inr rfl⟩, hrest.2⟩
    exact steady_queryBind rfl fun _ _ => steady_queryBind rfl fun _ _ => hk _

theorem steady_refresh {refreshToken : String} {k : AuthTokensResponse → AuthProg α}
    (hk : ∀ r, Steady cfg (k r)) : Steady cfg ((refresh cfg refreshToken).bind k) := by
  simp only [refresh, Prog.bind_eq, Prog.bind_assoc]
  refine steady_queryBind rfl fun i s => steady_orThrowBind fun stored hfound => ?_
  obtain ⟨-, hstored⟩ := Table.first?_mem hfound
  split
  · rw [Prog.bind_assoc]
    exact steady_revokeFamily steady_done
  simp only [Prog.bind_assoc, assertAccountAccessible, Prog.bind_eq]
  refine steady_ensureBind fun hactive => ?_
  refine steady_queryBind rfl fun i s => steady_orThrowBind fun user huser => ?_
  refine steady_ensureBind fun _ => steady_ensureBind fun _ => ?_
  have hact : stored.active = true := by
    simp only [Bool.and_eq_true] at hstored
    simp [RefreshToken.active, hactive.1, hstored.2]
  have hid : user.id = stored.userId := by
    have := (Table.first?_mem huser).2
    simp only [Bool.and_eq_true, beq_iff_eq] at this
    exact this.1
  refine ⟨notRotate_some rfl, follow_atomicBind fun i s _ => ⟨fun _ _ => ⟨hact, .inl ⟨rfl, rfl⟩⟩, ?_⟩⟩
  rintro ⟨created, raw⟩ s' - h
  cases hc : create cfg.hashToken user.id stored i s with
  | error e => simp [hc, Except.map] at h
  | ok r =>
    obtain ⟨row, s''⟩ := r
    simp only [hc, Except.map, Except.ok.injEq, Prod.mk.injEq] at h
    obtain ⟨⟨rfl, rfl⟩, rfl⟩ := h
    obtain ⟨hfresh, hnew, htok⟩ := create_ok hc
    rw [hid] at htok
    refine ⟨⟨hact, .inr ⟨hfresh, htok, ?_⟩⟩, finishRefresh_follow hk⟩
    rw [← hnew]
    rfl

theorem steady_changePassword {userId : ℕ} {newPassword : String} {keep : Option ℕ}
    {k : Unit → AuthProg α} (hk : Steady cfg (k ())) :
    Steady cfg ((changePassword userId newPassword keep).bind k) := by
  simp only [changePassword, Prog.bind_eq, Prog.bind_assoc]
  refine steady_queryBind rfl fun _ _ => steady_orThrowBind fun _ _ => ?_
  refine steady_queryBind rfl fun _ _ => steady_ensureBind fun _ => steady_ensureBind fun _ => ?_
  refine steady_queryBind rfl fun _ _ => steady_atomicBind rfl ?_ fun _ => ?_
  · intro i s b s' h
    simp only [updatePassword, bind, Except.bind] at h
    split at h
    · cases h
    · obtain ⟨-, rfl⟩ := Prod.mk.inj (Except.ok.inj h)
      rfl
  refine steady_revokeAllForUser (steady_atomicBind rfl ?_ fun _ => steady_queryBind rfl fun _ _ => hk)
  intro i s b s' h
  obtain ⟨-, rfl⟩ := Prod.mk.inj (Except.ok.inj h)
  rfl

theorem steady_request (r : AuthRequest) : Steady cfg (r.prog cfg) := by
  cases r with
  | refresh refreshToken => exact steady_refresh fun _ => steady_done
  | changePassword userId newPassword keep => exact steady_changePassword steady_done
  | revokeFamily f => exact steady_revokeFamily steady_done

end ElectronicsCart.Auth
