import ElectronicsCart.Auth.TokenEffects

/-!
# Token families under concurrency

`refresh` reads the presented token, checks it, stores the new token and rotates the
old one in separate repository calls.  The runs described here are those in which the
presented token is, when the new one is stored, still as it was read and the only
active token of its family (`ExchangeIsFresh`).
-/

namespace ElectronicsCart.Auth

open Interleaving Relational

/-- A new token is stored only while the token it replaces is unchanged since it was
read and the only active one of its family, and no rotation is refused. -/
def ExchangeIsFresh : AuthCall → Input AuthReply → AuthState → Prop
  | .create stored, _, s => s.tokens.find? stored.id = some stored ∧
      ∀ t ∈ s.tokens.rows, t.active = true → t.familyId = stored.familyId → t.id = stored.id
  | .rotate _ _, i, _ => i.fails = false
  | _, _, _ => True

instance (l : AuthCall) (i : Input AuthReply) (s : AuthState) : Decidable (ExchangeIsFresh l i s) := by
  cases l <;> unfold ExchangeIsFresh <;> infer_instance

/-- Tokens as a sequence of logins and refreshes leaves them: hashes are unique, a
family belongs to one user, and its active token is its newest one. -/
def NewestActive (s : AuthState) : Prop :=
  (∀ t ∈ s.tokens.rows, ∀ t' ∈ s.tokens.rows, t.deleted = false → t'.deleted = false →
    t.tokenHash = t'.tokenHash → t = t') ∧
  (∀ t ∈ s.tokens.rows, ∀ t' ∈ s.tokens.rows, t.familyId = t'.familyId → t.userId = t'.userId) ∧
  ∀ t ∈ s.tokens.rows, ∀ t' ∈ s.tokens.rows, t.active = true → t'.familyId = t.familyId →
    t'.id ≤ t.id

instance (s : AuthState) : Decidable (NewestActive s) := by
  unfold NewestActive
  infer_instance

def Dead (T : Table RefreshToken) (f : ℕ) : Prop := ∀ t ∈ T.rows, t.familyId = f → t.active = false

/-- The rotation of `a` by `b` is still owed: they are the two active tokens of their
family, or the family has been revoked meanwhile. -/
def Owes (T : Table RefreshToken) (a b : ℕ) : Prop :=
  ∃ ta ∈ T.rows, ∃ tb ∈ T.rows, ta.id = a ∧ tb.id = b ∧ a < b ∧ tb.familyId = ta.familyId ∧
    ((ta.active = true ∧ tb.active = true ∧
        ∀ t ∈ T.rows, t.active = true → t.familyId = ta.familyId → t.id = a ∨ t.id = b) ∨
      Dead T ta.familyId)

/-- The invariant of a run, on the tokens and the next calls of all threads. -/
structure Families (T : Table RefreshToken) (lab : ℕ → Option AuthCall) : Prop where
  hashes : ∀ t ∈ T.rows, ∀ t' ∈ T.rows, t.deleted = false → t'.deleted = false →
    t.tokenHash = t'.tokenHash → t = t'
  users : ∀ t ∈ T.rows, ∀ t' ∈ T.rows, t.familyId = t'.familyId → t.userId = t'.userId
  younger : ∀ t ∈ T.rows, ∀ t' ∈ T.rows, t.active = true → t'.familyId = t.familyId →
    t.id < t'.id → t'.active = true
  pending : ∀ {j a b}, lab j = some (.rotate a b) → Owes T a b
  distinct : ∀ {j j' a a' b}, lab j = some (.rotate a b) → lab j' = some (.rotate a' b) → j = j'
  owed : ∀ t ∈ T.rows, ∀ t' ∈ T.rows, t.active = true → t'.active = true →
    t.familyId = t'.familyId → t.id < t'.id → ∃ j, lab j = some (.rotate t.id t'.id)

/-! ### Deactivation -/

/-- Every row stays, with its status as the only change that matters: it is active
afterwards iff it was and `X` does not hold of it. -/
def Deactivates (X : RefreshToken → Prop) (T T' : Table RefreshToken) : Prop :=
  ∃ g : RefreshToken → RefreshToken, T'.rows = T.rows.map g ∧
    ∀ t, (g t).id = t.id ∧ (g t).familyId = t.familyId ∧ (g t).userId = t.userId ∧
      (g t).tokenHash = t.tokenHash ∧ (g t).deleted = t.deleted ∧
      ((g t).active = true ↔ t.active = true ∧ ¬ X t)

theorem deactivates_refl (T : Table RefreshToken) : Deactivates (fun _ => False) T T :=
  ⟨id, by simp, fun t => by simp⟩

theorem deactivates_revokeWhere (p : RefreshToken → Bool) (i : Input AuthReply) (s : AuthState) :
    Deactivates (fun t => p t = true) s.tokens (revokeWhere p i s).tokens := by
  refine ⟨_, rfl, fun t => ?_⟩
  by_cases h : (p t && t.active) = true
  · simp only [h, if_true, true_and]
    simp only [Bool.and_eq_true] at h
    simp [RefreshToken.active, h.1]
  · simp only [h]
    simp only [Bool.and_eq_true, not_and] at h
    simp only [Bool.false_eq_true, if_false, true_and]
    exact ⟨fun ha => ⟨ha, fun hp => h hp ha⟩, And.left⟩

theorem deactivates_rotate (a b now : ℕ) (T : Table RefreshToken) :
    Deactivates (fun t => t.id = a) T (T.update a fun t =>
      { t with status := .rotated, replacedById := some b, revokedAt := some now }) := by
  refine ⟨_, rfl, fun t => ?_⟩
  by_cases h : t.id = a
  · simp [h, RefreshToken.active]
  · simp [h]

theorem Dead.deactivates {X : RefreshToken → Prop} {T T' : Table RefreshToken} {f : ℕ}
    (h : Dead T f) (hd : Deactivates X T T') : Dead T' f := by
  obtain ⟨g, hg, hX⟩ := hd
  intro t ht hf
  rw [hg] at ht
  obtain ⟨u, hu, rfl⟩ := List.mem_map.mp ht
  obtain ⟨-, hfam, -, -, -, hact⟩ := hX u
  have hu' := h u hu (hfam ▸ hf)
  by_contra hne
  have := (hact.mp (by simpa using hne)).1
  simp [hu'] at this

section Deactivated

variable {X : RefreshToken → Prop} {T T' : Table RefreshToken} {lab : ℕ → Option AuthCall}
  {ta tb : RefreshToken}

theorem Deactivates.hashes (hd : Deactivates X T T') (h : Families T lab) :
    ∀ t ∈ T'.rows, ∀ t' ∈ T'.rows, t.deleted = false → t'.deleted = false →
      t.tokenHash = t'.tokenHash → t = t' := by
  obtain ⟨g, hg, hgt⟩ := hd
  intro t ht t' ht' hdel hdel' hh
  rw [hg] at ht ht'
  obtain ⟨u, hu, rfl⟩ := List.mem_map.mp ht
  obtain ⟨u', hu', rfl⟩ := List.mem_map.mp ht'
  obtain ⟨-, -, -, hhash, hdl, -⟩ := hgt u
  obtain ⟨-, -, -, hhash', hdl', -⟩ := hgt u'
  rw [h.hashes u hu u' hu' (hdl ▸ hdel) (hdl' ▸ hdel') (by rw [← hhash, hh, hhash'])]

theorem Deactivates.users (hd : Deactivates X T T') (h : Families T lab) :
    ∀ t ∈ T'.rows, ∀ t' ∈ T'.rows, t.familyId = t'.familyId → t.userId = t'.userId := by
  obtain ⟨g, hg, hgt⟩ := hd
  intro t ht t' ht' hf
  rw [hg] at ht ht'
  obtain ⟨u, hu, rfl⟩ := List.mem_map.mp ht
  obtain ⟨u', hu', rfl⟩ := List.mem_map.mp ht'
  obtain ⟨-, hfam, huser, -⟩ := hgt u
  obtain ⟨-, hfam', huser', -⟩ := hgt u'
  rw [huser, huser', h.users u hu u' hu' (by rw [← hfam, hf, hfam'])]

theorem Deactivates.owes_active (hd : Deactivates X T T') (hta : ta ∈ T.rows) (htb : tb ∈ T.rows)
    (hlt : ta.id < tb.id) (hfam : tb.familyId = ta.familyId) (hacta : ta.active = true)
    (hactb : tb.active = true) (hxa : ¬ X ta) (hxb : ¬ X tb)
    (hall : ∀ t ∈ T.rows, t.active = true → t.familyId = ta.familyId → t.id = ta.id ∨ t.id = tb.id) :
    Owes T' ta.id tb.id := by
  obtain ⟨g, hg, hgt⟩ := hd
  obtain ⟨hida, hfa, -, -, -, haa⟩ := hgt ta
  obtain ⟨hidb, hfb, -, -, -, hab⟩ := hgt tb
  refine ⟨g ta, hg ▸ List.mem_map_of_mem hta, g tb, hg ▸ List.mem_map_of_mem htb, hida, hidb, hlt,
    by rw [hfa, hfb, hfam], .inl ⟨haa.mpr ⟨hacta, hxa⟩, hab.mpr ⟨hactb, hxb⟩, ?_⟩⟩
  intro t ht hact hft
  rw [hg] at ht
  obtain ⟨u, hu, rfl⟩ := List.mem_map.mp ht
  obtain ⟨hidu, hfu, -, -, -, hau⟩ := hgt u
  rw [hidu]
  exact hall u hu (hau.mp hact).1 (by rw [← hfa, ← hft, hfu])

theorem Deactivates.owes_dead (hd : Deactivates X T T') (hta : ta ∈ T.rows) (htb : tb ∈ T.rows)
    (hlt : ta.id < tb.id) (hfam : tb.familyId = ta.familyId) (hdead : Dead T' ta.familyId) :
    Owes T' ta.id tb.id := by
  obtain ⟨g, hg, hgt⟩ := hd
  obtain ⟨hida, hfa, -⟩ := hgt ta
  obtain ⟨hidb, hfb, -⟩ := hgt tb
  exact ⟨g ta, hg ▸ List.mem_map_of_mem hta, g tb, hg ▸ List.mem_map_of_mem htb, hida, hidb, hlt,
    by rw [hfa, hfb, hfam], .inr (hfa ▸ hdead)⟩

end Deactivated

def SameRotations (lab lab' : ℕ → Option AuthCall) : Prop :=
  ∀ j a b, lab' j = some (.rotate a b) ↔ lab j = some (.rotate a b)

theorem sameRotations_update {lab : ℕ → Option AuthCall} {j : ℕ} {l : AuthCall}
    {n : Option AuthCall} (hl : lab j = some l) (hr : l.isRotate = false) (hn : NotRotate n) :
    SameRotations lab (Function.update lab j n) := by
  intro j' a b
  by_cases hj : j' = j
  · subst hj
    rw [Function.update_self, hl]
    constructor
    · intro h
      exact absurd (hn _ h) (by simp [AuthCall.isRotate])
    · intro h
      cases h
      simp [AuthCall.isRotate] at hr
  · rw [Function.update_of_ne hj]

theorem Families.deactivate {X : RefreshToken → Prop} {T T' : Table RefreshToken}
    {lab lab' : ℕ → Option AuthCall} (h : Families T lab) (hd : Deactivates X T T')
    (hX : ∀ t ∈ T.rows, ∀ t' ∈ T.rows, t.familyId = t'.familyId → X t → X t')
    (hlab : SameRotations lab lab') : Families T' lab' := by
  have hd' := hd
  obtain ⟨g, hg, hgt⟩ := hd
  have hmem : ∀ {t}, t ∈ T'.rows → ∃ u ∈ T.rows, g u = t := by
    intro t ht
    rw [hg] at ht
    exact List.mem_map.mp ht
  refine ⟨hd'.hashes h, hd'.users h, ?_, ?_, ?_, ?_⟩
  · intro t ht t' ht' hact hf hlt
    obtain ⟨u, hu, rfl⟩ := hmem ht
    obtain ⟨u', hu', rfl⟩ := hmem ht'
    obtain ⟨hid, hfam, -, -, -, ha⟩ := hgt u
    obtain ⟨hid', hfam', -, -, -, ha'⟩ := hgt u'
    rw [hfam, hfam'] at hf
    rw [hid, hid'] at hlt
    obtain ⟨hau, hXu⟩ := ha.mp hact
    exact ha'.mpr ⟨h.younger u hu u' hu' hau hf hlt, fun hx => hXu (hX u' hu' u hu hf hx)⟩
  · intro j a b hj
    obtain ⟨ta, hta, tb, htb, rfl, rfl, hlt, hfam, hst⟩ := h.pending ((hlab j a b).mp hj)
    rcases hst with ⟨hacta, hactb, hall⟩ | hdead
    · by_cases hx : X ta
      · refine hd'.owes_dead hta htb hlt hfam fun t ht hft => ?_
        obtain ⟨u, hu, rfl⟩ := hmem ht
        obtain ⟨-, hfu, -, -, -, hau⟩ := hgt u
        have hxu : X u := hX ta hta u hu (by rw [← hft, hfu]) hx
        by_contra hne
        exact (hau.mp (by simpa using hne)).2 hxu
      · exact hd'.owes_active hta htb hlt hfam hacta hactb hx
          (fun hxb => hx (hX tb htb ta hta hfam hxb)) hall
    · exact hd'.owes_dead hta htb hlt hfam (hdead.deactivates hd')
  · intro j j' a a' b hj hj'
    exact h.distinct ((hlab j a b).mp hj) ((hlab j' a' b).mp hj')
  · intro t ht t' ht' hact hact' hf hlt
    obtain ⟨u, hu, rfl⟩ := hmem ht
    obtain ⟨u', hu', rfl⟩ := hmem ht'
    obtain ⟨hid, hfam, -, -, -, ha⟩ := hgt u
    obtain ⟨hid', hfam', -, -, -, ha'⟩ := hgt u'
    rw [hfam, hfam'] at hf
    rw [hid, hid'] at hlt ⊢
    obtain ⟨j, hj⟩ := h.owed u hu u' hu' (ha.mp hact).1 (ha'.mp hact').1 hf hlt
    exact ⟨j, (hlab j _ _).mpr hj⟩

/-! ### Rotation and creation -/

theorem update_rotation {lab : ℕ → Option AuthCall} {j j' a b : ℕ} {n : Option AuthCall}
    (hn : NotRotate n) (h : Function.update lab j n j' = some (.rotate a b)) :
    j' ≠ j ∧ lab j' = some (.rotate a b) := by
  by_cases hj : j' = j
  · subst hj
    rw [Function.update_self] at h
    exact absurd (hn _ h) (by simp [AuthCall.isRotate])
  · rw [Function.update_of_ne hj] at h
    exact ⟨hj, h⟩

theorem Families.rotate {T : Table RefreshToken} {lab : ℕ → Option AuthCall} {j a b now : ℕ}
    {n : Option AuthCall} (h : Families T lab) (hj : lab j = some (.rotate a b))
    (hn : NotRotate n) :
    Families (T.update a fun t =>
      { t with status := .rotated, replacedById := some b, revokedAt := some now })
      (Function.update lab j n) := by
  obtain ⟨ta, hta, tb, htb, rfl, rfl, hlt, hfam, hst⟩ := h.pending hj
  have hd := deactivates_rotate ta.id tb.id now T
  obtain ⟨g, hg, hgt⟩ := deactivates_rotate ta.id tb.id now T
  have hmem : ∀ {t}, t ∈ (T.update ta.id fun t => { t with
      status := .rotated, replacedById := some tb.id, revokedAt := some now }).rows →
      ∃ u ∈ T.rows, g u = t := by
    intro t ht
    rw [hg] at ht
    exact List.mem_map.mp ht
  -- an active token next to the rotated one is its replacement
  have hnext : ∀ u ∈ T.rows, u.active = true → u.id ≠ ta.id → u.familyId = ta.familyId →
      u.id = tb.id := by
    intro u hu hact hne hf
    rcases hst with ⟨-, -, hall⟩ | hdead
    · exact (hall u hu hact hf).resolve_left hne
    · simp [hdead u hu hf] at hact
  refine ⟨hd.hashes h, hd.users h, ?_, ?_, ?_, ?_⟩
  · intro t ht t' ht' hact hf hlt'
    obtain ⟨u, hu, rfl⟩ := hmem ht
    obtain ⟨u', hu', rfl⟩ := hmem ht'
    obtain ⟨hid, hfu, -, -, -, ha⟩ := hgt u
    obtain ⟨hid', hfu', -, -, -, ha'⟩ := hgt u'
    rw [hfu, hfu'] at hf
    rw [hid, hid'] at hlt'
    obtain ⟨hau, hne⟩ := ha.mp hact
    have hau' := h.younger u hu u' hu' hau hf hlt'
    refine ha'.mpr ⟨hau', fun hx => ?_⟩
    have hfu : u.familyId = ta.familyId := by
      rw [← hf, Table.eq_of_key_eq hu' hta hx]
    have := hnext u hu hau hne hfu
    omega
  · intro j' a' b' hj'
    obtain ⟨hne, hlab⟩ := update_rotation hn hj'
    obtain ⟨sa, hsa, sb, hsb, rfl, rfl, hslt, hsf, hsst⟩ := h.pending hlab
    rcases hsst with ⟨hacta, hactb, hall⟩ | hdead
    · -- a live family has one owed rotation: the two would share their new token
      have hother : sa.familyId ≠ ta.familyId := by
        intro hff
        rcases hst with ⟨hta', htb', -⟩ | hdead
        · have h1 := hall ta hta hta' hff.symm
          have h2 := hall tb htb htb' (hfam.trans hff.symm)
          have hbb : sb.id = tb.id := by omega
          rw [hbb] at hlab
          exact hne (h.distinct hlab hj)
        · simp [hdead sa hsa hff] at hacta
      have hka : sa.id ≠ ta.id := fun hx => hother (by rw [Table.eq_of_key_eq hsa hta hx])
      have hkb : sb.id ≠ ta.id := fun hx => hother (by rw [← hsf, Table.eq_of_key_eq hsb hta hx])
      exact hd.owes_active hsa hsb hslt hsf hacta hactb hka hkb hall
    · exact hd.owes_dead hsa hsb hslt hsf (hdead.deactivates hd)
  · intro j₁ j₂ a₁ a₂ b' h₁ h₂
    exact h.distinct (update_rotation hn h₁).2 (update_rotation hn h₂).2
  · intro t ht t' ht' hact hact' hf hlt'
    obtain ⟨u, hu, rfl⟩ := hmem ht
    obtain ⟨u', hu', rfl⟩ := hmem ht'
    obtain ⟨hid, hfu, -, -, -, ha⟩ := hgt u
    obtain ⟨hid', hfu', -, -, -, ha'⟩ := hgt u'
    rw [hfu, hfu'] at hf
    rw [hid, hid'] at hlt' ⊢
    obtain ⟨hau, hne⟩ := ha.mp hact
    obtain ⟨j', hj'⟩ := h.owed u hu u' hu' hau (ha'.mp hact').1 hf hlt'
    refine ⟨j', ?_⟩
    have hjj : j' ≠ j := by
      rintro rfl
      rw [hj] at hj'
      simp only [Option.some.injEq, AuthCall.rotate.injEq] at hj'
      exact hne hj'.1.symm
    rw [Function.update_of_ne hjj, hj']

/-- The table has the row `new` more. -/
def Adds (new : RefreshToken) (T T' : Table RefreshToken) : Prop :=
  ∀ t, t ∈ T'.rows ↔ t ∈ T.rows ∨ t = new

section Added

variable {T T' : Table RefreshToken} {lab : ℕ → Option AuthCall} {stored new : RefreshToken}

theorem Adds.hashes (hadd : Adds new T T') (h : Families T lab)
    (hfresh : ∀ t ∈ T.rows, t.deleted = false → t.tokenHash ≠ new.tokenHash) :
    ∀ t ∈ T'.rows, ∀ t' ∈ T'.rows, t.deleted = false → t'.deleted = false →
      t.tokenHash = t'.tokenHash → t = t' := by
  intro t ht t' ht' hdel hdel' hh
  rcases (hadd t).mp ht with ht | rfl <;> rcases (hadd t').mp ht' with ht' | rfl
  · exact h.hashes t ht t' ht' hdel hdel' hh
  · exact absurd hh (hfresh t ht hdel)
  · exact absurd hh.symm (hfresh t' ht' hdel')
  · rfl

theorem Adds.users (hadd : Adds new T T') (h : Families T lab) (hst : stored ∈ T.rows)
    (hfam : new.familyId = stored.familyId) (huser : new.userId = stored.userId) :
    ∀ t ∈ T'.rows, ∀ t' ∈ T'.rows, t.familyId = t'.familyId → t.userId = t'.userId := by
  intro t ht t' ht' hf
  rcases (hadd t).mp ht with ht | rfl <;> rcases (hadd t').mp ht' with ht' | rfl
  · exact h.users t ht t' ht' hf
  · exact (h.users t ht stored hst (hf.trans hfam)).trans huser.symm
  · exact huser.trans (h.users stored hst t' ht' (hfam.symm.trans hf))
  · rfl

theorem Adds.younger (hadd : Adds new T T') (h : Families T lab) (hact : new.active = true)
    (hlast : ∀ t ∈ T.rows, t.id < new.id) :
    ∀ t ∈ T'.rows, ∀ t' ∈ T'.rows, t.active = true → t'.familyId = t.familyId →
      t.id < t'.id → t'.active = true := by
  intro t ht t' ht' ha hf hid
  rcases (hadd t').mp ht' with ht' | rfl
  · rcases (hadd t).mp ht with ht | rfl
    · exact h.younger t ht t' ht' ha hf hid
    · exact absurd hid (hlast t' ht').not_gt
  · exact hact

theorem Adds.owes_new (hadd : Adds new T T') (hst : stored ∈ T.rows) (hacts : stored.active = true)
    (hact : new.active = true) (hfam : new.familyId = stored.familyId)
    (hlast : ∀ t ∈ T.rows, t.id < new.id)
    (hsole : ∀ t ∈ T.rows, t.active = true → t.familyId = stored.familyId → t.id = stored.id) :
    Owes T' stored.id new.id := by
  refine ⟨stored, (hadd _).mpr (.inl hst), new, (hadd _).mpr (.inr rfl), rfl, rfl, hlast stored hst,
    hfam, .inl ⟨hacts, hact, ?_⟩⟩
  intro t ht ha hf
  rcases (hadd t).mp ht with ht | rfl
  · exact .inl (hsole t ht ha hf)
  · exact .inr rfl

/-- A rotation that is owed is owed in another family: the new token's has one active token. -/
theorem Adds.owes {a b : ℕ} (hadd : Adds new T T') (ho : Owes T a b) (hst : stored ∈ T.rows)
    (hacts : stored.active = true) (hfam : new.familyId = stored.familyId)
    (hsole : ∀ t ∈ T.rows, t.active = true → t.familyId = stored.familyId → t.id = stored.id) :
    Owes T' a b := by
  obtain ⟨ta, hta, tb, htb, rfl, rfl, hab, hfab, hst'⟩ := ho
  have hne : ta.familyId ≠ new.familyId := by
    rw [hfam]
    intro hff
    rcases hst' with ⟨ha, hb, -⟩ | hdead
    · have h1 := hsole ta hta ha hff
      have h2 := hsole tb htb hb (hfab.trans hff)
      omega
    · simp [hdead stored hst hff.symm] at hacts
  refine ⟨ta, (hadd _).mpr (.inl hta), tb, (hadd _).mpr (.inl htb), rfl, rfl, hab, hfab, ?_⟩
  rcases hst' with ⟨ha, hb, hall⟩ | hdead
  · refine .inl ⟨ha, hb, fun t ht hta' hf => ?_⟩
    rcases (hadd t).mp ht with ht | rfl
    · exact hall t ht hta' hf
    · exact absurd hf.symm hne
  · refine .inr fun t ht hf => ?_
    rcases (hadd t).mp ht with ht | rfl
    · exact hdead t ht hf
    · exact absurd hf.symm hne

end Added

theorem update_create {lab : ℕ → Option AuthCall} {j j' a b c d : ℕ}
    (h : Function.update lab j (some (.rotate c d)) j' = some (.rotate a b)) :
    (j' = j ∧ a = c ∧ b = d) ∨ (j' ≠ j ∧ lab j' = some (.rotate a b)) := by
  by_cases hj : j' = j
  · subst hj
    rw [Function.update_self] at h
    cases h
    exact .inl ⟨rfl, rfl, rfl⟩
  · rw [Function.update_of_ne hj] at h
    exact .inr ⟨hj, h⟩

theorem Families.create {cfg : AuthConfig} {s : AuthState} {lab : ℕ → Option AuthCall} {j : ℕ}
    {stored : RefreshToken} {i : Input AuthReply} (h : Families s.tokens lab)
    (hj : lab j = some (.create stored)) (hok : ExchangeIsFresh (.create stored) i s)
    (hact : stored.active = true)
    (hfresh : ∀ t ∈ s.tokens.rows, t.deleted = false → t.tokenHash ≠ cfg.hashToken i.reply.raw) :
    Families (s.tokens.insert (newToken cfg.hashToken stored.userId stored i))
      (Function.update lab j (some (.rotate stored.id s.tokens.next))) := by
  obtain ⟨hfind, hsole⟩ := hok
  have hst := (Table.find?_mem hfind).1
  have hlt : ∀ t ∈ s.tokens.rows, t.id < s.tokens.next := s.tokens.fresh
  have hadd : Adds (newToken cfg.hashToken stored.userId stored i s.tokens.next) s.tokens
      (s.tokens.insert (newToken cfg.hashToken stored.userId stored i)) :=
    fun _ => Table.mem_insert _
  refine ⟨hadd.hashes h hfresh, hadd.users h hst rfl rfl, hadd.younger h rfl hlt, ?_, ?_, ?_⟩
  · intro j' a b hlab
    rcases update_create hlab with ⟨-, rfl, rfl⟩ | ⟨-, hlab⟩
    · exact hadd.owes_new hst hact rfl rfl hlt hsole
    · exact hadd.owes (h.pending hlab) hst hact rfl hsole
  · intro j₁ j₂ a₁ a₂ b h₁ h₂
    have hb : ∀ {j' a'}, lab j' = some (.rotate a' s.tokens.next) → False := by
      intro j' a' hlab
      obtain ⟨-, -, tb, htb, -, hid, -⟩ := h.pending hlab
      exact absurd (hlt tb htb) (by omega)
    rcases update_create h₁ with ⟨rfl, -, rfl⟩ | ⟨-, hl₁⟩ <;>
      rcases update_create h₂ with ⟨rfl, -, hb₂⟩ | ⟨-, hl₂⟩
    · rfl
    · exact (hb hl₂).elim
    · exact (hb (hb₂ ▸ hl₁)).elim
    · exact h.distinct hl₁ hl₂
  · intro t ht t' ht' ha ha' hf hid
    rcases (hadd t).mp ht with ht | rfl <;> rcases (hadd t').mp ht' with ht' | rfl
    · obtain ⟨j', hj'⟩ := h.owed t ht t' ht' ha ha' hf hid
      have hjj : j' ≠ j := by
        rintro rfl
        rw [hj] at hj'
        cases hj'
      exact ⟨j', by rw [Function.update_of_ne hjj, hj']⟩
    · refine ⟨j, ?_⟩
      rw [Function.update_self, hsole t ht ha hf]
      rfl
    · exact absurd hid (hlt t' ht').not_gt
    · exact absurd hid (Nat.lt_irrefl _)

end ElectronicsCart.Auth
