import ElectronicsCart.Auth.Otp
import ElectronicsCart.Lib.Marks
import ElectronicsCart.Lib.Stages

/-!
# One-time passwords under any schedule

Reading the latest active OTP, comparing the code and writing the row are separate steps without a
lock, and once the newest OTP is consumed an older one is the latest active again.
-/

namespace ElectronicsCart.Auth

open Interleaving Relational OtpService

/-! ### Where a call is -/

inductive OtpStage where
  | issuing (r : IssueOtpInput)
  | storing (r : IssueOtpInput) (code : String) (expiresAt : ℕ)
  | verifying (r : VerifyOtpInput)
  | accepting (otp : Otp)
  | rejecting (id : ℕ)
  | ended (result : Except Failure OtpAnswer)

section Stages

variable (sha256 toLowerCase : String → String)

def OtpStage.prog : OtpStage → OtpProg OtpAnswer
  | .issuing r => (issueOtp sha256 toLowerCase r).bind fun a => pure (.issued a)
  | .storing r code expiresAt =>
    (store sha256 toLowerCase r code expiresAt).bind fun a => pure (.issued a)
  | .verifying r => (verifyOtp sha256 toLowerCase r).bind fun a => pure (.verified a)
  | .accepting otp => (accept otp).bind fun a => pure (.verified a)
  | .rejecting id => (reject id).bind fun a => pure (.verified a)
  | .ended result => .done result

def OtpStage.label? : OtpStage → Option OtpCall
  | .issuing _ => some .generate
  | .storing r _ _ =>
    some (.create (normalizeDestination toLowerCase r.destination r.channel) r.purpose)
  | .verifying r =>
    some (.findLatestActive (normalized toLowerCase r.destination) r.purpose r.code)
  | .accepting otp => some (.consume otp.id)
  | .rejecting id => some (.incrementAttempts id)
  | .ended _ => none

def written {β : Type} (i : OtpInput) (s : OtpState) (r : Except Failure (β × OtpState))
    (ok : β → Except Failure OtpAnswer) : OtpStage × OtpState :=
  if i.fails then (.ended (.error .database), s)
  else match r with
    | .ok (b, s') => (.ended (ok b), s')
    | .error e => (.ended (.error e), s)

def OtpStage.check (code : String) : Option Otp → OtpStage
  | none => .ended (.error otpExpired)
  | some otp =>
    if otp.maxAttempts ≤ otp.attempts then .ended (.error otpMaxAttempts)
    else if sha256 code = otp.codeHash then .accepting otp
    else .rejecting otp.id

def OtpStage.next (t : OtpStage) (i : OtpInput) (s : OtpState) : OtpStage × OtpState :=
  match t with
  | .issuing r => (.storing r (generateCode i.reply.random) (i.now + otpTtl), s)
  | .storing r code expiresAt =>
    written i s (OtpRepository.create (newOtp sha256 toLowerCase r code expiresAt i.now) (fun _ => rfl) s)
      fun otp => .ok (.issued ⟨code, expiresAt, otp.id⟩)
  | .verifying r =>
    if i.fails then (.ended (.error .database), s)
    else (OtpStage.check sha256 r.code
      (OtpRepository.findLatestActive (normalized toLowerCase r.destination) r.purpose i.now s), s)
  | .accepting otp =>
    written i s (OtpRepository.consume otp.id i.now s) fun _ => .ok (.verified ⟨otp.userId, otp.id⟩)
  | .rejecting id => written i s (OtpRepository.incrementAttempts id s) fun _ => .error otpInvalid
  | .ended result => (.ended result, s)

end Stages

section Machine

variable {sha256 toLowerCase : String → String}

theorem tracks_write {β : Type} {l : OtpCall}
    {f : OtpInput → OtpState → Except Failure (β × OtpState)} {k : β → OtpProg OtpAnswer}
    {ok : β → Except Failure OtpAnswer} (hk : ∀ b, k b = .done (ok b)) :
    Tracks (OtpStage.prog sha256 toLowerCase) (fun i s => written i s (f i s) ok) (some l)
      ((atomic l f).bind k) := by
  refine tracks_callBind fun i s => ?_
  unfold written
  cases hf : i.fails with
  | true => exact ⟨rfl, rfl⟩
  | false =>
    cases hr : f i s with
    | error e => exact ⟨rfl, rfl⟩
    | ok r => exact ⟨rfl, hk r.1⟩

theorem mechanical : Mechanical (OtpStage.prog sha256 toLowerCase) (OtpStage.label? toLowerCase)
    (OtpStage.next sha256 toLowerCase) := by
  intro t
  cases t with
  | issuing r =>
    exact ⟨rfl, fun i s => ⟨rfl, rfl⟩⟩
  | storing r code expiresAt =>
    simp only [OtpStage.prog, store, Prog.bind_eq, Prog.bind_assoc]
    exact tracks_write fun _ => rfl
  | verifying r =>
    simp only [OtpStage.prog, verifyOtp, Prog.bind_eq, Prog.bind_assoc]
    refine tracks_callBind fun i s => ?_
    simp only [OtpStage.next]
    cases hf : i.fails with
    | true => exact ⟨rfl, rfl⟩
    | false =>
      refine ⟨rfl, ?_⟩
      simp only [Bool.false_eq_true, if_false, Prog.done_ok_bind]
      cases OtpRepository.findLatestActive (normalized toLowerCase r.destination) r.purpose i.now s with
      | none => rfl
      | some otp =>
        simp only [Prog.orThrow, Prog.done_ok_bind, OtpStage.check]
        split
        · rfl
        split
        · rfl
        · rfl
  | accepting otp =>
    simp only [OtpStage.prog, accept, Prog.bind_eq, Prog.bind_assoc]
    exact tracks_write fun _ => rfl
  | rejecting id =>
    simp only [OtpStage.prog, reject, Prog.bind_eq, Prog.bind_assoc]
    exact tracks_write fun _ => rfl
  | ended result => rfl

end Machine

/-! ### In order -/

/-- No OTP of the destination and purpose was issued after this one. -/
def Latest (id : ℕ) (s : OtpState) : Prop :=
  ∃ o ∈ s.otps.rows, o.id = id ∧ ∀ b ∈ s.otps.rows,
    b.destination = o.destination → b.purpose = o.purpose → b.id ≤ id

instance (id : ℕ) (s : OtpState) : Decidable (Latest id s) :=
  inferInstanceAs (Decidable (∃ o ∈ s.otps.rows, o.id = id ∧ ∀ b ∈ s.otps.rows,
    b.destination = o.destination → b.purpose = o.purpose → b.id ≤ id))

section Order

variable (sha256 : String → String)

/-- The OTP whose code a read compares with its caller's, and whether they agree. -/
def compared (l : OtpCall) (i : OtpInput) (s : OtpState) : Option (Otp × Bool) :=
  match l with
  | .findLatestActive destination purpose code =>
    if i.fails then none
    else ((OtpRepository.findLatestActive destination purpose i.now s).filter fun o =>
      decide (o.attempts < o.maxAttempts)).map fun o => (o, decide (sha256 code = o.codeHash))
  | _ => none

/-- How many calls are about to count an attempt at the OTP. -/
def counting (id : ℕ) (p : OtpPool) : ℕ :=
  p.threads.countP fun t => t.label? == some (.incrementAttempts id)

def consuming (id : ℕ) (p : OtpPool) : Bool :=
  p.threads.any fun t => t.label? == some (.consume id)

def consumingOf (destination : String) (purpose : OtpPurpose) (p : OtpPool) : Bool :=
  p.state.otps.rows.any fun o =>
    o.destination == destination && o.purpose == purpose && consuming o.id p

/-- A right code meets the latest OTP while no other call is about to consume it; a wrong code
meets an OTP whose attempts, with those about to be counted, are not used up; no OTP is issued
beside one that is about to be consumed; every attempt is counted. -/
def InOrder (p : OtpPool) (i : OtpInput) (l : OtpCall) : Prop :=
  match compared sha256 l i p.state with
  | some (o, true) => Latest o.id p.state ∧ consuming o.id p = false
  | some (o, false) => o.attempts + counting o.id p < o.maxAttempts
  | none =>
    match l with
    | .create destination purpose => i.fails = true ∨ consumingOf destination purpose p = false
    | .incrementAttempts _ => i.fails = false
    | _ => True

def Timely (p : OtpPool) (j : ℕ) (i : OtpInput) : Prop :=
  (p.label? j).elim True (InOrder sha256 p i)

instance (p : OtpPool) (i : OtpInput) (l : OtpCall) : Decidable (InOrder sha256 p i l) :=
  match h : compared sha256 l i p.state with
  | some (o, true) =>
    decidable_of_iff (Latest o.id p.state ∧ consuming o.id p = false) (by simp [InOrder, h])
  | some (o, false) =>
    decidable_of_iff (o.attempts + counting o.id p < o.maxAttempts) (by simp [InOrder, h])
  | none =>
    match l, h with
    | .create destination purpose, h =>
      decidable_of_iff (i.fails = true ∨ consumingOf destination purpose p = false)
        (by simp [InOrder, h])
    | .incrementAttempts _, h => decidable_of_iff (i.fails = false) (by simp [InOrder, h])
    | .generate, h => .isTrue (by simp [InOrder, h])
    | .findLatestActive _ _ _, h => .isTrue (by simp [InOrder, h])
    | .consume _, h => .isTrue (by simp [InOrder, h])

instance (p : OtpPool) (j : ℕ) (i : OtpInput) : Decidable (Timely sha256 p j i) :=
  match h : p.label? j with
  | some l => decidable_of_iff (InOrder sha256 p i l) (by simp [Timely, h])
  | none => .isTrue (by simp [Timely, h])

/-- One if the step compares a wrong code against the OTP. -/
def wrongCode (id : ℕ) (p : OtpPool) (j : ℕ) (i : OtpInput) : ℕ :=
  match (p.label? j).bind fun l => compared sha256 l i p.state with
  | some (o, false) => if o.id = id then 1 else 0
  | _ => 0

/-- The wrong codes that are compared against an OTP along a schedule. -/
def wrongCodes (id : ℕ) : OtpPool → List (ℕ × OtpInput) → ℕ
  | _, [] => 0
  | p, (j, i) :: rest => wrongCode sha256 id p j i + wrongCodes id (p.step j i) rest

def TakesLatest (p : OtpPool) (j : ℕ) (i : OtpInput) : Prop :=
  ∀ id, p.label? j = some (.consume id) → i.fails = false → Latest id p.state

def verified? (p : OtpPool) (j : ℕ) : Option ℕ :=
  match p.threads[j]? with
  | some (.done (.ok (.verified v))) => some v.otpId
  | _ => none

structure OtpsSound (p : OtpPool) (sched : List (ℕ × OtpInput)) : Prop where
  once : ∀ j j' id, verified? (p.run sched) j = some id → verified? (p.run sched) j' = some id →
    j = j'
  latest : p.Heeds TakesLatest sched
  bounded : ∀ o ∈ (p.run sched).state.otps.rows, wrongCodes sha256 o.id p sched ≤ o.maxAttempts

end Order

/-! ### The rows -/

section Rows

variable {s s' : OtpState} {id : ℕ}

theorem newest_mem {os : List Otp} {o : Otp} (h : OtpRepository.newest os = some o) : o ∈ os := by
  induction os generalizing o with
  | nil => cases h
  | cons a rest ih =>
    unfold OtpRepository.newest at h
    cases hr : OtpRepository.newest rest with
    | none =>
      rw [hr] at h
      rw [← Option.some.inj h]
      exact List.mem_cons_self
    | some b =>
      rw [hr] at h
      dsimp only at h
      split at h
      · rw [← Option.some.inj h]
        exact List.mem_cons_self
      · rw [← Option.some.inj h]
        exact List.mem_cons_of_mem a (ih hr)

theorem findLatestActive_mem {destination : String} {purpose : OtpPurpose} {now : ℕ} {o : Otp}
    (h : OtpRepository.findLatestActive destination purpose now s = some o) :
    o ∈ s.otps.rows ∧ o.consumedAt = none := by
  obtain ⟨hmem, hactive⟩ := List.mem_filter.mp (newest_mem h)
  refine ⟨hmem, ?_⟩
  simp only [OtpRepository.isActive, Bool.and_eq_true, Option.isNone_iff_eq_none] at hactive
  exact hactive.1.1.1.2

/-- What a write of one row leaves of the order of issue. -/
structure Rewrites (id : ℕ) (g : Otp → Otp) (s s' : OtpState) : Prop where
  rows : ∀ o, o ∈ s'.otps.rows ↔ ∃ a ∈ s.otps.rows, (if a.id = id then g a else a) = o
  found : ∃ a ∈ s.otps.rows, a.id = id

theorem rewrites_update {g : Otp → Otp} (hg : ∀ o, key (g o) = key o)
    (hsome : (s.otps.find? id).isSome = true) :
    Rewrites id g s { s with otps := s.otps.update id g hg } := by
  obtain ⟨a, ha⟩ := Option.isSome_iff_exists.mp hsome
  exact ⟨fun o => Table.mem_update hg, a, Table.find?_mem ha⟩

theorem consume_cases {now : ℕ} {u : Unit} (h : OtpRepository.consume id now s = .ok (u, s')) :
    Rewrites id (fun o => { o with consumedAt := some now, status := .inactive }) s s' := by
  simp only [OtpRepository.consume, bind_eq_ok, check_eq_ok, pure_eq_ok] at h
  obtain ⟨-, hsome, h⟩ := h
  obtain ⟨-, rfl⟩ := Prod.mk.inj h
  exact rewrites_update (fun _ => by rfl) hsome

theorem incrementAttempts_cases {u : Unit}
    (h : OtpRepository.incrementAttempts id s = .ok (u, s')) :
    Rewrites id (fun o => { o with attempts := o.attempts + 1 }) s s' := by
  simp only [OtpRepository.incrementAttempts, bind_eq_ok, check_eq_ok, pure_eq_ok] at h
  obtain ⟨-, hsome, h⟩ := h
  obtain ⟨-, rfl⟩ := Prod.mk.inj h
  exact rewrites_update (fun _ => by rfl) hsome

theorem incrementAttempts_ne_error {e : Failure} {a : Otp} (ha : a ∈ s.otps.rows) (hid : a.id = id) :
    OtpRepository.incrementAttempts id s ≠ .error e := by
  have hfind : s.otps.find? id = some a := Table.find?_eq_some_iff.mpr ⟨ha, hid⟩
  intro h
  unfold OtpRepository.incrementAttempts at h
  rw [hfind] at h
  cases h

theorem Rewrites.mem {g : Otp → Otp} (h : Rewrites id g s s') (hg : ∀ o, (g o).id = o.id) {o : Otp}
    (ho : o ∈ s'.otps.rows) :
    ∃ a ∈ s.otps.rows, a.id = o.id ∧ (o.id ≠ id → o = a) ∧ (o.id = id → o = g a) := by
  obtain ⟨a, ha, rfl⟩ := (h.rows o).mp ho
  by_cases hid : a.id = id
  · rw [if_pos hid]
    exact ⟨a, ha, (hg a).symm, fun hne => absurd ((hg a).trans hid) hne, fun _ => rfl⟩
  · rw [if_neg hid]
    exact ⟨a, ha, rfl, fun _ => rfl, fun h => absurd h hid⟩

theorem Rewrites.keeps {g : Otp → Otp} (h : Rewrites id g s s') {a : Otp} (ha : a ∈ s.otps.rows)
    (hne : a.id ≠ id) : a ∈ s'.otps.rows :=
  (h.rows a).mpr ⟨a, ha, if_neg hne⟩

theorem Rewrites.lives {g : Otp → Otp} (h : Rewrites id g s s') (hg : ∀ o, (g o).id = o.id) {n : ℕ}
    (hn : ∃ a ∈ s.otps.rows, a.id = n) : ∃ a ∈ s'.otps.rows, a.id = n := by
  obtain ⟨a, ha, hid⟩ := hn
  refine ⟨_, (h.rows _).mpr ⟨a, ha, rfl⟩, ?_⟩
  split
  · exact (hg a).trans hid
  · exact hid

theorem Rewrites.latest {g : Otp → Otp} (h : Rewrites id g s s') (hg : ∀ o, (g o).id = o.id)
    (hd : ∀ o, (g o).destination = o.destination) (hp : ∀ o, (g o).purpose = o.purpose) {n : ℕ}
    (hn : Latest n s) : Latest n s' := by
  have hsame : ∀ a : Otp, (if a.id = id then g a else a).id = a.id ∧
      (if a.id = id then g a else a).destination = a.destination ∧
      (if a.id = id then g a else a).purpose = a.purpose := by
    intro a
    split
    · exact ⟨hg a, hd a, hp a⟩
    · exact ⟨rfl, rfl, rfl⟩
  obtain ⟨o, ho, rfl, hlast⟩ := hn
  obtain ⟨hid, hdest, hpurp⟩ := hsame o
  refine ⟨_, (h.rows _).mpr ⟨o, ho, rfl⟩, hid, fun b hb hbd hbp => ?_⟩
  obtain ⟨a, ha, rfl⟩ := (h.rows b).mp hb
  obtain ⟨hid', hdest', hpurp'⟩ := hsame a
  rw [hid']
  exact hlast a ha (by rw [← hdest', hbd, hdest]) (by rw [← hpurp', hbp, hpurp])

theorem create_cases {row : ℕ → Otp} {hrow : ∀ n, key (row n) = n} {o : Otp}
    (h : OtpRepository.create row hrow s = .ok (o, s')) :
    o = row s.otps.next ∧ (∀ a, a ∈ s'.otps.rows ↔ a ∈ s.otps.rows ∨ a = o) ∧
      o.id = s.otps.next ∧ ∀ a ∈ s.otps.rows, a.id < o.id := by
  simp only [OtpRepository.create, bind_eq_ok, check_eq_ok, pure_eq_ok] at h
  obtain ⟨-, -, h⟩ := h
  obtain ⟨rfl, rfl⟩ := Prod.mk.inj h
  have hid : (row s.otps.next).id = s.otps.next := hrow _
  refine ⟨rfl, fun a => Table.mem_insert hrow, hid, fun a ha => ?_⟩
  rw [hid]
  exact s.otps.fresh a ha

theorem latest_create {o : Otp} {n : ℕ} (hmem : ∀ a, a ∈ s'.otps.rows ↔ a ∈ s.otps.rows ∨ a = o)
    (hn : Latest n s)
    (hother : ∀ a ∈ s.otps.rows, a.id = n → a.destination = o.destination → a.purpose ≠ o.purpose) :
    Latest n s' := by
  obtain ⟨a, ha, rfl, hlast⟩ := hn
  refine ⟨a, (hmem a).mpr (.inl ha), rfl, fun b hb hbd hbp => ?_⟩
  rcases (hmem b).mp hb with hb | rfl
  · exact hlast b hb hbd hbp
  · exact absurd hbp.symm (hother a ha rfl hbd.symm)

end Rows

/-! ### The invariant -/

/-- The OTP that a call has found right: it is about to consume it, or has returned it. -/
def OtpStage.holds : OtpStage → Option ℕ
  | .accepting otp => some otp.id
  | .ended (.ok (.verified v)) => some v.otpId
  | _ => none

def OtpStage.rejects (id : ℕ) : OtpStage → Bool
  | .rejecting id' => id' == id
  | _ => false

def rejections (id : ℕ) (ts : List OtpStage) : ℕ := ts.countP (OtpStage.rejects id)

structure Inv (s : OtpState) (ts : List OtpStage) (wrong : ℕ → ℕ) : Prop where
  accepting : ∀ otp, .accepting otp ∈ ts →
    (∃ a ∈ s.otps.rows, a.id = otp.id ∧ a.consumedAt = none) ∧ Latest otp.id s
  verified : ∀ v, .ended (.ok (.verified v)) ∈ ts →
    ∃ a ∈ s.otps.rows, a.id = v.otpId ∧ a.consumedAt ≠ none
  once : ∀ (j j' : ℕ) (t t' : OtpStage) (id : ℕ), ts[j]? = some t → ts[j']? = some t' →
    t.holds = some id → t'.holds = some id → j = j'
  rejecting : ∀ id, .rejecting id ∈ ts → ∃ a ∈ s.otps.rows, a.id = id
  counted : ∀ o ∈ s.otps.rows, wrong o.id ≤ o.attempts + rejections o.id ts ∧
    (0 < wrong o.id → o.attempts + rejections o.id ts ≤ o.maxAttempts)
  known : ∀ id, 0 < wrong id → ∃ a ∈ s.otps.rows, a.id = id

section Steps

variable {s s' : OtpState} {ts : List OtpStage} {wrong : ℕ → ℕ} {j id : ℕ} {t t' : OtpStage}

theorem rejections_set (hj : ts[j]? = some t) :
    rejections id (ts.set j t') + (if t.rejects id then 1 else 0) =
      rejections id ts + if t'.rejects id then 1 else 0 :=
  Pool.countP_replace hj

theorem rejections_enter (hj : ts[j]? = some t) (ht : ∀ id, t.rejects id = false) :
    rejections id (ts.set j t') = rejections id ts + if t'.rejects id then 1 else 0 := by
  have hset : rejections id (ts.set j t') + _ = rejections id ts + _ := rejections_set hj
  rwa [ht, if_neg (by simp), Nat.add_zero] at hset

theorem getElem?_set_cases {k : ℕ} {u : OtpStage} (h : (ts.set j t')[k]? = some u) :
    (k = j ∧ u = t') ∨ (k ≠ j ∧ ts[k]? = some u) := by
  rw [← List.append_nil (ts.set j t')] at h
  exact getElem?_moved_alone h

theorem mem_set_cases {u : OtpStage} (h : u ∈ ts.set j t') :
    u = t' ∨ ∃ k, k ≠ j ∧ ts[k]? = some u := by
  obtain ⟨k, hk⟩ := List.mem_iff_getElem?.mp h
  rcases getElem?_set_cases hk with ⟨-, rfl⟩ | ⟨hne, hk⟩
  · exact .inl rfl
  · exact .inr ⟨k, hne, hk⟩

theorem mem_set_other {u : OtpStage} (h : u ∈ ts.set j t') (hne : u ≠ t') : u ∈ ts := by
  rcases mem_set_cases h with rfl | ⟨k, -, hk⟩
  · exact absurd rfl hne
  · exact List.mem_of_getElem? hk

theorem Inv.once_set (h : Inv s ts wrong)
    (hholds : ∀ id k u, t'.holds = some id → ts[k]? = some u → u.holds = some id → k = j)
    (k k' : ℕ) (u u' : OtpStage) (id : ℕ)
    (hk : (ts.set j t')[k]? = some u) (hk' : (ts.set j t')[k']? = some u')
    (hu : u.holds = some id) (hu' : u'.holds = some id) : k = k' := by
  rcases getElem?_set_cases hk with ⟨hkj, hut⟩ | ⟨hkj, hk⟩ <;>
    rcases getElem?_set_cases hk' with ⟨hkj', hut'⟩ | ⟨hkj', hk'⟩
  · rw [hkj, hkj']
  · rw [hut] at hu
    exact absurd (hholds id k' u' hu hk' hu') hkj'
  · rw [hut'] at hu'
    exact absurd (hholds id k u hu' hk hu) hkj
  · exact h.once k k' u u' id hk hk' hu hu'

theorem unheld (hnone : t'.holds = none) (id k : ℕ) (u : OtpStage) (hid : t'.holds = some id) :
    ts[k]? = some u → u.holds = some id → k = j := by
  rw [hnone] at hid
  cases hid

theorem Inv.once_kept (h : Inv s ts wrong) (hj : ts[j]? = some t)
    (hholds : ∀ id, t'.holds = some id → t.holds = some id) (id k : ℕ) (u : OtpStage)
    (ht' : t'.holds = some id) (hk : ts[k]? = some u) (hu : u.holds = some id) : k = j :=
  h.once k j u t id hk hj hu (hholds id ht')

theorem Inv.pass (h : Inv s ts wrong) (hj : ts[j]? = some t) (hholds : t'.holds = none)
    (ht : ∀ id, t.rejects id = false) (ht' : ∀ id, t'.rejects id = false) :
    Inv s (ts.set j t') wrong := by
  have hcount : ∀ id, rejections id (ts.set j t') = rejections id ts := by
    intro id
    rw [rejections_enter hj ht, ht', if_neg (by simp), Nat.add_zero]
  refine ⟨fun otp hm => ?_, fun v hm => ?_, ?_, fun id hm => ?_, fun o ho => ?_, h.known⟩
  · refine h.accepting otp (mem_set_other hm ?_)
    rintro rfl
    cases hholds
  · refine h.verified v (mem_set_other hm ?_)
    rintro rfl
    cases hholds
  · exact h.once_set (unheld hholds)
  · refine h.rejecting id (mem_set_other hm ?_)
    rintro rfl
    have hself := ht' id
    simp [OtpStage.rejects] at hself
  · rw [hcount]
    exact h.counted o ho

theorem Inv.accept (h : Inv s ts wrong) (hj : ts[j]? = some t) (ht : ∀ id, t.rejects id = false)
    {o : Otp} (ho : o ∈ s.otps.rows) (hactive : o.consumedAt = none) (hlatest : Latest o.id s)
    (hfree : ∀ otp, .accepting otp ∈ ts → otp.id ≠ o.id) :
    Inv s (ts.set j (.accepting o)) wrong := by
  have hcount : ∀ id, rejections id (ts.set j (.accepting o)) = rejections id ts := by
    intro id
    simp [rejections_enter hj ht, OtpStage.rejects]
  refine ⟨fun otp hm => ?_, fun v hm => h.verified v (mem_set_other hm nofun), ?_,
    fun id hm => h.rejecting id (mem_set_other hm nofun), fun a ha => ?_, h.known⟩
  · rcases mem_set_cases hm with heq | ⟨k, -, hk⟩
    · obtain rfl : otp = o := by injection heq
      exact ⟨⟨otp, ho, rfl, hactive⟩, hlatest⟩
    · exact h.accepting otp (List.mem_of_getElem? hk)
  · refine h.once_set fun id k u hid hk hu => ?_
    obtain rfl : o.id = id := Option.some.inj hid
    cases u with
    | accepting otp =>
      exact absurd (Option.some.inj hu) (hfree otp (List.mem_of_getElem? hk))
    | ended result =>
      cases result with
      | error e => cases hu
      | ok answer =>
        cases answer with
        | issued r => cases hu
        | verified v =>
          -- a returned OTP is consumed, and this one is not
          obtain ⟨a, ha, hav, hconsumed⟩ := h.verified v (List.mem_of_getElem? hk)
          obtain rfl : a = o := Table.eq_of_key_eq ha ho (hav.trans (Option.some.inj hu))
          exact absurd hactive hconsumed
    | issuing r => cases hu
    | storing r code expiresAt => cases hu
    | verifying r => cases hu
    | rejecting id => cases hu
  · rw [hcount]
    exact h.counted a ha

theorem Inv.refuse (h : Inv s ts wrong) (hj : ts[j]? = some t) (ht : ∀ id, t.rejects id = false)
    {o : Otp} (ho : o ∈ s.otps.rows) (hroom : o.attempts + rejections o.id ts < o.maxAttempts) :
    Inv s (ts.set j (.rejecting o.id)) fun id => wrong id + if o.id = id then 1 else 0 := by
  have hcount : ∀ id, rejections id (ts.set j (.rejecting o.id)) =
      rejections id ts + if o.id = id then 1 else 0 := by
    intro id
    simp [rejections_enter hj ht, OtpStage.rejects]
  refine ⟨fun otp hm => h.accepting otp (mem_set_other hm nofun),
    fun v hm => h.verified v (mem_set_other hm nofun), h.once_set (unheld rfl), fun id hm => ?_,
    fun a ha => ?_, fun id hpos => ?_⟩
  · rcases mem_set_cases hm with heq | ⟨k, -, hk⟩
    · obtain rfl : id = o.id := by injection heq
      exact ⟨o, ho, rfl⟩
    · exact h.rejecting id (List.mem_of_getElem? hk)
  · obtain ⟨hle, hmax⟩ := h.counted a ha
    rw [hcount]
    by_cases hid : o.id = a.id
    · obtain rfl : o = a := Table.eq_of_key_eq ho ha hid
      simp only [if_true]
      omega
    · simp only [if_neg hid, Nat.add_zero]
      exact ⟨hle, hmax⟩
  · by_cases hid : o.id = id
    · exact ⟨o, ho, hid⟩
    · simp only [if_neg hid, Nat.add_zero] at hpos
      exact h.known id hpos

theorem Inv.issue (h : Inv s ts wrong) (hj : ts[j]? = some t) (ht : ∀ id, t.rejects id = false)
    {o : Otp} {r : IssueOtpResult} (hmem : ∀ a, a ∈ s'.otps.rows ↔ a ∈ s.otps.rows ∨ a = o)
    (hfresh : ∀ a ∈ s.otps.rows, a.id < o.id)
    (hfree : ∀ otp, .accepting otp ∈ ts → ∀ a ∈ s.otps.rows, a.id = otp.id →
      a.destination = o.destination → a.purpose ≠ o.purpose) :
    Inv s' (ts.set j (.ended (.ok (.issued r)))) wrong := by
  have hcount : ∀ id, rejections id (ts.set j (.ended (.ok (.issued r)))) = rejections id ts := by
    intro id
    simp [rejections_enter hj ht, OtpStage.rejects]
  have hkeep : ∀ a ∈ s.otps.rows, a ∈ s'.otps.rows := fun a ha => (hmem a).mpr (.inl ha)
  refine ⟨fun otp hm => ?_, fun v hm => ?_, h.once_set (unheld rfl), fun id hm => ?_, fun a ha => ?_,
    fun id hpos => ?_⟩
  · have hm' := mem_set_other hm nofun
    obtain ⟨⟨a, ha, hid, hactive⟩, hlatest⟩ := h.accepting otp hm'
    exact ⟨⟨a, hkeep a ha, hid, hactive⟩, latest_create hmem hlatest (hfree otp hm')⟩
  · obtain ⟨a, ha, hv⟩ := h.verified v (mem_set_other hm (by simp))
    exact ⟨a, hkeep a ha, hv⟩
  · obtain ⟨a, ha, hid⟩ := h.rejecting id (mem_set_other hm nofun)
    exact ⟨a, hkeep a ha, hid⟩
  · rw [hcount]
    rcases (hmem a).mp ha with ha | rfl
    · exact h.counted a ha
    · have hnone : wrong a.id = 0 := by
        by_contra hne
        obtain ⟨b, hb, hid⟩ := h.known a.id (Nat.pos_of_ne_zero hne)
        have hlt := hfresh b hb
        omega
      omega
  · obtain ⟨a, ha, hid⟩ := h.known id hpos
    exact ⟨a, hkeep a ha, hid⟩

theorem Inv.consume (h : Inv s ts wrong) {otp : Otp} (hj : ts[j]? = some (.accepting otp))
    {userId : Option ℕ} {now : ℕ} (hs : Rewrites otp.id
      (fun o => { o with consumedAt := some now, status := .inactive }) s s') :
    Inv s' (ts.set j (.ended (.ok (.verified ⟨userId, otp.id⟩)))) wrong := by
  have hcount : ∀ id, rejections id (ts.set j (.ended (.ok (.verified ⟨userId, otp.id⟩)))) =
      rejections id ts := by
    intro id
    simp [rejections_enter hj fun _ => rfl, OtpStage.rejects]
  have hlives : ∀ id, (∃ a ∈ s.otps.rows, a.id = id) → ∃ a ∈ s'.otps.rows, a.id = id :=
    fun id hrow => hs.lives (fun _ => rfl) hrow
  refine ⟨fun other hm => ?_, fun v hm => ?_, h.once_set ?_, fun id hm => ?_, fun o ho => ?_,
    fun id hpos => hlives id (h.known id hpos)⟩
  · rcases mem_set_cases hm with heq | ⟨k, hne, hk⟩
    · cases heq
    obtain ⟨⟨a, ha, hid, hactive⟩, hlatest⟩ := h.accepting other (List.mem_of_getElem? hk)
    have hother : a.id ≠ otp.id := by
      intro heq
      exact hne (h.once k j _ _ otp.id hk hj (congrArg some (hid.symm.trans heq)) rfl)
    exact ⟨⟨a, hs.keeps ha hother, hid, hactive⟩,
      hs.latest (fun _ => rfl) (fun _ => rfl) (fun _ => rfl) hlatest⟩
  · by_cases hv : v.otpId = otp.id
    · obtain ⟨a, ha, hid⟩ := hs.found
      exact ⟨_, (hs.rows _).mpr ⟨a, ha, rfl⟩, by rw [if_pos hid, hv, ← hid], by simp [hid]⟩
    · have hold := mem_set_other hm (by rintro ⟨⟩; exact hv rfl)
      obtain ⟨a, ha, hid, hconsumed⟩ := h.verified v hold
      exact ⟨a, hs.keeps ha (by rw [hid]; exact hv), hid, hconsumed⟩
  · exact h.once_kept hj fun id hid => hid
  · exact hlives id (h.rejecting id (mem_set_other hm nofun))
  · obtain ⟨a, ha, hid, hsame, hnew⟩ := hs.mem (fun _ => rfl) ho
    have hattempts : o.attempts = a.attempts ∧ o.maxAttempts = a.maxAttempts := by
      by_cases hoid : o.id = otp.id
      · rw [hnew hoid]
        exact ⟨rfl, rfl⟩
      · rw [hsame hoid]
        exact ⟨rfl, rfl⟩
    rw [hcount, hattempts.1, hattempts.2, ← hid]
    exact h.counted a ha

theorem Inv.increment (h : Inv s ts wrong) (hj : ts[j]? = some (.rejecting id)) {e : Failure}
    (hs : Rewrites id (fun o => { o with attempts := o.attempts + 1 }) s s') :
    Inv s' (ts.set j (.ended (.error e))) wrong := by
  have hcount : ∀ n, rejections n (ts.set j (.ended (.error e))) + (if id = n then 1 else 0) =
      rejections n ts := by
    intro n
    have hset : rejections n (ts.set j (.ended (.error e))) + _ = rejections n ts + _ :=
      rejections_set hj
    simpa [OtpStage.rejects] using hset
  have hlives : ∀ n, (∃ a ∈ s.otps.rows, a.id = n) → ∃ a ∈ s'.otps.rows, a.id = n :=
    fun n hrow => hs.lives (fun _ => rfl) hrow
  have hconsumed : ∀ n (q : Option ℕ → Prop), (∃ a ∈ s.otps.rows, a.id = n ∧ q a.consumedAt) →
      ∃ a ∈ s'.otps.rows, a.id = n ∧ q a.consumedAt := by
    rintro n q ⟨a, ha, hid, hq⟩
    refine ⟨_, (hs.rows _).mpr ⟨a, ha, rfl⟩, ?_⟩
    split
    · exact ⟨hid, hq⟩
    · exact ⟨hid, hq⟩
  refine ⟨fun otp hm => ?_, fun v hm => ?_, h.once_set (unheld rfl), fun n hm => ?_, fun o ho => ?_,
    fun n hpos => hlives n (h.known n hpos)⟩
  · obtain ⟨hrow, hlatest⟩ := h.accepting otp (mem_set_other hm nofun)
    exact ⟨hconsumed otp.id (· = none) hrow,
      hs.latest (fun _ => rfl) (fun _ => rfl) (fun _ => rfl) hlatest⟩
  · exact hconsumed v.otpId (· ≠ none) (h.verified v (mem_set_other hm (by simp)))
  · exact hlives n (h.rejecting n (mem_set_other hm nofun))
  · obtain ⟨a, ha, hid, hsame, hnew⟩ := hs.mem (fun _ => rfl) ho
    obtain ⟨hle, hmax⟩ := h.counted a ha
    have hset := hcount a.id
    rw [← hid]
    by_cases hoid : o.id = id
    · have hattempts : o.attempts = a.attempts + 1 := by rw [hnew hoid]
      have hcap : o.maxAttempts = a.maxAttempts := by rw [hnew hoid]
      rw [if_pos (by rw [hid, hoid])] at hset
      omega
    · obtain rfl := hsame hoid
      rw [if_neg (Ne.symm hoid)] at hset
      omega

end Steps

/-! ### One step -/

section Calls

variable {sha256 toLowerCase : String → String} {s : OtpState} {i : OtpInput}

theorem written_cases {β : Type} {r : Except Failure (β × OtpState)}
    {ok : β → Except Failure OtpAnswer} :
    (∃ e, written i s r ok = (.ended (.error e), s) ∧ (i.fails = true ∨ r = .error e)) ∨
      ∃ b s', r = .ok (b, s') ∧ i.fails = false ∧ written i s r ok = (.ended (ok b), s') := by
  unfold written
  cases hf : i.fails with
  | true => exact .inl ⟨_, rfl, .inl rfl⟩
  | false =>
    cases r with
    | error e => exact .inl ⟨e, rfl, .inr rfl⟩
    | ok r => exact .inr ⟨r.1, r.2, rfl, rfl, rfl⟩

theorem read_cases (r : VerifyOtpInput) {l : OtpCall}
    (hl : (OtpStage.verifying r).label? toLowerCase = some l) :
    (compared sha256 l i s = none ∧
        ∃ e, (OtpStage.verifying r).next sha256 toLowerCase i s = (.ended (.error e), s)) ∨
      ∃ o ∈ s.otps.rows, o.consumedAt = none ∧
        ((compared sha256 l i s = some (o, true) ∧
            (OtpStage.verifying r).next sha256 toLowerCase i s = (.accepting o, s)) ∨
          (compared sha256 l i s = some (o, false) ∧
            (OtpStage.verifying r).next sha256 toLowerCase i s = (.rejecting o.id, s))) := by
  obtain rfl := Option.some.inj hl
  simp only [OtpStage.next, compared]
  cases hf : i.fails with
  | true => exact .inl ⟨rfl, _, rfl⟩
  | false =>
    simp only [Bool.false_eq_true, if_false]
    cases ho : OtpRepository.findLatestActive (normalized toLowerCase r.destination) r.purpose
        i.now s with
    | none => exact .inl ⟨rfl, _, rfl⟩
    | some o =>
      simp only [OtpStage.check]
      by_cases hused : o.maxAttempts ≤ o.attempts
      · rw [if_pos hused, Option.filter_some_neg (by simpa using hused)]
        exact .inl ⟨rfl, _, rfl⟩
      · rw [if_neg hused, Option.filter_some_pos (by simpa using hused)]
        obtain ⟨hmem, hactive⟩ := findLatestActive_mem ho
        refine .inr ⟨o, hmem, hactive, ?_⟩
        by_cases hright : sha256 r.code = o.codeHash
        · exact .inl ⟨by simp [hright], by rw [if_pos hright]⟩
        · exact .inr ⟨by simp [hright], by rw [if_neg hright]⟩

end Calls

section Runs

variable {sha256 toLowerCase : String → String} {p : OtpPool} {ts : List OtpStage}
  {wrong : ℕ → ℕ} {j : ℕ} {i : OtpInput} {t : OtpStage} {l : OtpCall}

theorem counting_eq (hp : p.threads = ts.map (OtpStage.prog sha256 toLowerCase)) (id : ℕ) :
    counting id p = rejections id ts := by
  unfold counting rejections
  rw [hp, List.countP_map]
  congr 1
  funext t
  simp only [Function.comp_apply, mechanical.label_prog]
  cases t <;> simp [OtpStage.label?, OtpStage.rejects]

theorem consuming_accepting (hp : p.threads = ts.map (OtpStage.prog sha256 toLowerCase)) {otp : Otp}
    (h : .accepting otp ∈ ts) : consuming otp.id p = true := by
  unfold consuming
  rw [hp, List.any_map, List.any_eq_true]
  exact ⟨_, h, by simp [mechanical.label_prog, OtpStage.label?]⟩

theorem Inv.read (hp : p.threads = ts.map (OtpStage.prog sha256 toLowerCase))
    (hi : Inv p.state ts wrong) {r : VerifyOtpInput} (hj : ts[j]? = some (.verifying r))
    (hl : (OtpStage.verifying r).label? toLowerCase = some l) (hpl : p.label? j = some l)
    (hg : InOrder sha256 p i l) :
    Inv ((OtpStage.verifying r).next sha256 toLowerCase i p.state).2
      (ts.set j ((OtpStage.verifying r).next sha256 toLowerCase i p.state).1)
      fun id => wrong id + wrongCode sha256 id p j i := by
  unfold InOrder at hg
  simp only [wrongCode, hpl, Option.bind_some]
  rcases read_cases r hl with
    ⟨hnone, e, hnext⟩ | ⟨o, ho, hactive, ⟨hright, hnext⟩ | ⟨hwrong, hnext⟩⟩
  · rw [hnone, hnext]
    exact hi.pass hj rfl (fun _ => rfl) fun _ => rfl
  · rw [hright] at hg ⊢
    rw [hnext]
    refine hi.accept hj (fun _ => rfl) ho hactive hg.1 fun otp hm heq => ?_
    have hbusy := consuming_accepting hp hm
    rw [heq, hg.2] at hbusy
    cases hbusy
  · rw [hwrong] at hg ⊢
    rw [hnext]
    dsimp only at hg
    rw [counting_eq hp] at hg
    exact hi.refuse hj (fun _ => rfl) ho hg

theorem Inv.create (hp : p.threads = ts.map (OtpStage.prog sha256 toLowerCase))
    (hi : Inv p.state ts wrong) {r : IssueOtpInput} {code : String} {expiresAt : ℕ}
    (hj : ts[j]? = some (.storing r code expiresAt))
    (hg : i.fails = true ∨ consumingOf (normalizeDestination toLowerCase r.destination r.channel)
      r.purpose p = false) :
    Inv ((OtpStage.storing r code expiresAt).next sha256 toLowerCase i p.state).2
      (ts.set j ((OtpStage.storing r code expiresAt).next sha256 toLowerCase i p.state).1) wrong := by
  simp only [OtpStage.next]
  rcases @written_cases p.state i _ (OtpRepository.create
      (newOtp sha256 toLowerCase r code expiresAt i.now) (fun _ => rfl) p.state)
      (fun otp => .ok (.issued ⟨code, expiresAt, otp.id⟩))
    with ⟨e, heq, -⟩ | ⟨otp, s', hr, hf, heq⟩
  · rw [heq]
    exact hi.pass hj rfl (fun _ => rfl) fun _ => rfl
  · rw [heq]
    obtain ⟨rfl, hmem, -, hfresh⟩ := create_cases hr
    refine hi.issue hj (fun _ => rfl) hmem hfresh fun otp hm a ha hid hd hpurpose => ?_
    rcases hg with hfails | hfree
    · rw [hf] at hfails
      cases hfails
    · have hbusy := consuming_accepting hp hm
      rw [consumingOf, List.any_eq_false] at hfree
      refine hfree a ha ?_
      simp only [Bool.and_eq_true, beq_iff_eq]
      exact ⟨⟨hd, hpurpose⟩, by rw [hid]; exact hbusy⟩

theorem Inv.step (hp : p.threads = ts.map (OtpStage.prog sha256 toLowerCase))
    (hi : Inv p.state ts wrong) (hg : Timely sha256 p j i) :
    TakesLatest p j i ∧ ∃ ts', (p.step j i).threads = ts'.map (OtpStage.prog sha256 toLowerCase) ∧
      Inv (p.step j i).state ts' fun id => wrong id + wrongCode sha256 id p j i := by
  rcases mechanical.step hp j i with ⟨t, l, hj, hl, hpl, hstate, hthreads⟩ | ⟨hnone, heq⟩
  · have hg' : InOrder sha256 p i l := by
      have hg' := hg
      unfold Timely at hg'
      rwa [hpl] at hg'
    refine ⟨fun id hconsume hf => ?_, _, hthreads, ?_⟩
    · rw [hconsume] at hpl
      obtain rfl := Option.some.inj hpl
      cases t with
      | accepting otp =>
        obtain rfl : otp.id = id := by simpa [OtpStage.label?] using hl
        exact (hi.accepting otp (List.mem_of_getElem? hj)).2
      | _ => simp [OtpStage.label?] at hl
    · rw [hstate]
      have hquiet : compared sha256 l i p.state = none →
          (fun id => wrong id + wrongCode sha256 id p j i) = wrong := by
        intro hnone
        funext id
        simp [wrongCode, hpl, hnone]
      cases t with
      | issuing r =>
        obtain rfl := Option.some.inj hl
        rw [hquiet rfl]
        exact hi.pass hj rfl (fun _ => rfl) fun _ => rfl
      | storing r code expiresAt =>
        obtain rfl := Option.some.inj hl
        rw [hquiet rfl]
        exact hi.create hp hj hg'
      | verifying r => exact hi.read hp hj hl hpl hg'
      | accepting otp =>
        obtain rfl := Option.some.inj hl
        rw [hquiet rfl]
        simp only [OtpStage.next]
        rcases @written_cases p.state i _ (OtpRepository.consume otp.id i.now p.state)
            (fun _ => .ok (.verified ⟨otp.userId, otp.id⟩))
          with ⟨e, heq, -⟩ | ⟨u, s', hr, -, heq⟩
        · rw [heq]
          exact hi.pass hj rfl (fun _ => rfl) fun _ => rfl
        · rw [heq]
          exact hi.consume hj (consume_cases hr)
      | rejecting id =>
        obtain rfl := Option.some.inj hl
        rw [hquiet rfl]
        simp only [OtpStage.next]
        rcases @written_cases p.state i _ (OtpRepository.incrementAttempts id p.state)
            (fun _ => .error otpInvalid)
          with ⟨e, -, hfails | herr⟩ | ⟨u, s', hr, -, heq⟩
        · have hwritten : i.fails = false := hg'
          rw [hfails] at hwritten
          cases hwritten
        · obtain ⟨a, ha, hid⟩ := hi.rejecting id (List.mem_of_getElem? hj)
          exact absurd herr (incrementAttempts_ne_error ha hid)
        · rw [heq]
          exact hi.increment hj (incrementAttempts_cases hr)
      | ended result => cases hl
  · refine ⟨fun id hconsume => ?_, ts, ?_, ?_⟩
    · rw [hnone] at hconsume
      cases hconsume
    · rw [heq]
      exact hp
    · have hquiet : (fun id => wrong id + wrongCode sha256 id p j i) = wrong := by
        funext id
        simp [wrongCode, hnone]
      rw [heq, hquiet]
      exact hi

theorem Inv.run {sched : List (ℕ × OtpInput)}
    (hp : p.threads = ts.map (OtpStage.prog sha256 toLowerCase)) (hi : Inv p.state ts wrong)
    (hg : p.Heeds (Timely sha256) sched) :
    p.Heeds TakesLatest sched ∧
      ∃ ts', (p.run sched).threads = ts'.map (OtpStage.prog sha256 toLowerCase) ∧
        Inv (p.run sched).state ts' fun id => wrong id + wrongCodes sha256 id p sched := by
  induction sched generalizing p ts wrong with
  | nil => exact ⟨trivial, ts, hp, hi⟩
  | cons a rest ih =>
    obtain ⟨hlatest, ts₁, hp₁, hi₁⟩ := hi.step hp hg.1
    obtain ⟨hrest, ts', hp', hi'⟩ := ih hp₁ hi₁ hg.2
    refine ⟨⟨hlatest, hrest⟩, ts', hp', ?_⟩
    have hadd : (fun id => wrong id + wrongCodes sha256 id p (a :: rest)) = fun id =>
        wrong id + wrongCode sha256 id p a.1 a.2 + wrongCodes sha256 id (p.step a.1 a.2) rest := by
      funext id
      exact (Nat.add_assoc ..).symm
    rw [hadd]
    exact hi'

def OtpRequest.stage : OtpRequest → OtpStage
  | .issue r => .issuing r
  | .verify r => .verifying r

theorem stage_prog (r : OtpRequest) :
    r.stage.prog sha256 toLowerCase = r.prog sha256 toLowerCase := by
  cases r <;> rfl

theorem inv_start (requests : List OtpRequest) (s : OtpState) :
    Inv s (requests.map OtpRequest.stage) fun _ => 0 := by
  have hstage : ∀ t ∈ requests.map OtpRequest.stage, t.holds = none ∧ ∀ id, t.rejects id = false := by
    intro t ht
    obtain ⟨r, -, rfl⟩ := List.mem_map.mp ht
    cases r <;> exact ⟨rfl, fun _ => rfl⟩
  refine ⟨fun otp hm => ?_, fun v hm => ?_, fun j j' t t' id hj hj' hid => ?_, fun id hm => ?_,
    fun o ho => ⟨Nat.zero_le _, fun hpos => absurd hpos (by simp)⟩,
    fun id hpos => absurd hpos (by simp)⟩
  · cases (hstage _ hm).1
  · cases (hstage _ hm).1
  · rw [(hstage t (List.mem_of_getElem? hj)).1] at hid
    cases hid
  · have hself := (hstage _ hm).2 id
    simp [OtpStage.rejects] at hself

theorem ended_of_done {r : Except Failure OtpAnswer} (h : t.prog sha256 toLowerCase = .done r) :
    t = .ended r := by
  have hlabel : t.label? toLowerCase = none := by
    rw [← mechanical.label_prog t, h]
    rfl
  cases t with
  | ended result => exact congrArg OtpStage.ended (by injection h)
  | _ => cases hlabel

theorem verified?_stage (hp : p.threads = ts.map (OtpStage.prog sha256 toLowerCase)) {id : ℕ}
    (h : verified? p j = some id) : ∃ t, ts[j]? = some t ∧ t.holds = some id := by
  unfold verified? at h
  split at h
  · rename_i v hthread
    rw [hp, List.getElem?_map] at hthread
    obtain ⟨t, ht, hdone⟩ := Option.map_eq_some_iff.mp hthread
    rw [ended_of_done hdone] at ht
    exact ⟨_, ht, h⟩
  · cases h

/-- Calls that read, compare and issue in time accept each OTP once and while it is the latest, and
compare no more wrong codes against it than it allows. -/
theorem otps_sound (sha256 toLowerCase : String → String) (requests : List OtpRequest)
    (start : OtpState) (sched : List (ℕ × OtpInput))
    (hg : (otpPool sha256 toLowerCase requests start).Heeds (Timely sha256) sched) :
    OtpsSound sha256 (otpPool sha256 toLowerCase requests start) sched := by
  have hstages : (otpPool sha256 toLowerCase requests start).threads =
      (requests.map OtpRequest.stage).map (OtpStage.prog sha256 toLowerCase) := by
    simp only [otpPool, List.map_map]
    exact List.map_congr_left fun r _ => (stage_prog r).symm
  obtain ⟨hlatest, ts, hp, hi⟩ := (inv_start requests start).run hstages hg
  refine ⟨fun j j' id hj hj' => ?_, hlatest, fun o ho => ?_⟩
  · obtain ⟨t, ht, hid⟩ := verified?_stage hp hj
    obtain ⟨t', ht', hid'⟩ := verified?_stage hp hj'
    exact hi.once j j' t t' id ht ht' hid hid'
  · obtain ⟨hle, hmax⟩ := hi.counted o ho
    by_cases hpos : 0 < wrongCodes sha256 o.id (otpPool sha256 toLowerCase requests start) sched
    · have hroom := hmax (by omega)
      omega
    · omega

end Runs

section Scenarios

def loginIssue : OtpRequest :=
  .issue ⟨"ann@mail.test", .email, .login, none⟩

def loginVerify (code : String) : OtpRequest :=
  .verify ⟨"ann@mail.test", .login, code⟩

def oneByOne : List (ℕ × OtpInput) :=
  [(0, { reply := ⟨23456⟩ }), (0, { reply := {} }), (1, { now := 1, reply := {} }),
   (1, { now := 2, reply := {} }), (2, { now := 3, reply := {} }), (2, { now := 4, reply := {} })]

theorem otps_sound_one_by_one :
    OtpsSound id (otpPool id id [loginIssue, loginVerify "111111", loginVerify "123456"] {})
      oneByOne :=
  otps_sound id id [loginIssue, loginVerify "111111", loginVerify "123456"] {} oneByOne
    (by decide +kernel)

/-- The right code twice, both read before the OTP is consumed. -/
def sideBySide : List (ℕ × OtpInput) :=
  [(0, { reply := ⟨23456⟩ }), (0, { reply := {} }), (1, { now := 1, reply := {} }),
   (2, { now := 2, reply := {} }), (1, { now := 3, reply := {} }), (2, { now := 4, reply := {} })]

/-- Both calls are accepted. -/
theorem accepted_twice :
    ¬ OtpsSound id (otpPool id id [loginIssue, loginVerify "123456", loginVerify "123456"] {})
      sideBySide := by
  intro h
  have hsame : (1 : ℕ) = 2 := h.once 1 2 0 (by decide +kernel) (by decide +kernel)
  omega

end Scenarios

end ElectronicsCart.Auth
