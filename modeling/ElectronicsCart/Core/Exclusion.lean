import ElectronicsCart.Core.Lock

/-!
# What a lock protects

Between the calls of a critical section other threads go on.  A `Protection` says which part
of the state each lock key guards: whoever holds the key finds that part as it was left, since
everyone else only touches it with the key in hand.
-/

namespace ElectronicsCart

open Interleaving

/-- The guarded part of each key, and what every call keeps, locked or not. -/
structure Protection (L σ κ τ : Type) [Lockable L σ κ] where
  view : κ → σ → τ
  frame : σ → σ → Prop
  refl : ∀ s, frame s s
  trans : ∀ {a b c}, frame a b → frame b c → frame a c
  view_setLocks : ∀ key m s, view key (Lockable.setLocks L m s) = view key s
  frame_setLocks : ∀ m s, frame s (Lockable.setLocks L m s)

namespace Protection

variable {L γ σ κ τ α : Type} [Lockable L σ κ] (B : Protection L σ κ τ)

/-- Keys held by `token` stay held and what they guard stays as it is. -/
def Kept (token : ℕ) (s s' : σ) : Prop :=
  ∀ key, Lockable.locks L s key = some token →
    Lockable.locks L s' key = some token ∧ B.view key s' = B.view key s

/-- The discipline of a thread that locks with `token`. -/
def discipline (token : ℕ) : Discipline L (Input γ) σ where
  rely s s' := B.frame s s' ∧ B.Kept token s s'
  guar _ _ s s' := B.frame s s' ∧ ∀ other, other ≠ token → B.Kept other s s'
  refl s := ⟨B.refl s, fun _ h => ⟨h, rfl⟩⟩
  trans h h' := ⟨B.trans h.1 h'.1, fun key hk =>
    ⟨(h'.2 key (h.2 key hk).1).1, ((h'.2 key (h.2 key hk).1).2).trans (h.2 key hk).2⟩⟩

/-- The discipline of a thread that does nothing. -/
def idle : Discipline L (Input γ) σ where
  rely _ _ := True
  guar _ _ s s' := s = s'
  refl _ := trivial
  trans _ _ := trivial

/-- Each of the first `n` threads locks with its own token. -/
def tokens (n j : ℕ) : Discipline L (Input γ) σ := if j < n then B.discipline j else idle

theorem compatible {W : World L (Input γ) σ} {Q : ℕ → Except Failure α → σ → Prop} {n : ℕ}
    (hQ : ∀ j r s, n ≤ j → Q j r s) :
    Pool.Compatible W (idle : Discipline L (Input γ) σ) (B.tokens n) Q n := by
  refine ⟨?_, ?_, fun r s hj => hQ _ r s hj⟩
  · intro j j' l i s s' hne _ _ _ hg
    unfold tokens at hg ⊢
    split
    · split at hg
      · exact ⟨hg.1, hg.2 j' (Ne.symm hne)⟩
      · obtain rfl : s = s' := hg
        exact Discipline.refl _ _
    · trivial
  · intro j hj
    exact if_neg (Nat.not_lt.mpr hj)

/-- Each of the first `n` threads locks with its own token, beside programs that touch nothing that a
key guards. -/
def tokensBeside (C : Discipline L (Input γ) σ) (n j : ℕ) : Discipline L (Input γ) σ :=
  if j < n then B.discipline j else C

theorem compatible_beside {W : World L (Input γ) σ} {C : Discipline L (Input γ) σ}
    {Q : ℕ → Except Failure α → σ → Prop} {n : ℕ} (hQ : ∀ j r s, n ≤ j → Q j r s)
    (hrely : ∀ s s', C.rely s s')
    (hguar : ∀ l i s s', C.guar l i s s' → ∀ token, (B.discipline (γ := γ) token).rely s s') :
    Pool.Compatible W C (B.tokensBeside C n) Q n := by
  refine ⟨?_, ?_, fun r s hj => hQ _ r s hj⟩
  · intro j j' l i s s' hne _ _ _ hg
    unfold tokensBeside at hg ⊢
    split
    · split at hg
      · exact ⟨hg.1, hg.2 j' (Ne.symm hne)⟩
      · exact hguar l i s s' hg j'
    · exact hrely s s'
  · intro j hj
    exact if_neg (Nat.not_lt.mpr hj)

variable {B} {W : World L (Input γ) σ} {C : Discipline L (Input γ) σ} {token : ℕ} {l : L}
  {i : Input γ} {s s' : σ}

theorem guar_refl : (B.discipline token).guar l i s s :=
  ⟨B.refl s, fun _ _ _ h => ⟨h, rfl⟩⟩

/-- What no key guards that another thread holds may be written. -/
theorem guar_write_held (hframe : B.frame s s') (hlocks : Lockable.locks L s' = Lockable.locks L s)
    (hview : ∀ other k, other ≠ token → Lockable.locks L s k = some other → B.view k s' = B.view k s) :
    (B.discipline token).guar l i s s' :=
  ⟨hframe, fun other hother k hk => ⟨by rw [hlocks, hk], hview other k hother hk⟩⟩

theorem guar_write {key : κ} (hframe : B.frame s s') (hkey : Lockable.locks L s key = some token)
    (hlocks : Lockable.locks L s' = Lockable.locks L s)
    (hview : ∀ other, other ≠ key → B.view other s' = B.view other s) :
    (B.discipline token).guar l i s s' := by
  refine guar_write_held hframe hlocks fun other k hother hk => hview k ?_
  rintro rfl
  rw [hkey] at hk
  exact hother (Option.some.inj hk).symm

variable [DecidableEq κ]

theorem guar_take {key : κ} (hkey : Lockable.locks L s key = none) (value : Option ℕ) :
    (B.discipline token).guar l i s
      (Lockable.setLocks L (Function.update (Lockable.locks L s) key value) s) := by
  refine ⟨B.frame_setLocks _ s, fun other _ k hk => ⟨?_, B.view_setLocks ..⟩⟩
  have hne : k ≠ key := by
    rintro rfl
    rw [hkey] at hk
    cases hk
  rw [Lockable.locks_setLocks, Function.update_of_ne hne, hk]

theorem guar_drop (key : κ) : (B.discipline token).guar l i s (LockService.drop L key token s) := by
  rcases LockService.drop_cases (L := L) key token s with ⟨hkey, hd⟩ | hd
  · rw [hd]
    refine ⟨B.frame_setLocks _ s, fun other hother k hk => ⟨?_, B.view_setLocks ..⟩⟩
    have hne : k ≠ key := by
      rintro rfl
      rw [hkey] at hk
      exact hother (Option.some.inj hk).symm
    rw [Lockable.locks_setLocks, Function.update_of_ne hne, hk]
  · rw [hd]
    exact guar_refl

/-- An invariant may speak of the locks, as long as taking and dropping one keeps it. -/
theorem holds_withLock_guarded {P : σ → Prop} {Q : Except Failure α → σ → Prop} {key : κ}
    {fn : Prog L (Input γ) σ Failure α} (hP : ∀ t t', B.frame t t' → P t → P t')
    (hQ : ∀ r t t', B.frame t t' → Q r t → Q r t') (herr : ∀ e t, P t → Q (.error e) t)
    (hfail : ∀ r e t, Q r t → Q (.error e) t)
    (htake : ∀ i t, W.inv t → W.ok (Lockable.acquireCall σ key token) i t → Lockable.locks L t key = none →
      W.inv (Lockable.setLocks L (Function.update (Lockable.locks L t) key (some token)) t))
    (hdrop : ∀ t, W.inv t → W.inv (LockService.drop L key token t))
    (hfn : ∀ t, W.inv t → Lockable.locks L t key = some token → P t →
      Holds W C (B.discipline token) Q fn t)
    (hs : P s) : Holds W C (B.discipline token) Q (LockService.withLock key token fn) s := by
  refine holds_atomicBind fun t ht hi i ho => ⟨guar_refl, ?_, ?_⟩
  · exact fun e t' _ ht' _ => herr e _ (hP _ _ (B.trans ht.1 ht'.1) hs)
  intro got u _ hu
  have hPt : P t := hP _ _ ht.1 hs
  rcases LockService.take_cases (Except.ok.inj hu) with ⟨rfl, hfree, rfl⟩ | ⟨rfl, rfl⟩
  · have hinv := htake i t hi ho hfree
    refine ⟨hinv, guar_take hfree _, ?_⟩
    refine Holds.ensureBind (fun _ => ?_) fun h => absurd rfl h
    have hheld : Lockable.locks L (Lockable.setLocks L
        (Function.update (Lockable.locks L t) key (some token)) t) key = some token := by
      rw [Lockable.locks_setLocks, Function.update_self]
    have hbody := hfn _ hinv hheld (hP _ _ (B.frame_setLocks _ t) hPt)
    refine Holds.andFinally (Holds.mono ?_ hbody) hinv
    intro r t' _ hr
    refine Holds.call fun x hx hxi i' _ => ?_
    have hrx := hQ r _ _ hx.1 hr
    cases hf : i'.fails with
    | true => exact ⟨hxi, guar_refl, fun y hy _ => hfail r _ _ (hQ r _ _ hy.1 hrx)⟩
    | false =>
      simp only [Bool.false_eq_true, if_false, settle]
      have hframe : B.frame x (LockService.drop L key token x) := by
        rcases LockService.drop_cases (L := L) key token x with ⟨-, hd⟩ | hd
        · rw [hd]
          exact B.frame_setLocks _ x
        · rw [hd]
          exact B.refl x
      refine ⟨hdrop x hxi, guar_drop key, ?_⟩
      exact fun y hy _ z hz _ => hQ r _ _ (B.trans hframe (B.trans hy.1 hz.1)) hrx
  · refine ⟨hi, guar_refl, ?_⟩
    refine Holds.ensureBind (fun h => absurd h (by simp)) ?_
    exact fun _ t' ht' _ => herr _ _ (hP _ _ ht'.1 hPt)

theorem inv_drop {key : κ} (hinv : ∀ m t, W.inv t → W.inv (Lockable.setLocks L m t)) (t : σ)
    (ht : W.inv t) : W.inv (LockService.drop L key token t) := by
  rcases LockService.drop_cases (L := L) key token t with ⟨-, hd⟩ | hd
  · rw [hd]
    exact hinv _ t ht
  · rw [hd]
    exact ht

theorem holds_withLock {P R : σ → Prop} {key : κ} {fn : Prog L (Input γ) σ Failure α}
    (hP : ∀ t t', B.frame t t' → P t → P t') (hR : ∀ t t', B.frame t t' → R t → R t')
    (hweak : ∀ t, P t → R t) (hinv : ∀ m t, W.inv t → W.inv (Lockable.setLocks L m t))
    (hfn : ∀ t, W.inv t → Lockable.locks L t key = some token → P t →
      Holds W C (B.discipline token) (fun _ t' => R t') fn t)
    (hs : P s) :
    Holds W C (B.discipline token) (fun _ t => R t) (LockService.withLock key token fn) s :=
  holds_withLock_guarded hP (fun _ => hR) (fun _ => hweak) (fun _ _ _ h => h)
    (fun _ t ht _ _ => hinv _ t ht) (inv_drop hinv) hfn hs

theorem holds_withLock_result {Q : Except Failure α → σ → Prop} {key : κ}
    {fn : Prog L (Input γ) σ Failure α} (hQ : ∀ r t t', B.frame t t' → Q r t → Q r t')
    (herr : ∀ e t, Q (.error e) t) (hinv : ∀ m t, W.inv t → W.inv (Lockable.setLocks L m t))
    (hfn : ∀ t, B.frame s t → W.inv t → Lockable.locks L t key = some token →
      Holds W C (B.discipline token) Q fn t) :
    Holds W C (B.discipline token) Q (LockService.withLock key token fn) s :=
  holds_withLock_guarded (P := B.frame s) (fun _ _ h hs => B.trans hs h) hQ (fun e t _ => herr e t)
    (fun _ e t _ => herr e t) (fun _ t ht _ _ => hinv _ t ht) (inv_drop hinv)
    (fun t hi hk hframe => hfn t hframe hi hk) (B.refl s)

/-! ### Keys of one thing

A key is spelled by the request, so one thing may have several keys. -/

variable (L) {β : Type} (subject : κ → Option β)

def OneHeld (s : σ) : Prop :=
  ∀ key key' b, subject key = some b → subject key' = some b → Lockable.locks L s key ≠ none →
    Lockable.locks L s key' ≠ none → key = key'

variable {L}

/-- When a lock is asked for, nobody holds one with another key for the same thing. -/
def AskedAlike (acquired? : L → Option κ) (l : L) (s : σ) : Prop :=
  ∀ key ∈ acquired? l, ∀ other b, subject key = some b → subject other = some b →
    Lockable.locks L s other ≠ none → other = key

variable {subject}

omit [DecidableEq κ] in
theorem oneHeld_of_eq (h : OneHeld L subject s) (hl : Lockable.locks L s' = Lockable.locks L s) :
    OneHeld L subject s' := by
  rw [OneHeld, hl]
  exact h

theorem oneHeld_take {key : κ} {value : Option ℕ} (h : OneHeld L subject s)
    (hok : ∀ other b, subject key = some b → subject other = some b → Lockable.locks L s other ≠ none →
      other = key) :
    OneHeld L subject (Lockable.setLocks L (Function.update (Lockable.locks L s) key value) s) := by
  intro a b c ha hb hheld hheld'
  rw [Lockable.locks_setLocks] at hheld hheld'
  by_cases hakey : a = key
  · by_cases hbkey : b = key
    · rw [hakey, hbkey]
    · rw [Function.update_of_ne hbkey] at hheld'
      rw [hakey] at ha
      exact hakey.trans (hok b c ha hb hheld').symm
  · rw [Function.update_of_ne hakey] at hheld
    by_cases hbkey : b = key
    · rw [hbkey] at hb
      exact (hok a c hb ha hheld).trans hbkey.symm
    · rw [Function.update_of_ne hbkey] at hheld'
      exact h a b c ha hb hheld hheld'

theorem oneHeld_drop {key : κ} (h : OneHeld L subject s) :
    OneHeld L subject (LockService.drop L key token s) := by
  rcases LockService.drop_cases (L := L) key token s with ⟨-, hd⟩ | hd
  · rw [hd]
    intro a b c ha hb hheld hheld'
    rw [Lockable.locks_setLocks] at hheld hheld'
    have hkept : ∀ k, Function.update (Lockable.locks L s) key none k ≠ none →
        Lockable.locks L s k ≠ none := by
      intro k hk
      by_cases hkey : k = key
      · rw [hkey, Function.update_self] at hk
        exact absurd rfl hk
      · rwa [Function.update_of_ne hkey] at hk
    exact h a b c ha hb (hkept a hheld) (hkept b hheld')
  · rw [hd]
    exact h

omit [DecidableEq κ] in
/-- What another thread has locked is another thing. -/
theorem OneHeld.other {key other : κ} {holder : ℕ} {b : β} (h : OneHeld L subject s)
    (hkey : Lockable.locks L s key = some token) (hother : Lockable.locks L s other = some holder)
    (hne : holder ≠ token) (hsubject : subject key = some b) : subject other ≠ some b := by
  intro hb
  have hsame : key = other := h key other b hsubject hb (by simp [hkey]) (by simp [hother])
  rw [hsame, hother] at hkey
  exact hne (Option.some.inj hkey)

/-- Where only some keys stand for anything, the condition can be checked. -/
@[reducible] def decidableAskedAlike [DecidableEq β] (keys : List κ)
    (hkeys : ∀ key b, subject key = some b → key ∈ keys) (acquired? : L → Option κ) (l : L) (s : σ) :
    Decidable (AskedAlike subject acquired? l s) :=
  decidable_of_iff (∀ key ∈ acquired? l, ∀ other ∈ keys, subject key ≠ none →
    subject other = subject key → Lockable.locks L s other ≠ none → other = key) <| by
    constructor
    · intro h key hkey other b hsubject hother hheld
      exact h key hkey other (hkeys other b hother) (by simp [hsubject]) (hother.trans hsubject.symm) hheld
    · intro h key hkey other _ hsome hsame hheld
      obtain ⟨b, hb⟩ := Option.ne_none_iff_exists'.mp hsome
      exact h key hkey other b hb (hsame.trans hb) hheld

end Protection

end ElectronicsCart
