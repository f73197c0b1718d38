import ElectronicsCart.Core.Environment
import Mathlib.Logic.Function.Basic

/-!
# Redis locks

`shared/lock/lock.service.ts`.  A lock is a key that holds the token of its owner;
`SET NX` takes it when the key is absent and the release script deletes it only
when the token still matches.  The polls that fail while `acquire` waits change
nothing, so the call that decides (the successful poll, or the last one before the
deadline) stands for the loop.  Expiry of the TTL is left out: the callers rely on
the lock for mutual exclusion as long as their critical section runs.
-/

namespace ElectronicsCart

open Interleaving

abbrev LockStore (κ : Type) := κ → Option ℕ

/-- A state with a lock store, the labels of its two calls, and the parts that
`LockService.resourceKey` joins. -/
class Lockable (L σ : Type) (κ : outParam Type) where
  locks : σ → LockStore κ
  setLocks : LockStore κ → σ → σ
  acquireCall : κ → ℕ → L
  releaseCall : κ → ℕ → L
  resource : κ → List String
  locks_setLocks : ∀ m s, locks (setLocks m s) = m

namespace LockService

variable {L γ σ κ α : Type} [DecidableEq κ] [Lockable L σ κ]

def resourceKey (parts : List String) : String := ":".intercalate parts

variable (L) in
/-- `SET key token NX`. -/
def take (key : κ) (token : ℕ) (s : σ) : Bool × σ :=
  let m := Lockable.locks L s
  if m key = none then
    (true, Lockable.setLocks L (Function.update m key (some token)) s)
  else (false, s)

variable (L) in
def drop (key : κ) (token : ℕ) (s : σ) : σ :=
  let m := Lockable.locks L s
  if m key = some token then Lockable.setLocks L (Function.update m key none) s else s

def acquire (key : κ) (token : ℕ) : Prog L (Input γ) σ Failure Bool :=
  atomic (Lockable.acquireCall σ key token) fun _ s => .ok (take L key token s)

def release (key : κ) (token : ℕ) : Prog L (Input γ) σ Failure Unit :=
  atomic (Lockable.releaseCall σ key token) fun _ s => .ok ((), drop L key token s)

variable (L σ) in
def notAcquired (key : κ) : Failure :=
  .throwApp .lockNotAcquired
    ("Could not acquire lock for \"" ++ resourceKey (Lockable.resource L σ key) ++ "\"") 409

def withLock (key : κ) (token : ℕ) (fn : Prog L (Input γ) σ Failure α) :
    Prog L (Input γ) σ Failure α :=
  (acquire key token).bind fun got =>
    (Prog.ensure (got = true) (notAcquired L σ key)).bind fun _ =>
      fn.andFinally (release key token)

variable {ok : L → Input γ → σ → Prop} {ψ : L → Input γ → σ → σ → Prop}

theorem take_cases {key : κ} {token : ℕ} {s s' : σ} {got : Bool} (h : take L key token s = (got, s')) :
    (got = true ∧ Lockable.locks L s key = none ∧
        s' = Lockable.setLocks L (Function.update (Lockable.locks L s) key (some token)) s) ∨
      got = false ∧ s' = s := by
  simp only [take] at h
  split at h
  next hk =>
    obtain ⟨rfl, rfl⟩ := Prod.mk.inj h
    exact .inl ⟨rfl, hk, rfl⟩
  next =>
    obtain ⟨rfl, rfl⟩ := Prod.mk.inj h
    exact .inr ⟨rfl, rfl⟩

theorem drop_cases (key : κ) (token : ℕ) (s : σ) :
    (Lockable.locks L s key = some token ∧
        drop L key token s = Lockable.setLocks L (Function.update (Lockable.locks L s) key none) s) ∨
      drop L key token s = s := by
  simp only [drop]
  split
  next hk => exact .inl ⟨hk, rfl⟩
  next => exact .inr rfl

theorem every_withLock {key : κ} {token : ℕ} {fn : Prog L (Input γ) σ Failure α}
    (hset : ∀ l i m s, l = Lockable.acquireCall σ key token ∨ l = Lockable.releaseCall σ key token →
      ok l i s → ψ l i s s ∧ ψ l i s (Lockable.setLocks L m s))
    (hfn : fn.Every ok ψ) : (withLock key token fn).Every ok ψ := by
  have hrefl : ∀ l i s, l = Lockable.acquireCall σ key token ∨ l = Lockable.releaseCall σ key token →
      ok l i s → ψ l i s s := fun l i s hl ho => (hset l i (Lockable.locks L s) s hl ho).1
  refine Prog.Every.bind ?_ fun got => Prog.Every.bind trivial fun _ => hfn.andFinally ?_
  · refine every_atomic (fun i s => hrefl _ i s (.inl rfl)) ?_
    rintro i s b s' ho - hs
    rcases take_cases (Except.ok.inj hs) with ⟨-, -, rfl⟩ | ⟨-, rfl⟩
    · exact (hset _ i _ s (.inl rfl) ho).2
    · exact hrefl _ i _ (.inl rfl) ho
  · refine every_atomic (fun i s => hrefl _ i s (.inr rfl)) ?_
    rintro i s b s' ho - hs
    obtain ⟨-, rfl⟩ := Prod.mk.inj (Except.ok.inj hs)
    rcases drop_cases (L := L) key token s with ⟨-, hd⟩ | hd
    · rw [hd]
      exact (hset _ i _ s (.inr rfl) ho).2
    · rw [hd]
      exact hrefl _ i s (.inr rfl) ho

section Holds

variable {W : World L (Input γ) σ} {C D : Discipline L (Input γ) σ} {P R : σ → Prop}

/-- What the critical section makes of `P` is `R`; neither sees the locks, and the other
threads keep both. -/
theorem holds_withLock {key : κ} {token : ℕ} {fn : Prog L (Input γ) σ Failure α} {s : σ}
    (hP : ∀ t t', D.rely t t' → P t → P t') (hR : ∀ t t', D.rely t t' → R t → R t')
    (hlocks : ∀ m t, P t → P (Lockable.setLocks L m t))
    (hlocks' : ∀ m t, R t → R (Lockable.setLocks L m t)) (hweak : ∀ t, P t → R t)
    (hinv : ∀ m t, W.inv t → W.inv (Lockable.setLocks L m t))
    (hguar : ∀ l i m t, l = Lockable.acquireCall σ key token ∨ l = Lockable.releaseCall σ key token →
      W.inv t → D.guar l i t t ∧ D.guar l i t (Lockable.setLocks L m t))
    (hfn : ∀ t, W.inv t → P t → Holds W C D (fun _ t' => R t') fn t) (hs : P s) :
    Holds W C D (fun _ t => R t) (withLock key token fn) s := by
  refine holds_atomicBind fun t ht hi i ho =>
    ⟨(hguar _ i (Lockable.locks L t) t (.inl rfl) hi).1, ?_, ?_⟩
  · exact fun e t' _ ht' _ => hweak _ (hP _ _ (D.trans ht ht') hs)
  intro got u _ hu
  have hPt : P t := hP _ _ ht hs
  have hcases : W.inv u ∧ D.guar (Lockable.acquireCall σ key token) i t u ∧ P u := by
    rcases take_cases (Except.ok.inj hu) with ⟨-, -, rfl⟩ | ⟨-, rfl⟩
    · exact ⟨hinv _ t hi, (hguar _ i _ t (.inl rfl) hi).2, hlocks _ t hPt⟩
    · exact ⟨hi, (hguar _ i (Lockable.locks L u) u (.inl rfl) hi).1, hPt⟩
  obtain ⟨hui, hg, hPu⟩ := hcases
  refine ⟨hui, hg, ?_⟩
  refine Holds.ensureBind (fun _ => ?_) fun _ t' ht' _ => hweak _ (hP _ _ ht' hPu)
  refine Holds.andFinally (Holds.mono ?_ (hfn u hui hPu)) hui
  intro r t' _ hPt'
  refine Holds.call fun x hx hxi i' ho' => ?_
  have hPx : R x := hR _ _ hx hPt'
  have hg' := fun m => hguar _ i' m x (.inr rfl) hxi
  cases hf : i'.fails with
  | true => exact ⟨hxi, (hg' (Lockable.locks L x)).1, fun y hy _ => hR _ _ hy hPx⟩
  | false =>
    simp only [Bool.false_eq_true, if_false, settle]
    rcases drop_cases (L := L) key token x with ⟨-, hd⟩ | hd
    · rw [hd]
      refine ⟨hinv _ x hxi, (hg' _).2, ?_⟩
      exact fun y hy _ z hz _ => hR _ _ (D.trans hy hz) (hlocks' _ x hPx)
    · rw [hd]
      exact ⟨hxi, (hg' (Lockable.locks L x)).1, fun y hy _ z hz _ => hR _ _ (D.trans hy hz) hPx⟩

theorem holds_withLock_result {Q : Except Failure α → σ → Prop} {key : κ} {token : ℕ}
    {fn : Prog L (Input γ) σ Failure α} {s : σ} (hQ : ∀ r t t', D.rely t t' → Q r t → Q r t')
    (herr : ∀ e t, Q (.error e) t)
    (hlocks : ∀ m r t, Q r t → Q r (Lockable.setLocks L m t))
    (hinv : ∀ m t, W.inv t → W.inv (Lockable.setLocks L m t))
    (hguar : ∀ l i m t, l = Lockable.acquireCall σ key token ∨ l = Lockable.releaseCall σ key token →
      W.inv t → D.guar l i t t ∧ D.guar l i t (Lockable.setLocks L m t))
    (hfn : ∀ t, W.inv t → Holds W C D Q fn t) : Holds W C D Q (withLock key token fn) s := by
  have hrelease : ∀ r t, W.inv t → Q r t →
      Holds W C D (Holds.Ends W D Q r) (release key token) t := by
    intro r t hi hq
    refine Holds.call fun x hx hxi i' ho' => ?_
    have hqx := hQ r t x hx hq
    have hg' := fun m => hguar _ i' m x (.inr rfl) hxi
    cases hf : i'.fails with
    | true => exact ⟨hxi, (hg' (Lockable.locks L x)).1, fun y _ _ => herr _ y⟩
    | false =>
      simp only [Bool.false_eq_true, if_false, settle]
      rcases drop_cases (L := L) key token x with ⟨-, hd⟩ | hd
      · rw [hd]
        refine ⟨hinv _ x hxi, (hg' _).2, ?_⟩
        exact fun y hy _ z hz _ => hQ r _ z (D.trans hy hz) (hlocks _ r x hqx)
      · rw [hd]
        exact ⟨hxi, (hg' (Lockable.locks L x)).1, fun y hy _ z hz _ => hQ r _ z (D.trans hy hz) hqx⟩
  have hsection : ∀ t, W.inv t → Holds W C D Q (fn.andFinally (release key token)) t := fun t hi =>
    Holds.andFinally (Holds.mono (fun r t' hi' hq => hrelease r t' hi' hq) (hfn t hi)) hi
  refine holds_atomicBind fun t ht hi i ho =>
    ⟨(hguar _ i (Lockable.locks L t) t (.inl rfl) hi).1, fun e t' _ _ _ => herr e t', ?_⟩
  intro got u _ hu
  rcases take_cases (Except.ok.inj hu) with ⟨rfl, -, rfl⟩ | ⟨rfl, rfl⟩
  · refine ⟨hinv _ t hi, (hguar _ i _ t (.inl rfl) hi).2, ?_⟩
    exact hsection _ (hinv _ t hi)
  · exact ⟨hi, (hguar _ i (Lockable.locks L u) u (.inl rfl) hi).1, fun t' _ _ => herr _ t'⟩

end Holds

end LockService

end ElectronicsCart
