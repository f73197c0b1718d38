import ElectronicsCart.Core.Lock
import ElectronicsCart.Lib.Serial

/-!
# Calls that wait for one lock

The critical sections of one lock run one at a time, so the calls are serialized by it: the region that
they enter is shut while the key holds a token.
-/

namespace ElectronicsCart

open Interleaving

namespace LockService

variable {L γ σ κ α β : Type} [Lockable L σ κ]

variable (L) in
def Held (key : κ) (s : σ) : Prop := Lockable.locks L s key ≠ none

/-- The program leaves the locks as they are, and nothing running behind. -/
structure Inner (p : Prog L (Input γ) σ Failure α) : Prop where
  sole : p.Sole
  locks : p.Every (fun _ _ _ => True) fun _ _ s s' => Lockable.locks L s' = Lockable.locks L s

namespace Inner

theorem bind {p : Prog L (Input γ) σ Failure β} {k : β → Prog L (Input γ) σ Failure α} (hp : Inner p)
    (hk : ∀ b, Inner (k b)) : Inner (p.bind k) :=
  ⟨hp.sole.bind fun b => (hk b).sole, hp.locks.bind fun b => (hk b).locks⟩

theorem tryCatch {p : Prog L (Input γ) σ Failure α} {h : Failure → Prog L (Input γ) σ Failure α}
    (hp : Inner p) (hh : ∀ e, Inner (h e)) : Inner (p.attempt.bind (Prog.orElse h)) :=
  ⟨hp.sole.tryCatch fun e => (hh e).sole, hp.locks.tryCatch fun e => (hh e).locks⟩

theorem done (r : Except Failure α) : Inner (.done r : Prog L (Input γ) σ Failure α) := ⟨trivial, trivial⟩

theorem ensure (c : Prop) [Decidable c] (e : Failure) :
    Inner (Prog.ensure c e : Prog L (Input γ) σ Failure Unit) := done _

theorem orThrow (e : Failure) (o : Option α) :
    Inner (Prog.orThrow e o : Prog L (Input γ) σ Failure α) := by
  cases o <;> exact done _

theorem call {l : L} {f : Input γ → σ → Except Failure α × σ}
    (h : ∀ i s, Lockable.locks L (f i s).2 = Lockable.locks L s) : Inner (Prog.call l f) :=
  ⟨Prog.sole_call l f, Prog.every_call fun i s _ => h i s⟩

theorem query (l : L) (f : Input γ → σ → α) : Inner (query l f) := call fun _ _ => rfl

theorem atomic {l : L} {f : Input γ → σ → Except Failure (α × σ)}
    (h : ∀ i s b s', f i s = .ok (b, s') → Lockable.locks L s' = Lockable.locks L s) :
    Inner (atomic l f) :=
  ⟨Prog.sole_call l _, every_atomic (fun _ _ _ => rfl) fun i s b s' _ _ hf => h i s b s' hf⟩

end Inner

variable [DecidableEq κ] {ok : L → Input γ → σ → Prop} {key : κ} {token : ℕ}
  {fn : Prog L (Input γ) σ Failure α}

theorem inside_release {s : σ} (h : Held L key s) (r : Except Failure α) :
    Prog.Inside ok (Held L key)
      ((release key token : Prog L (Input γ) σ Failure Unit).bind fun _ => .done r) s := by
  refine ⟨h, ?_⟩
  intro i _
  change Prog.Inside ok (Held L key) (Prog.bind (.done _) _) _
  cases hf : i.fails <;> simp only [hf, if_true, Bool.false_eq_true, if_false, settle] <;> trivial

theorem enters_withLock (h : Inner fn) : (withLock key token fn).Enters ok (Held L key) := by
  intro i s _
  change (Held L key s → _ = s ∧ ∃ r, Prog.bind (.done _) _ = .done r) ∧
    (¬ Held L key s → Prog.Inside ok (Held L key) (Prog.bind (.done _) _) _)
  cases hf : i.fails with
  | true =>
    simp only [hf, if_true]
    exact ⟨fun _ => ⟨trivial, _, rfl⟩, fun _ => trivial⟩
  | false =>
    constructor
    · intro hheld
      have htake : take L key token s = (false, s) := if_neg hheld
      simp only [hf, Bool.false_eq_true, if_false, settle, htake]
      exact ⟨trivial, _, rfl⟩
    · intro hfree
      have htake : take L key token s =
          (true, Lockable.setLocks L (Function.update (Lockable.locks L s) key (some token)) s) :=
        if_pos (not_not.mp hfree)
      simp only [hf, Bool.false_eq_true, if_false, settle, htake]
      refine Prog.Inside.attemptBind h.sole ?_ (fun r t ht => inside_release ht r) ?_
      · refine h.locks.imp (fun _ _ _ _ => trivial) ?_
        intro l i s s' _ hlocks hs
        rwa [Held, hlocks]
      · rw [Held, Lockable.locks_setLocks, Function.update_self]
        exact Option.some_ne_none token

theorem refuses_withLock {r : Except Failure α} (hr : (withLock key token fn).Refuses ok (Held L key) r) :
    r = .error (notAcquired L σ key) ∨ ∃ i s, ok (Lockable.acquireCall σ key token) i s ∧ i.fails = true := by
  obtain ⟨i, s, hok, hheld, hr⟩ := hr
  cases hf : i.fails with
  | true => exact .inr ⟨i, s, hok, hf⟩
  | false =>
    have htake : take L key token s = (false, s) := if_neg hheld
    change Prog.bind (.done _) _ = _ at hr
    simp only [hf, Bool.false_eq_true, if_false, settle, htake] at hr
    exact .inl (Prog.done.inj hr).symm

end LockService

end ElectronicsCart
