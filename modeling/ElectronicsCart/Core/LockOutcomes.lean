import ElectronicsCart.Core.Lock
import ElectronicsCart.Lib.Settling

/-!
# What a critical section reports

`withLock` of `shared/lock/lock.service.ts` releases its lock in a `finally` block.  The turns of a
section are the acquisition, those of its body and the release, which may find that the lock has
expired or that another owner has it.
-/

namespace ElectronicsCart.LockService

open Interleaving

variable {L γ σ κ α : Type} [DecidableEq κ] [Lockable L σ κ]

/-- The turn at which `SET NX` gets the lock. -/
def Acquires (L : Type) [Lockable L σ κ] (key : κ) (turn : Input γ × σ) : Prop :=
  turn.1.fails = false ∧ Lockable.locks L turn.2 key = none

/-- How the script ends, whether it has deleted the key or not. -/
def released (i : Input γ) : Except Failure Unit := if i.fails then .error .database else .ok ()

theorem settles_release {key : κ} {token : ℕ} {turns : List (Input γ × σ)} {r : Except Failure Unit} :
    (release key token : Prog L (Input γ) σ Failure Unit).Settles turns r ↔
      ∃ i s, turns = [(i, s)] ∧ r = released i := by
  refine Prog.settles_call.trans (exists_congr fun i => exists_congr fun s => and_congr_right fun _ => ?_)
  cases hf : i.fails <;> simp [released, hf, settle]

theorem finishes_withLock {key : κ} {token : ℕ} {fn : Prog L (Input γ) σ Failure α}
    (hfn : fn.Finishes) : (withLock key token fn).Finishes := by
  refine (Prog.finishes_call _ _).bind fun got => ?_
  refine (Prog.finishes_done _).bind fun _ => ?_
  exact hfn.andFinally (Prog.finishes_call _ _)

theorem settles_withLock {key : κ} {token : ℕ} {fn : Prog L (Input γ) σ Failure α}
    {start : Input γ × σ} {turns : List (Input γ × σ)} {r : Except Failure α}
    (hgot : Acquires L key start) :
    (withLock key token fn).Settles (start :: turns) r ↔
      ∃ body last r₀, turns = body ++ [last] ∧ fn.Settles body r₀ ∧
        r = Prog.finalOutcome r₀ (released last.1) := by
  have hsection : (withLock key token fn).Settles (start :: turns) r ↔
      (fn.andFinally (release key token)).Settles turns r := by
    obtain ⟨hfails, hfree⟩ := hgot
    show ((Prog.done _).bind _).Settles turns r ↔ _
    simp only [hfails, take, hfree, settle, Bool.false_eq_true, if_false, if_true]
    rfl
  rw [hsection, Prog.settles_andFinally]
  constructor
  · rintro ⟨body, last, r₁, r₂, rfl, hbody, hlast, rfl⟩
    obtain ⟨i, s, rfl, rfl⟩ := settles_release.mp hlast
    exact ⟨body, (i, s), r₁, rfl, hbody, rfl⟩
  · rintro ⟨body, last, r₀, rfl, hbody, rfl⟩
    exact ⟨body, [last], r₀, released last.1, rfl, hbody, settles_release.mpr ⟨last.1, last.2, rfl, rfl⟩,
      rfl⟩

/-- Whatever the other threads do, a section that has ended got no lock, or it reports the outcome
of its body and of the release. -/
theorem ended_section {p : Pool L (Input γ) σ Failure α} {j : ℕ} {key : κ} {token : ℕ}
    {fn : Prog L (Input γ) σ Failure α} {sched : List (ℕ × Input γ)} {r : Except Failure α}
    (hj : p.threads[j]? = some (withLock key token fn))
    (hr : (p.run sched).threads[j]? = some (.done r)) :
    ∃ start turns, (withLock key token fn).Settles (start :: turns) r ∧ (Acquires L key start →
      ∃ body last r₀, turns = body ++ [last] ∧ fn.Settles body r₀ ∧
        r = Prog.finalOutcome r₀ (released last.1)) := by
  obtain ⟨turns, hturns⟩ := Pool.settles_of_run hj hr
  cases turns with
  | nil => exact hturns.elim
  | cons start turns => exact ⟨start, turns, hturns, fun hgot => (settles_withLock hgot).mp hturns⟩

/-- A critical section settles as its body does exactly when the release does not reject, or rejects
with the error of the body. -/
theorem withLock_settles_iff (key : κ) (token : ℕ) (fn : Prog L (Input γ) σ Failure α)
    (start last : Input γ × σ) (body : List (Input γ × σ)) (r : Except Failure α)
    (hgot : Acquires L key start) (hfn : fn.Settles body r) :
    (withLock key token fn).Settles (start :: (body ++ [last])) r ↔
      (last.1.fails = true → r = .error .database) := by
  have hkeeps : Prog.finalOutcome r (released last.1) = r ↔
      (last.1.fails = true → r = .error .database) := by
    rw [Prog.finalOutcome_eq_iff]
    cases hf : last.1.fails <;> simp [released, hf]
  rw [settles_withLock hgot, ← hkeeps]
  constructor
  · rintro ⟨body', last', r₀, hturns, hbody, hr⟩
    obtain ⟨rfl, hlast⟩ := List.append_inj' hturns rfl
    obtain rfl := List.singleton_injective hlast
    obtain rfl := hfn.unique hbody
    exact hr.symm
  · intro hr
    exact ⟨body, last, r, rfl, hfn, hr.symm⟩

inductive LockCall where
  | acquire (key : String) (token : ℕ)
  | release (key : String) (token : ℕ)
  | work
deriving DecidableEq

instance : Lockable LockCall (LockStore String) String where
  locks := id
  setLocks m _ := m
  acquireCall := .acquire
  releaseCall := .release
  resource key := [key]
  locks_setLocks _ _ := rfl

def askNumber : Prog LockCall (Input ℕ) (LockStore String) Failure ℕ :=
  query .work fun i _ => i.reply

/-- The lock expired while the body ran, and its number is answered all the same. -/
theorem number_after_expiry : (withLock "inventory" 1 askNumber).Settles
    [({ reply := 0 }, fun _ => none), ({ reply := 7 }, fun _ => none), ({ reply := 0 }, fun _ => none)]
    (.ok 7) :=
  (withLock_settles_iff "inventory" 1 askNumber ({ reply := 0 }, fun _ => none)
    ({ reply := 0 }, fun _ => none) [({ reply := 7 }, fun _ => none)] (.ok 7) ⟨rfl, rfl⟩
    ⟨rfl, rfl⟩).mpr fun h => nomatch h

/-- Redis rejects the release after the body has done its work. -/
theorem done_and_rejected :
    ¬ ∀ (key : String) (token : ℕ) (fn : Prog LockCall (Input ℕ) (LockStore String) Failure ℕ)
      (start last : Input ℕ × LockStore String) (body : List (Input ℕ × LockStore String))
      (r : Except Failure ℕ), Acquires LockCall key start → fn.Settles body r →
      (withLock key token fn).Settles (start :: (body ++ [last])) r := by
  intro h
  have hkept := h "inventory" 1 askNumber ({ reply := 0 }, fun _ => none)
    ({ reply := 0, fails := true }, fun _ => none) [({ reply := 7 }, fun _ => none)] (.ok 7)
    ⟨rfl, rfl⟩ ⟨rfl, rfl⟩
  have hrejected : (withLock "inventory" 1 askNumber).Settles
      [({ reply := 0 }, fun _ => none), ({ reply := 7 }, fun _ => none),
        ({ reply := 0, fails := true }, fun _ => none)] (.error .database) :=
    (settles_withLock ⟨rfl, rfl⟩).mpr ⟨[({ reply := 7 }, fun _ => none)], _, .ok 7, rfl, ⟨rfl, rfl⟩, rfl⟩
  cases hkept.unique hrejected

end ElectronicsCart.LockService
