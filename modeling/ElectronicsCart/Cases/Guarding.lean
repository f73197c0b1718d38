import ElectronicsCart.Cases.Runs
import ElectronicsCart.Core.Exclusion
import ElectronicsCart.Lib.Callers

/-!
# What the locks on cases guard

The requests of this module read and write rows of one table with a lock held.  What else they do,
reading, publishing and appending to the audit log, touches neither the rows of the cases nor the
locks: the calls that are `calm`.
-/

namespace ElectronicsCart.Cases

open Interleaving Relational

variable {τ : Type}

/-- The rows of the cases decide what a key guards and whether the invariant holds. -/
structure Guarding (B : Protection CareCall CareState CareLock τ)
    (W : World CareCall CareInput CareState) : Prop where
  frame : ∀ {s s' : CareState}, SameCases s s' → B.frame s s'
  view : ∀ {s s' : CareState} key, SameCases s s' → B.view key s' = B.view key s
  inv : ∀ {s s' : CareState}, SameCases s s' → s'.locks = s.locks → W.inv s → W.inv s'
  take : ∀ {key : CareLock} {token : ℕ} {i : CareInput} {s : CareState}, W.ok (.acquire key token) i s →
    s.locks key = none → W.inv s → W.inv { s with locks := Function.update s.locks key (some token) }
  drop : ∀ {key : CareLock} {token : ℕ} {s : CareState}, W.inv s →
    W.inv (LockService.drop CareCall key token s)

/-- A property that stays while others run, and when only other tables are written. -/
structure Steady (B : Protection CareCall CareState CareLock τ) (token : ℕ) (P : CareState → Prop) :
    Prop where
  rely : ∀ {t t'}, (B.discipline (γ := Unit) token).rely t t' → P t → P t'
  calm : ∀ {t t'}, SameCases t t' → t'.locks = t.locks → P t → P t'

/-- A program that makes calm calls only. -/
def bystander : Discipline CareCall CareInput CareState where
  rely _ _ := True
  guar _ _ s s' := SameCases s s' ∧ s'.locks = s.locks
  refl _ := trivial
  trans _ _ := trivial

namespace Guarding

variable {B : Protection CareCall CareState CareLock τ} {W : World CareCall CareInput CareState}
  {P : CareState → Prop} {token n : ℕ} {s s' : CareState} {l : CareCall} {i : CareInput} {α β : Type}

theorem kept (h : Guarding B W) (hc : SameCases s s') (hl : s'.locks = s.locks) :
    B.Kept token s s' := by
  intro key hk
  refine ⟨?_, h.view key hc⟩
  show s'.locks key = some token
  rw [hl]
  exact hk

theorem guar (h : Guarding B W) (hc : SameCases s s') (hl : s'.locks = s.locks) :
    (B.discipline token).guar l i s s' :=
  ⟨h.frame hc, fun _ _ => h.kept hc hl⟩

/-- The invariant is about the rows only. -/
theorem of_rows (hframe : ∀ {s s' : CareState}, SameCases s s' → B.frame s s')
    (hview : ∀ {s s' : CareState} key, SameCases s s' → B.view key s' = B.view key s)
    (hinv : ∀ {s s' : CareState}, SameCases s s' → W.inv s → W.inv s') : Guarding B W := by
  have hset : ∀ m (t : CareState), W.inv t → W.inv { t with locks := m } := by
    intro m t ht
    have hsame : SameCases t { t with locks := m } := .of_audits rfl rfl rfl rfl rfl rfl rfl
    exact hinv hsame ht
  exact ⟨hframe, hview, fun h _ ht => hinv h ht, fun _ _ ht => hset _ _ ht,
    fun ht => Protection.inv_drop hset _ ht⟩

theorem compatible (h : Guarding B W) :
    Pool.Compatible W bystander (B.tokensBeside bystander n)
      (fun _ (_ : Except Failure α) _ => True) n :=
  B.compatible_beside (fun _ _ _ _ => trivial) (fun _ _ => trivial)
    fun _ _ _ _ hg _ => ⟨h.frame hg.1, h.kept hg.1 hg.2⟩

/-! ### Calm programs -/

theorem calm_holds (h : Guarding B W) (hP : Steady B token P) {p : CareProg α} (hp : Calls calm p)
    (hs : P s) : Holds W bystander (B.discipline token) (fun _ t => P t) p s := by
  refine Holds.of_every (fun _ _ ht h => hP.rely ht h) ?_ hs
  refine Prog.Every.imp (fun _ _ _ _ => trivial) ?_ hp
  rintro l i t t' ⟨-, hinv⟩ ⟨hl, he⟩
  have hsame := he.same (Bool.and_eq_true_iff.mp (Bool.and_eq_true_iff.mp hl).1).1
  have hlocks := he.locks hl
  exact ⟨h.inv hsame hlocks hinv, h.guar hsame hlocks, ⟨hsame, hlocks⟩, fun h => hP.calm hsame hlocks h⟩

theorem calmBind (h : Guarding B W) (hP : Steady B token P) {p : CareProg β} {k : β → CareProg α}
    (hp : Calls calm p) (hs : P s) (hinv : W.inv s)
    (hk : ∀ b t, W.inv t → P t → Holds W bystander (B.discipline token) (fun _ _ => True) (k b) t) :
    Holds W bystander (B.discipline token) (fun _ _ => True) (p.bind k) s := by
  refine Holds.bind (Holds.mono ?_ (h.calm_holds hP hp hs)) hinv
  rintro (e | b) t ht hPt
  · trivial
  · exact hk b t ht hPt

theorem readBind (hP : Steady B token P) {f : CareInput → CareState → β} {k : β → CareProg α}
    (hs : P s) (hk : ∀ t i, W.inv t → P t →
      Holds W bystander (B.discipline token) (fun _ _ => True) (k (f i t)) t) :
    Holds W bystander (B.discipline token) (fun _ _ => True) ((query l f).bind k) s := by
  apply holds_queryBind
  intro t ht hi i _
  exact ⟨Protection.guar_refl, fun _ _ _ => trivial, fun _ => hk t i hi (hP.rely ht hs)⟩

theorem calm_rest (h : Guarding B W) {p : CareProg α} (hp : Calls calm p) :
    Holds W bystander (B.discipline token) (fun _ _ => True) p s :=
  h.calm_holds (P := fun _ => True) ⟨fun _ _ => trivial, fun _ _ _ => trivial⟩ hp trivial

theorem before_calm (h : Guarding B W) {p : CareProg β} {k : β → CareProg α}
    (hp : Holds W bystander (B.discipline token) (fun _ _ => True) p s) (hinv : W.inv s)
    (hk : ∀ b, Calls calm (k b)) :
    Holds W bystander (B.discipline token) (fun _ _ => True) (p.bind k) s := by
  refine Holds.bind (Holds.mono ?_ hp) hinv
  rintro (e | b) t _ _
  · trivial
  · exact h.calm_rest (hk b)

theorem withLock (h : Guarding B W) {key : CareLock} {p : CareProg α}
    (hp : ∀ t, W.inv t → t.locks key = some token →
      Holds W bystander (B.discipline token) (fun _ _ => True) p t) :
    Holds W bystander (B.discipline token) (fun _ _ => True) (LockService.withLock key token p) s :=
  Protection.holds_withLock_guarded (P := fun _ => True) (fun _ _ _ _ => trivial)
    (fun _ _ _ _ _ => trivial) (fun _ _ _ => trivial) (fun _ _ _ _ => trivial)
    (fun _ _ hi ho hfree => h.take ho hfree hi) (fun _ hi => h.drop hi) (fun t hi hk _ => hp t hi hk) trivial

end Guarding

end ElectronicsCart.Cases
