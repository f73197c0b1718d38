import ElectronicsCart.Cases.Definitions
import ElectronicsCart.Core.Gregorian
import Mathlib.Algebra.Order.Field.Basic
import Mathlib.Data.Rat.Floor
import Mathlib.Order.Fin.Basic
import Mathlib.Tactic.Linarith

/-!
# Deadlines of any policy

`computeDueAt` and `computeResponseDueAt` of `shared/case-management/case-sla.ts` for policies with any
minutes and any multipliers, and with the `Date` they make: beyond its range the deadline is invalid.
-/

namespace ElectronicsCart.Cases

open Gregorian

/-- `CaseSlaPolicy`, whose minutes need not be whole. -/
structure SlaPolicy where
  responseMinutes : ℚ
  resolveMinutes : ℚ
  priorityMultiplier : List (CasePriority × ℚ) := []

namespace SlaPolicy

def multiplier (sla : SlaPolicy) (priority : CasePriority) : ℚ :=
  (sla.priorityMultiplier.lookup priority).getD (defaultMultiplier priority)

/-- `Math.max(1, Math.round(minutes / mult))`. -/
def roundedMinutes (sla : SlaPolicy) (minutes : ℚ) (priority : CasePriority) : ℤ :=
  max 1 (mathRound (minutes / sla.multiplier priority))

def deadline (minutes : ℚ) (openedAt : Instant) (priority : CasePriority) (sla : SlaPolicy) :
    Option Instant :=
  Instant.timeClip (openedAt.time + sla.roundedMinutes minutes priority * 60000)

def computeDueAt (openedAt : Instant) (priority : CasePriority) (sla : SlaPolicy) : Option Instant :=
  deadline sla.resolveMinutes openedAt priority sla

def computeResponseDueAt (openedAt : Instant) (priority : CasePriority) (sla : SlaPolicy) :
    Option Instant :=
  deadline sla.responseMinutes openedAt priority sla

/-- The minutes are positive, and so are the multipliers, which do not increase from the most urgent
priority to the least. -/
structure Graded (sla : SlaPolicy) : Prop where
  response : 0 < sla.responseMinutes
  resolve : 0 < sla.resolveMinutes
  positive : ∀ p, 0 < sla.multiplier p
  falling : ∀ p q : CasePriority, p.val ≤ q.val → sla.multiplier q ≤ sla.multiplier p

/-- The first date is valid when the second one is, and not after it. -/
def NotAfter (a b : Option Instant) : Prop :=
  ∀ t, b = some t → ∃ s, a = some s ∧ s.time ≤ t.time

section Deadlines

variable {sla : SlaPolicy} {minutes minutes' : ℚ} {openedAt due : Instant} {p q : CasePriority}

theorem mathRound_mono {x y : ℚ} (h : x ≤ y) : mathRound x ≤ mathRound y := by
  unfold mathRound
  rw [Rat.le_floor_iff]
  have hfloor : ((x + 1 / 2).floor : ℚ) ≤ x + 1 / 2 := Rat.floor_le _
  linarith

theorem one_le_roundedMinutes : 1 ≤ sla.roundedMinutes minutes p := le_max_left _ _

theorem roundedMinutes_mono (h : minutes / sla.multiplier p ≤ minutes' / sla.multiplier q) :
    sla.roundedMinutes minutes p ≤ sla.roundedMinutes minutes' q :=
  max_le_max_left 1 (mathRound_mono h)

theorem div_multiplier_le (h : sla.Graded) (hminutes : 0 < minutes) (hpq : p.val ≤ q.val) :
    minutes / sla.multiplier p ≤ minutes / sla.multiplier q :=
  div_le_div_of_nonneg_left hminutes.le (h.positive q) (h.falling p q hpq)

theorem deadline_eq_some : deadline minutes openedAt p sla = some due ↔
    due.time = openedAt.time + sla.roundedMinutes minutes p * 60000 :=
  Instant.timeClip_eq_some

theorem minute_le_deadline (h : deadline minutes openedAt p sla = some due) :
    openedAt.time + 60000 ≤ due.time := by
  have htime := deadline_eq_some.mp h
  have hminute : 1 ≤ sla.roundedMinutes minutes p := one_le_roundedMinutes
  omega

theorem notAfter_deadline (h : sla.roundedMinutes minutes p ≤ sla.roundedMinutes minutes' q) :
    NotAfter (deadline minutes openedAt p sla) (deadline minutes' openedAt q sla) := by
  intro t ht
  have htime := deadline_eq_some.mp ht
  have hminute : 1 ≤ sla.roundedMinutes minutes p := one_le_roundedMinutes
  have hopened := openedAt.low
  have hlast := t.high
  let s : Instant :=
    ⟨openedAt.time + sla.roundedMinutes minutes p * 60000, by omega, by omega⟩
  refine ⟨s, deadline_eq_some.mpr rfl, ?_⟩
  change openedAt.time + sla.roundedMinutes minutes p * 60000 ≤ t.time
  omega

end Deadlines

/-! ### The policies of the registry -/

def ofCase (sla : Cases.CaseSlaPolicy) : SlaPolicy where
  responseMinutes := sla.responseMinutes
  resolveMinutes := sla.resolveMinutes
  priorityMultiplier := sla.priorityMultiplier

theorem roundedMinutes_ofCase (sla : Cases.CaseSlaPolicy) (minutes : ℕ) (p : CasePriority) :
    (ofCase sla).roundedMinutes minutes p = slaMinutes minutes p sla := by
  have hone : 1 ≤ max 1 (mathRound (minutes / sla.multiplier p)) := le_max_left _ _
  rw [slaMinutes, Int.toNat_of_nonneg (by omega)]
  rfl

theorem due_ofCase {sla : Cases.CaseSlaPolicy} {openedAt due : Instant} {opened : ℕ} {p : CasePriority}
    (hopened : openedAt.time = opened) :
    (computeDueAt openedAt p (ofCase sla) = some due ↔
      due.time = Cases.computeDueAt opened p sla) ∧
    (computeResponseDueAt openedAt p (ofCase sla) = some due ↔
      due.time = Cases.computeResponseDueAt opened p sla) := by
  constructor
  · rw [computeDueAt, deadline_eq_some, hopened, Cases.computeDueAt]
    have hminutes := roundedMinutes_ofCase sla sla.resolveMinutes p
    change (ofCase sla).roundedMinutes (ofCase sla).resolveMinutes p = _ at hminutes
    rw [hminutes]
    push_cast
    exact Iff.rfl
  · rw [computeResponseDueAt, deadline_eq_some, hopened, Cases.computeResponseDueAt]
    have hminutes := roundedMinutes_ofCase sla sla.responseMinutes p
    change (ofCase sla).roundedMinutes (ofCase sla).responseMinutes p = _ at hminutes
    rw [hminutes]
    push_cast
    exact Iff.rfl

/-! ### Results -/

/-- The deadlines that are valid dates are at least a minute after the opening, follow the order of the
priorities, and the response is due no later than the resolution if it has no more minutes. -/
theorem deadlines_ordered (openedAt : Instant) {sla : SlaPolicy} (h : sla.Graded) :
    (∀ p due, computeDueAt openedAt p sla = some due ∨ computeResponseDueAt openedAt p sla = some due →
      openedAt.time + 60000 ≤ due.time) ∧
    (∀ p q : CasePriority, p.val ≤ q.val →
      NotAfter (computeDueAt openedAt p sla) (computeDueAt openedAt q sla) ∧
      NotAfter (computeResponseDueAt openedAt p sla) (computeResponseDueAt openedAt q sla)) ∧
    (sla.responseMinutes ≤ sla.resolveMinutes → ∀ p,
      NotAfter (computeResponseDueAt openedAt p sla) (computeDueAt openedAt p sla)) := by
  refine ⟨fun p due hdue => ?_, fun p q hpq => ⟨?_, ?_⟩, fun hle p => ?_⟩
  · rcases hdue with hdue | hdue
    · exact minute_le_deadline hdue
    · exact minute_le_deadline hdue
  · exact notAfter_deadline (roundedMinutes_mono (div_multiplier_le h h.resolve hpq))
  · exact notAfter_deadline (roundedMinutes_mono (div_multiplier_le h h.response hpq))
  · have hdiv : sla.responseMinutes / sla.multiplier p ≤ sla.resolveMinutes / sla.multiplier p :=
      div_le_div_of_nonneg_right hle (h.positive p).le
    exact notAfter_deadline (roundedMinutes_mono hdiv)

def priorityAt (i : Fin 5) : CasePriority := ⟨i + 1, by omega⟩

theorem priorityAt_surjective : Function.Surjective priorityAt := fun p =>
  ⟨⟨p.val - 1, by have := p.property; omega⟩, Subtype.ext (Nat.sub_add_cancel p.property.1)⟩

theorem graded_of_multipliers {sla : SlaPolicy} (hresponse : 0 < sla.responseMinutes)
    (hresolve : 0 < sla.resolveMinutes) (hlast : 0 < sla.multiplier (priorityAt 4))
    (hsteps : ∀ i : Fin 4,
      sla.multiplier (priorityAt i.succ) ≤ sla.multiplier (priorityAt i.castSucc)) :
    sla.Graded := by
  have hantitone : Antitone fun i => sla.multiplier (priorityAt i) :=
    Fin.antitone_iff_succ_le.mpr hsteps
  have hfalling : ∀ p q : CasePriority, p.val ≤ q.val → sla.multiplier q ≤ sla.multiplier p := by
    intro p q hpq
    obtain ⟨i, rfl⟩ := priorityAt_surjective p
    obtain ⟨j, rfl⟩ := priorityAt_surjective q
    exact hantitone (Fin.le_def.mpr (Nat.add_le_add_iff_right.mp hpq))
  exact ⟨hresponse, hresolve, fun p => hlast.trans_le (hfalling p _ p.property.2), hfalling⟩

/-- A policy with a multiplier of its own for the normal priority, and a case of 1 January 1970. -/
theorem partial_policy_ordered :
    let sla : SlaPolicy := ⟨45, 100, [(normalPriority, 5 / 4)]⟩
    NotAfter (computeDueAt ⟨0, by decide, by decide⟩ (priorityAt 1) sla)
      (some ⟨4800000, by decide, by decide⟩) := by
  intro sla
  have hgraded : sla.Graded :=
    graded_of_multipliers (by decide +kernel) (by decide +kernel) (by decide +kernel)
      (by decide +kernel)
  have hordered := (deadlines_ordered ⟨0, by decide, by decide⟩ hgraded).2.1 (priorityAt 1)
    normalPriority (by decide)
  have hnormal : computeDueAt ⟨0, by decide, by decide⟩ normalPriority sla =
      some ⟨4800000, by decide, by decide⟩ := by decide +kernel
  rw [← hnormal]
  exact hordered.1

/-- A million million minutes after 1 January 1970 there is no date. -/
theorem endless_policy_invalid :
    ¬ ∀ (openedAt : Instant) (sla : SlaPolicy) (p : CasePriority), sla.Graded →
      ∃ due, computeDueAt openedAt p sla = some due ∧ openedAt.time + 60000 ≤ due.time := by
  intro h
  have hgraded : SlaPolicy.Graded ⟨60, 1000000000000, []⟩ :=
    graded_of_multipliers (by decide +kernel) (by decide +kernel) (by decide +kernel)
      (by decide +kernel)
  obtain ⟨due, hdue, -⟩ := h ⟨0, by decide, by decide⟩ _ normalPriority hgraded
  have hnone : computeDueAt ⟨0, by decide, by decide⟩ normalPriority ⟨60, 1000000000000, []⟩ = none := by
    decide +kernel
  rw [hnone] at hdue
  cases hdue

end SlaPolicy

end ElectronicsCart.Cases
