import ElectronicsCart.Core.Environment
import ElectronicsCart.Lib.Table
import ElectronicsCart.Rules.Engine
import Mathlib.Data.List.Sort

/-!
# Alerts

`AlertService.evaluateAll` of `modules/analytics/services/alert.service.ts`.  The cooldown of a rule
is checked on its last history row, which is read before the new row is written, without a lock.
-/

namespace ElectronicsCart.Analytics

open Interleaving Relational Rules

inductive AlertSeverity where
  | info | warning | critical
deriving DecidableEq, Repr

structure AlertRule where
  id : ℕ
  code : String
  severity : AlertSeverity := .warning
  condition : JsValue
  cooldownMinutes : ℤ := 15
  enabled : Bool := true
  active : Bool := true
  deleted : Bool := false

instance : Keyed AlertRule := ⟨AlertRule.id⟩

structure AlertHistory where
  id : ℕ
  ruleId : ℕ
  severity : AlertSeverity
  message : String
  reasons : List String
  triggeredAt : ℤ

instance : Keyed AlertHistory := ⟨AlertHistory.id⟩

structure AlertStore where
  rules : Table AlertRule := .empty
  history : Table AlertHistory := .empty

inductive AlertCall where
  | findRules
  | findLast (ruleId : ℕ)
  /-- `Date.now()` -/
  | clock (ruleId : ℕ)
  /-- with the rule, the last row and the clock that were read before -/
  | createHistory (rule : AlertRule) (last : Option AlertHistory) (checkedAt : Option ℕ)

abbrev AlertInput := Input Unit

abbrev AlertProg := Prog AlertCall AlertInput AlertStore Failure

/-- What `evaluateAll` tells of a rule that was triggered. -/
structure TriggeredAlert where
  ruleId : ℕ
  code : String
  historyId : ℕ
deriving DecidableEq, Repr

/-! ### Evaluation -/

/-- `findFirst` with `orderBy: { triggered_at: 'desc' }`; rows of the same time come as the database
likes. -/
def lastTriggered (rank : ℕ → ℕ) (ruleId : ℕ) (s : AlertStore) : Option AlertHistory :=
  ((s.history.rows.filter fun h => h.ruleId == ruleId).insertionSort fun a b =>
    b.triggeredAt < a.triggeredAt ∨ a.triggeredAt = b.triggeredAt ∧ rank a.id ≤ rank b.id).head?

def coolMs (rule : AlertRule) : ℤ := rule.cooldownMinutes * 60000

/-- `alertHistory.create`; `triggered_at` is the clock of the database. -/
def createHistory (rule : AlertRule) (reasons : List String) (now : ℕ) (s : AlertStore) :
    Except Failure (AlertHistory × AlertStore) := do
  check ((s.rules.find? rule.id).isSome) "alert_history_rule_id_fkey"
  let mk := fun n =>
    { id := n, ruleId := rule.id, severity := rule.severity,
      message := "Alert " ++ rule.code ++ " triggered", reasons, triggeredAt := now : AlertHistory }
  return (mk s.history.next, { s with history := s.history.insert mk })

/-- A rule that matched and is not cooling down. -/
def trigger (rule : AlertRule) (reasons : List String) (last : Option AlertHistory)
    (checkedAt : Option ℕ) : AlertProg TriggeredAlert := do
  let history ← atomic (.createHistory rule last checkedAt) fun i s =>
    createHistory rule reasons i.now s
  pure ⟨rule.id, rule.code, history.id⟩

def coolDown (rule : AlertRule) (reasons : List String) : AlertProg (Option TriggeredAlert) := do
  let last ← query (.findLast rule.id) fun i s => lastTriggered i.rank rule.id s
  match last with
  | none => do
    let alert ← trigger rule reasons none none
    pure (some alert)
  | some row => do
    let now ← Prog.call (.clock rule.id) fun i s => (.ok i.now, s)
    if (now : ℤ) - row.triggeredAt < coolMs rule then pure none
    else do
      let alert ← trigger rule reasons (some row) (some now)
      pure (some alert)

def evaluateRules (rt : Runtime) (facts : JsValue) : List AlertRule → AlertProg (List TriggeredAlert)
  | [] => pure []
  | rule :: rest =>
    let result := evaluate rt rule.condition facts {}
    if result.matched then do
      let alert ← coolDown rule result.reasons
      let triggered ← evaluateRules rt facts rest
      pure (alert.toList ++ triggered)
    else evaluateRules rt facts rest

/-- The filter of the rules; they come as the database likes. -/
def enabledRules (rank : ℕ → ℕ) (s : AlertStore) : List AlertRule :=
  (s.rules.rows.filter fun r => !r.deleted && r.enabled && r.active).insertionSort fun a b =>
    rank a.id ≤ rank b.id

def evaluateAll (rt : Runtime) (facts : JsValue) : AlertProg (List TriggeredAlert) := do
  let rules ← query .findRules fun i s => enabledRules i.rank s
  evaluateRules rt facts rules

/-! ### Spacing -/

/-- Two rows of a rule are at least its cooldown apart. -/
def Spaced (s : AlertStore) : Prop :=
  ∀ rule ∈ s.rules.rows, ∀ a ∈ s.history.rows, ∀ b ∈ s.history.rows,
    a.ruleId = rule.id → b.ruleId = rule.id → a.id ≠ b.id →
      coolMs rule ≤ |a.triggeredAt - b.triggeredAt|

def StillLast (ruleId : ℕ) (last : Option AlertHistory) (s : AlertStore) : Prop :=
  match last with
  | none => ∀ h ∈ s.history.rows, h.ruleId ≠ ruleId
  | some row => ∀ h ∈ s.history.rows, h.ruleId = ruleId → h.triggeredAt ≤ row.triggeredAt

/-- The clocks agree: the time of a row is not before the clock that was read for it. -/
def ClockAgrees (l : AlertCall) (i : AlertInput) : Prop :=
  match l with
  | .createHistory _ _ (some now) => now ≤ i.now
  | _ => True

/-- No other evaluation has written a later row of the rule since its last row was read. -/
def Undisturbed (l : AlertCall) (i : AlertInput) (s : AlertStore) : Prop :=
  ClockAgrees l i ∧
    match l with
    | .createHistory rule last _ => StillLast rule.id last s
    | _ => True

instance (ruleId : ℕ) (last : Option AlertHistory) (s : AlertStore) :
    Decidable (StillLast ruleId last s) := by
  unfold StillLast
  split <;> infer_instance

instance (l : AlertCall) (i : AlertInput) : Decidable (ClockAgrees l i) := by
  unfold ClockAgrees
  split <;> infer_instance

instance (l : AlertCall) (i : AlertInput) (s : AlertStore) : Decidable (Undisturbed l i s) := by
  unfold Undisturbed
  split <;> infer_instance

variable {rt : Runtime} {facts : JsValue} {rules : Table AlertRule} {rule : AlertRule}
  {s s' : AlertStore} {i : AlertInput} {reasons : List String} {history : AlertHistory}

theorem createHistory_eq_ok {now : ℕ} (h : createHistory rule reasons now s = .ok (history, s')) :
    s'.rules = s.rules ∧ s'.history.rows = s.history.rows ++ [history] ∧ history.ruleId = rule.id ∧
      history.triggeredAt = now := by
  simp only [createHistory, bind_eq_ok, check_eq_ok, pure_eq_ok, Prod.mk.injEq] at h
  obtain ⟨-, -, rfl, rfl⟩ := h
  exact ⟨rfl, rfl, rfl, rfl⟩

theorem le_abs_of_later {cool t now : ℤ} (h : cool ≤ now - t) : cool ≤ |t - now| ∧ cool ≤ |now - t| := by
  refine ⟨?_, h.trans (le_abs_self _)⟩
  rw [abs_sub_comm]
  exact h.trans (le_abs_self _)

theorem Spaced.insert (hs : Spaced s) (hrules : s'.rules = s.rules) (hm : rule ∈ s.rules.rows)
    (hrows : s'.history.rows = s.history.rows ++ [history]) (hid : history.ruleId = rule.id)
    (hlater : ∀ h ∈ s.history.rows, h.ruleId = rule.id →
      coolMs rule ≤ history.triggeredAt - h.triggeredAt) : Spaced s' := by
  intro other hother a ha b hb hra hrb hne
  rw [hrules] at hother
  rw [hrows, List.mem_append, List.mem_singleton] at ha hb
  rcases ha with ha | rfl
  · rcases hb with hb | rfl
    · exact hs other hother a ha b hb hra hrb hne
    · obtain rfl : other = rule := Table.eq_of_key_eq hother hm (hrb.symm.trans hid)
      exact (le_abs_of_later (hlater a ha hra)).1
  · obtain rfl : other = rule := Table.eq_of_key_eq hother hm (hra.symm.trans hid)
    rcases hb with hb | rfl
    · exact (le_abs_of_later (hlater b hb hrb)).2
    · exact absurd rfl hne

/-! ### Every schedule -/

/-- The rules do not change, and their rows keep apart. -/
def KeepsApart (rules : Table AlertRule) (s : AlertStore) : Prop := s.rules = rules ∧ Spaced s

/-- A program whose undisturbed calls keep the rows apart. -/
abbrev Spacing {α : Type} (rules : Table AlertRule) (p : AlertProg α) : Prop :=
  p.Every (fun l i s => Undisturbed l i s ∧ KeepsApart rules s) fun _ _ _ s' => KeepsApart rules s'

/-- The cooldown of the rule has passed since the row that was read. -/
def Cooled (rule : AlertRule) (last : Option AlertHistory) (checkedAt : Option ℕ) : Prop :=
  ∀ row, last = some row → ∃ now, checkedAt = some now ∧ coolMs rule ≤ (now : ℤ) - row.triggeredAt

theorem spacing_trigger {last : Option AlertHistory} {checkedAt : Option ℕ} (hm : rule ∈ rules.rows)
    (hcool : Cooled rule last checkedAt) : Spacing rules (trigger rule reasons last checkedAt) := by
  refine Prog.Every.bind (every_atomic (fun _ _ ho => ho.2) ?_) fun _ => trivial
  intro i s history s' ho _ hs
  obtain ⟨⟨hclock, hlast⟩, hrules, hspaced⟩ := ho
  obtain ⟨hsame, hrows, hid, htime⟩ := createHistory_eq_ok hs
  refine ⟨hsame.trans hrules, hspaced.insert hsame (hrules ▸ hm) hrows hid fun h hh hrule => ?_⟩
  rw [htime]
  cases last with
  | none => exact absurd hrule (hlast h hh)
  | some row =>
    obtain ⟨now, rfl, hpassed⟩ := hcool row rfl
    have hle : h.triggeredAt ≤ row.triggeredAt := hlast h hh hrule
    have hnow : now ≤ i.now := hclock
    omega

theorem spacing_coolDown (hm : rule ∈ rules.rows) : Spacing rules (coolDown rule reasons) := by
  refine every_queryBind fun i s ho => ⟨ho.2, ?_⟩
  split
  · exact Prog.Every.bind (spacing_trigger hm fun _ h => nomatch h) fun _ => trivial
  next row _ =>
    intro i' s' ho'
    refine ⟨ho'.2, ?_⟩
    show Spacing rules (if (i'.now : ℤ) - row.triggeredAt < coolMs rule then pure none
      else (trigger rule reasons (some row) (some i'.now)).bind fun alert => pure (some alert))
    split
    · trivial
    next hpassed =>
      refine Prog.Every.bind (spacing_trigger hm ?_) fun _ => trivial
      intro _ heq
      obtain rfl := Option.some.inj heq
      exact ⟨i'.now, rfl, not_lt.mp hpassed⟩

theorem spacing_evaluateRules (l : List AlertRule) (hl : ∀ rule ∈ l, rule ∈ rules.rows) :
    Spacing rules (evaluateRules rt facts l) := by
  induction l with
  | nil => trivial
  | cons rule rest ih =>
    have hrest := ih fun r hr => hl r (List.mem_cons_of_mem rule hr)
    simp only [evaluateRules]
    split
    · refine Prog.Every.bind (spacing_coolDown (hl rule List.mem_cons_self)) fun _ => ?_
      exact Prog.Every.bind hrest fun _ => trivial
    · exact hrest

theorem mem_enabledRules {rank : ℕ → ℕ} (h : rule ∈ enabledRules rank s) : rule ∈ s.rules.rows := by
  rw [enabledRules, List.mem_insertionSort] at h
  exact (List.mem_filter.mp h).1

theorem spacing_evaluateAll : Spacing rules (evaluateAll rt facts) := by
  refine every_queryBind fun i s ho => ⟨ho.2, ?_⟩
  refine spacing_evaluateRules _ fun rule hrule => ?_
  rw [← ho.2.1]
  exact mem_enabledRules hrule

def evaluations (rt : Runtime) (facts : List JsValue) (s : AlertStore) :
    Pool AlertCall AlertInput AlertStore Failure (List TriggeredAlert) :=
  ⟨facts.map (evaluateAll rt), s⟩

/-- Whatever the schedule, if no row of a rule is written between the read of its last row and the
write of an evaluation, the rows of every rule are its cooldown apart. -/
theorem alerts_spaced (rt : Runtime) (facts : List JsValue) (s : AlertStore)
    (sched : List (ℕ × AlertInput)) (hs : Spaced s)
    (hok : (evaluations rt facts s).Admits Undisturbed sched) :
    Spaced ((evaluations rt facts s).run sched).state := by
  have hkeeps : KeepsApart s.rules ((evaluations rt facts s).run sched).state := by
    refine Pool.inv_run (fun t ht => ?_) ⟨rfl, hs⟩ hok
    obtain ⟨f, -, rfl⟩ := List.mem_map.mp ht
    exact spacing_evaluateAll
  exact hkeeps.2

def oneRule : AlertStore where
  rules := Table.empty.insert fun n =>
    { id := n, code := "low_stock", condition := .object [("all", .array [])] }

def stepsAt (now : ℕ) (threads : List ℕ) : List (ℕ × AlertInput) :=
  threads.map fun j => (j, { now, reply := () })

/-- Two evaluations, a quarter of an hour apart. -/
theorem alerts_spaced_in_turn :
    let t := ((evaluations .plain [.object [], .object []] oneRule).run
      (stepsAt 0 [0, 0, 0] ++ stepsAt 900000 [1, 1, 1, 1])).state
    t.history.rows.length = 2 ∧ Spaced t := by
  refine ⟨by decide +kernel, alerts_spaced .plain _ oneRule _ ?_ (by decide +kernel)⟩
  intro rule _ a ha
  cases ha

/-- Both evaluations look for the last row before either writes one. -/
theorem alerts_triggered_together :
    ¬ ∀ (rt : Runtime) (facts : List JsValue) (s : AlertStore) (sched : List (ℕ × AlertInput)),
      Spaced s → (evaluations rt facts s).Admits (fun l i _ => ClockAgrees l i) sched →
        Spaced ((evaluations rt facts s).run sched).state := by
  intro h
  let t := ((evaluations .plain [.object [], .object []] oneRule).run
    (stepsAt 0 [0, 1, 0, 1, 0, 1])).state
  have hspaced : Spaced t := by
    refine h .plain _ oneRule _ ?_ (by decide +kernel)
    intro rule _ a ha
    cases ha
  have htogether : ∃ rule ∈ t.rules.rows, ∃ a ∈ t.history.rows, ∃ b ∈ t.history.rows,
      a.ruleId = rule.id ∧ b.ruleId = rule.id ∧ a.id ≠ b.id ∧
        |a.triggeredAt - b.triggeredAt| < coolMs rule := by
    decide +kernel
  obtain ⟨rule, hrule, a, ha, b, hb, hra, hrb, hne, hlt⟩ := htogether
  exact absurd (hspaced rule hrule a ha b hb hra hrb hne) (not_le.mpr hlt)

end ElectronicsCart.Analytics
