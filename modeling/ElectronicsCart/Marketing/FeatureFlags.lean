import ElectronicsCart.Marketing.AbTests
import ElectronicsCart.Rules.Engine

/-!
# Feature flags

`FeatureFlagService.listAndEvaluate` of `growth.services.ts`.  A conditional flag takes the value of
the first of its rules that matches the facts; the rollout of that rule holds a known customer back
whose bucket is not below it.  A higher rollout holds back fewer customers, and it does not change
which rule matches first.
-/

namespace ElectronicsCart.Marketing

open Relational Rules

/-! ### The tables -/

/-- `feature_flag_status`. -/
inductive FeatureFlagStatus where
  | enabled | disabled | conditional
deriving DecidableEq, Repr

structure FeatureFlagRow where
  id : ℕ
  code : String
  name : String
  status : FeatureFlagStatus := .disabled
  defaultValue : Bool := false
  deleted : Bool := false
deriving DecidableEq, Repr

/-- A `feature_flag_rules` row; without conditions the column is `null`. -/
structure FeatureFlagRuleRow where
  id : ℕ
  flagId : ℕ
  priority : ℤ := 100
  conditions : JsValue := .null
  rolloutPercent : Option ℚ := none
  enabledValue : Bool := true
  status : RecordStatus := .active
  deleted : Bool := false

instance : Keyed FeatureFlagRow := ⟨FeatureFlagRow.id⟩
instance : Keyed FeatureFlagRuleRow := ⟨FeatureFlagRuleRow.id⟩

structure FlagStore where
  flags : Table FeatureFlagRow
  rules : Table FeatureFlagRuleRow

structure FeatureFlag where
  code : String
  name : String
  status : FeatureFlagStatus
  defaultValue : Bool
  rules : List FeatureFlagRuleRow

/-! ### The query -/

/-- `orderBy: { priority: 'asc' }`; rules of one priority come as the database likes. -/
def Precedes (rank : ℕ → ℕ) (a b : FeatureFlagRuleRow) : Prop :=
  a.priority < b.priority ∨ a.priority = b.priority ∧ rank a.id ≤ rank b.id

instance (rank : ℕ → ℕ) : DecidableRel (Precedes rank) := fun a b => by
  unfold Precedes
  infer_instance

instance (rank : ℕ → ℕ) : Std.Total (Precedes rank) where
  total a b := by
    unfold Precedes
    omega

instance (rank : ℕ → ℕ) : IsTrans FeatureFlagRuleRow (Precedes rank) where
  trans a b c hab hbc := by
    unfold Precedes at *
    omega

def includedRule (flagId : ℕ) (r : FeatureFlagRuleRow) : Bool :=
  r.flagId == flagId && !r.deleted && r.status = .active

def includedRules (rank : ℕ → ℕ) (flagId : ℕ) (s : FlagStore) : List FeatureFlagRuleRow :=
  (s.rules.rows.filter (includedRule flagId)).insertionSort (Precedes rank)

/-- `featureFlag.findMany`; no order is named for the flags. -/
def findFlags (rank : ℕ → ℕ) (s : FlagStore) : List FeatureFlag :=
  ((s.flags.rows.filter fun f => !f.deleted).insertionSort fun a b => rank a.id ≤ rank b.id).map
    fun f => ⟨f.code, f.name, f.status, f.defaultValue, includedRules rank f.id s⟩

/-! ### The evaluation -/

/-- One property of an object spread over an object. -/
def assignField : List (String × JsValue) → String × JsValue → List (String × JsValue)
  | [], kv => [kv]
  | (k, v) :: rest, kv => if k = kv.1 then kv :: rest else (k, v) :: assignField rest kv

def flagFacts (rt : Runtime) (customerId : Option String) (now : ℤ)
    (factsExtra : List (String × JsValue)) : JsValue :=
  .object (factsExtra.foldl assignField
    [("customer", .object [("id", .str customerId)]), ("now", .string (rt.toISOString now))])

def matchesRule (rt : Runtime) (facts : JsValue) (rule : FeatureFlagRuleRow) : Bool :=
  (evaluate rt (rule.conditions.orElse (.object [("all", .array [])])) facts {}).matched

/-- The customer is known, and not among those the rule is rolled out to. -/
def heldBack (customerId : Option String) (code : String) (rule : FeatureFlagRuleRow) : Bool :=
  match rule.rolloutPercent, truthy customerId with
  | some percent, some id => decide (percent ≤ hashPercent (id ++ code))
  | _, _ => false

def ruleValue (customerId : Option String) (code : String) (rule : FeatureFlagRuleRow) : Bool :=
  if heldBack customerId code rule then false else rule.enabledValue

def evaluateRules (rt : Runtime) (facts : JsValue) (customerId : Option String) (code : String)
    (enabled : Bool) : List FeatureFlagRuleRow → Bool
  | [] => enabled
  | rule :: rules =>
    if matchesRule rt facts rule then ruleValue customerId code rule
    else evaluateRules rt facts customerId code enabled rules

structure FlagValue where
  code : String
  name : String
  enabled : Bool
deriving DecidableEq, Repr

def evaluateFlag (rt : Runtime) (facts : JsValue) (customerId : Option String) (f : FeatureFlag) :
    FlagValue :=
  ⟨f.code, f.name,
    match f.status with
    | .enabled => true
    | .disabled => false
    | .conditional => evaluateRules rt facts customerId f.code f.defaultValue f.rules⟩

structure FeatureFlagEvaluatedEvent where
  flagCode : String
  enabled : Bool
  customerId : Option String
deriving DecidableEq, Repr

/-- The flags come from the cache, if it has them; each evaluation is published. -/
def listAndEvaluate (rt : Runtime) (rank : ℕ → ℕ) (cached : Option (List FeatureFlag))
    (s : FlagStore) (customerId : Option String) (now : ℤ) (factsExtra : List (String × JsValue)) :
    List FlagValue × List FeatureFlagEvaluatedEvent :=
  let flags := cached.getD (findFlags rank s)
  let values := flags.map (evaluateFlag rt (flagFacts rt customerId now factsExtra) customerId)
  (values, values.map fun v => ⟨v.code, v.enabled, customerId⟩)

/-! ### The first rule that matches -/

variable {rt : Runtime} {facts : JsValue} {customerId : Option String} {rank : ℕ → ℕ}

theorem evaluateRules_eq (code : String) (enabled : Bool) (rules : List FeatureFlagRuleRow) :
    evaluateRules rt facts customerId code enabled rules =
      ((rules.find? (matchesRule rt facts)).map (ruleValue customerId code)).getD enabled := by
  induction rules with
  | nil => rfl
  | cons rule rules ih =>
    simp only [evaluateRules, List.find?_cons]
    by_cases h : matchesRule rt facts rule = true
    · rw [if_pos h, h]
      rfl
    · rw [if_neg h, ih, Bool.eq_false_of_not_eq_true h]

theorem includedRules_spec (flagId : ℕ) (s : FlagStore) :
    (includedRules rank flagId s).Pairwise (fun a b => a.priority ≤ b.priority) ∧
      ∀ r, r ∈ includedRules rank flagId s ↔ r ∈ s.rules.rows ∧ includedRule flagId r = true := by
  constructor
  · refine (List.pairwise_insertionSort (Precedes rank) _).imp fun h => ?_
    unfold Precedes at h
    omega
  · intro r
    rw [includedRules, List.mem_insertionSort, List.mem_filter]

/-! ### Higher rollouts -/

/-- A rollout that reaches at least as far; without one a rule is for everybody. -/
def Reaches : Option ℚ → Option ℚ → Prop
  | _, none => True
  | none, some _ => False
  | some p, some q => p ≤ q

def RaisedRule (r r' : FeatureFlagRuleRow) : Prop :=
  Reaches r.rolloutPercent r'.rolloutPercent ∧ r' = { r with rolloutPercent := r'.rolloutPercent }

structure RaisedFlag (f f' : FeatureFlag) : Prop where
  rest : f' = { f with rules := f'.rules }
  rules : List.Forall₂ RaisedRule f.rules f'.rules

def StaysOn (v v' : FlagValue) : Prop :=
  v'.code = v.code ∧ v'.name = v.name ∧ (v.enabled = true → v'.enabled = true)

theorem heldBack_mono {code : String} {r r' : FeatureFlagRuleRow}
    (h : Reaches r.rolloutPercent r'.rolloutPercent) (hheld : heldBack customerId code r' = true) :
    heldBack customerId code r = true := by
  unfold heldBack at *
  cases hr' : r'.rolloutPercent with
  | none => simp only [hr', Bool.false_eq_true] at hheld
  | some q =>
    cases hr : r.rolloutPercent with
    | none =>
      rw [hr, hr'] at h
      exact h.elim
    | some p =>
      rw [hr, hr'] at h
      cases hid : truthy customerId with
      | none => simp only [hr', hid, Bool.false_eq_true] at hheld
      | some id =>
        simp only [hr', hid, decide_eq_true_eq] at hheld ⊢
        exact le_trans h hheld

theorem RaisedRule.matches_eq {r r' : FeatureFlagRuleRow} (h : RaisedRule r r') :
    matchesRule rt facts r' = matchesRule rt facts r := by
  rw [h.2]
  rfl

theorem RaisedRule.value_mono {r r' : FeatureFlagRuleRow} (h : RaisedRule r r') (code : String)
    (hon : ruleValue customerId code r = true) : ruleValue customerId code r' = true := by
  unfold ruleValue at *
  have hvalue : r'.enabledValue = r.enabledValue := by rw [h.2]
  by_cases hheld : heldBack customerId code r' = true
  · rw [if_pos (heldBack_mono h.1 hheld)] at hon
    exact Bool.noConfusion hon
  · rw [if_neg hheld, hvalue]
    split at hon
    · exact Bool.noConfusion hon
    · exact hon

theorem evaluateRules_mono (code : String) (enabled : Bool) {rules rules' : List FeatureFlagRuleRow}
    (h : List.Forall₂ RaisedRule rules rules')
    (hon : evaluateRules rt facts customerId code enabled rules = true) :
    evaluateRules rt facts customerId code enabled rules' = true := by
  induction h with
  | nil => exact hon
  | cons hrule _ ih =>
    simp only [evaluateRules, hrule.matches_eq] at *
    split
    next hm =>
      rw [if_pos hm] at hon
      exact hrule.value_mono code hon
    next hm =>
      rw [if_neg hm] at hon
      exact ih hon

theorem RaisedFlag.staysOn {f f' : FeatureFlag} (h : RaisedFlag f f') :
    StaysOn (evaluateFlag rt facts customerId f) (evaluateFlag rt facts customerId f') := by
  obtain ⟨hrest, hrules⟩ := h
  have hcode : f'.code = f.code := by rw [hrest]
  have hname : f'.name = f.name := by rw [hrest]
  have hstatus : f'.status = f.status := by rw [hrest]
  have hdefault : f'.defaultValue = f.defaultValue := by rw [hrest]
  refine ⟨hcode, hname, ?_⟩
  simp only [evaluateFlag, hstatus, hcode, hdefault]
  cases f.status with
  | enabled => exact id
  | disabled => exact id
  | conditional => exact evaluateRules_mono _ _ hrules

/-! ### Higher rollouts in the tables -/

def FlagStore.withRollouts (s : FlagStore) (rollout : FeatureFlagRuleRow → Option ℚ) : FlagStore :=
  { s with rules := s.rules.mapRows fun r => { r with rolloutPercent := rollout r } }

theorem raised_findFlags (s : FlagStore) {rollout : FeatureFlagRuleRow → Option ℚ}
    (h : ∀ r, Reaches r.rolloutPercent (rollout r)) :
    List.Forall₂ RaisedFlag (findFlags rank s) (findFlags rank (s.withRollouts rollout)) := by
  have hrules : ∀ flagId, includedRules rank flagId (s.withRollouts rollout) =
      (includedRules rank flagId s).map fun r => { r with rolloutPercent := rollout r } := by
    intro flagId
    simp only [includedRules, FlagStore.withRollouts, Table.rows_mapRows, List.filter_map]
    refine (List.map_insertionSort _ _ _ _ fun a _ b _ => ?_).symm
    exact Iff.rfl
  rw [findFlags, findFlags, List.forall₂_map_left_iff, List.forall₂_map_right_iff]
  refine List.forall₂_same.mpr fun f _ => ⟨rfl, ?_⟩
  simp only [hrules]
  rw [List.forall₂_map_right_iff, List.forall₂_same]
  exact fun r _ => ⟨h r, rfl⟩

/-! ### The flags of a customer -/

/-- The rule is rolled out to the customer: to everybody, to somebody unknown, or by the percentage. -/
def RolledOut (customerId : Option String) (code : String) (rule : FeatureFlagRuleRow) : Prop :=
  ∀ percent ∈ rule.rolloutPercent, ∀ id ∈ customerId, id ≠ "" → hashPercent (id ++ code) < percent

/-- A flag as its status decides it, or the first of its rules whose conditions the rule engine finds
matched by the facts: the flag has the rule's value where the rule is rolled out, and is off where it
is not. -/
def Decided (rt : Runtime) (facts : JsValue) (customerId : Option String) (f : FeatureFlag)
    (enabled : Bool) : Prop :=
  match f.status with
  | .enabled => enabled = true
  | .disabled => enabled = false
  | .conditional =>
    (∃ before rule after, f.rules = before ++ rule :: after ∧
        (∀ r ∈ before, (evaluate rt (r.conditions.orElse (.object [("all", .array [])])) facts {}).matched
          = false) ∧
        (evaluate rt (rule.conditions.orElse (.object [("all", .array [])])) facts {}).matched = true ∧
        (enabled = true ↔ RolledOut customerId f.code rule ∧ rule.enabledValue = true)) ∨
      (∀ r ∈ f.rules, (evaluate rt (r.conditions.orElse (.object [("all", .array [])])) facts {}).matched
          = false) ∧ enabled = f.defaultValue

theorem heldBack_eq_false {code : String} {rule : FeatureFlagRuleRow} :
    heldBack customerId code rule = false ↔ RolledOut customerId code rule := by
  unfold heldBack RolledOut
  cases rule.rolloutPercent with
  | none => simp
  | some percent =>
    cases customerId with
    | none => simp [truthy]
    | some id =>
      by_cases hid : id = ""
      · simp [truthy, hid]
      · have hknown : truthy (some id) = some id := by simp [truthy, hid]
        simp [hknown, hid]

theorem ruleValue_iff {code : String} {rule : FeatureFlagRuleRow} :
    ruleValue customerId code rule = true ↔
      RolledOut customerId code rule ∧ rule.enabledValue = true := by
  rw [← heldBack_eq_false, ruleValue]
  cases heldBack customerId code rule <;> simp

theorem evaluateFlag_decided (f : FeatureFlag) :
    Decided rt facts customerId f (evaluateFlag rt facts customerId f).enabled := by
  unfold Decided evaluateFlag
  cases f.status with
  | enabled => rfl
  | disabled => rfl
  | conditional =>
    simp only [evaluateRules_eq]
    cases hfind : f.rules.find? (matchesRule rt facts) with
    | none =>
      refine .inr ⟨fun r hr => ?_, rfl⟩
      simpa [matchesRule] using List.find?_eq_none.mp hfind r hr
    | some rule =>
      obtain ⟨hmatch, before, after, hrules, hbefore⟩ := List.find?_eq_some_iff_append.mp hfind
      refine .inl ⟨before, rule, after, hrules, fun r hr => ?_, hmatch, ruleValue_iff⟩
      simpa [matchesRule] using hbefore r hr

/-- Each flag has the value that its first matching rule gives it, the rules being tried by their
priority.  Where flags are read with higher rollouts none of them is switched off, and this is how
they are read when rollouts are raised in the tables. -/
theorem flags_follow_rules (rt : Runtime) (rank : ℕ → ℕ) (cached : Option (List FeatureFlag))
    (s : FlagStore) (customerId : Option String) (now : ℤ) (factsExtra : List (String × JsValue)) :
    List.Forall₂ (fun f v => v.code = f.code ∧ v.name = f.name ∧
          Decided rt (flagFacts rt customerId now factsExtra) customerId f v.enabled)
        (cached.getD (findFlags rank s))
        (listAndEvaluate rt rank cached s customerId now factsExtra).1 ∧
      (∀ f ∈ findFlags rank s, f.rules.Pairwise fun a b => a.priority ≤ b.priority) ∧
      (∀ rank' cached' s',
        List.Forall₂ RaisedFlag (cached.getD (findFlags rank s)) (cached'.getD (findFlags rank' s')) →
        List.Forall₂ StaysOn (listAndEvaluate rt rank cached s customerId now factsExtra).1
          (listAndEvaluate rt rank' cached' s' customerId now factsExtra).1) ∧
      ∀ rollout, (∀ r, Reaches r.rolloutPercent (rollout r)) →
        List.Forall₂ StaysOn (listAndEvaluate rt rank none s customerId now factsExtra).1
          (listAndEvaluate rt rank none (s.withRollouts rollout) customerId now factsExtra).1 := by
  have hmono : ∀ {flags flags' : List FeatureFlag} (facts : JsValue),
      List.Forall₂ RaisedFlag flags flags' →
      List.Forall₂ StaysOn (flags.map (evaluateFlag rt facts customerId))
        (flags'.map (evaluateFlag rt facts customerId)) := by
    intro flags flags' facts h
    rw [List.forall₂_map_left_iff, List.forall₂_map_right_iff]
    exact h.imp fun _ _ hf => hf.staysOn
  refine ⟨?_, ?_, ?_, ?_⟩
  · rw [listAndEvaluate, List.forall₂_map_right_iff]
    exact List.forall₂_same.mpr fun f _ => ⟨rfl, rfl, evaluateFlag_decided f⟩
  · intro f hf
    obtain ⟨row, -, rfl⟩ := List.mem_map.mp hf
    exact (includedRules_spec row.id s).1
  · intro rank' cached' s' h
    exact hmono _ h
  · intro rollout h
    exact hmono _ (raised_findFlags s h)

/-- A flag of which the first rule is rolled out to a tenth of the customers of the shop. -/
def newCheckout : FlagStore where
  flags := Table.empty.insert fun n =>
    { id := n, code := "new_checkout", name := "New Checkout", status := .conditional }
  rules := (Table.empty.insert fun n => { id := n, flagId := 0, priority := 2 }).insert fun n =>
    { id := n, flagId := 0, priority := 1, rolloutPercent := some 10,
      conditions := .object [("field", .string "customer.id"), ("exists", .boolean true)] }

theorem newCheckout_grows :
    (listAndEvaluate .plain id none newCheckout (some "u1") 0 []).1 =
        [⟨"new_checkout", "New Checkout", false⟩] ∧
      List.Forall₂ StaysOn (listAndEvaluate .plain id none newCheckout (some "u1") 0 []).1
        (listAndEvaluate .plain id none (newCheckout.withRollouts fun _ => none) (some "u1") 0 []).1 :=
  ⟨by decide +kernel, (flags_follow_rules .plain id none newCheckout (some "u1") 0 []).2.2.2 _
    fun _ => trivial⟩

end ElectronicsCart.Marketing
