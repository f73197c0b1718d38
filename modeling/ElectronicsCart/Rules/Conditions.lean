import ElectronicsCart.Lib.Formulas
import ElectronicsCart.Rules.Engine

/-!
# Conditions as formulas

A tree that `validateConditionTree` accepts is a formula whose leaves are the operators' verdicts.
`ConditionEvaluator` evaluates it lazily with `shortCircuit` and strictly without.
-/

namespace ElectronicsCart.Rules

open Formulas

abbrev LeafFields := List (String × JsValue)

mutual

def conditionOf : JsValue → Formula LeafFields
  | .object fields =>
    match membersAt "all" fields with
    | some fs => .all fs
    | none =>
      match membersAt "any" fields with
      | some fs => .any fs
      | none =>
        match innerAt fields with
        | some f => .not f
        | none => .leaf fields
  | _ => .leaf []

def membersAt (key : String) : List (String × JsValue) → Option (List (Formula LeafFields))
  | [] => none
  | (k, v) :: rest => if k = key then some (membersOf v) else membersAt key rest

def membersOf : JsValue → List (Formula LeafFields)
  | .array children => conditionsOf children
  | _ => []

def conditionsOf : List JsValue → List (Formula LeafFields)
  | [] => []
  | c :: cs => conditionOf c :: conditionsOf cs

def innerAt : List (String × JsValue) → Option (Formula LeafFields)
  | [] => none
  | (k, v) :: rest => if k = "not" then some (conditionOf v) else innerAt rest

end

/-! ### The keys of a node -/

section Keys

variable {fields : List (String × JsValue)} {key : String}

theorem lookup_cons {α : Type} (k : String) (v : α) (rest : List (String × α)) :
    ((k, v) :: rest).lookup key = if k = key then some v else rest.lookup key := by
  rw [List.lookup_cons]
  by_cases hk : k = key
  · simp [hk]
  · have hne : (key == k) = false := beq_eq_false_iff_ne.mpr fun he => hk he.symm
    simp [hk, hne]

theorem scan_eq {β : Type} {scan : List (String × JsValue) → Option β} {g : JsValue → β}
    (hnil : scan [] = none)
    (hcons : ∀ k v rest, scan ((k, v) :: rest) = if k = key then some (g v) else scan rest) :
    scan fields = (fields.lookup key).map g := by
  induction fields with
  | nil => exact hnil
  | cons f fields ih =>
    rw [hcons, lookup_cons, ih]
    split <;> rfl

theorem membersAt_eq : membersAt key fields = (fields.lookup key).map membersOf :=
  scan_eq rfl fun _ _ _ => rfl

theorem innerAt_eq : innerAt fields = (fields.lookup "not").map conditionOf :=
  scan_eq rfl fun _ _ _ => rfl

theorem validateGroup_eq {path : String} :
    validateGroup path key fields = (fields.lookup key).map (validateChildren path key) :=
  scan_eq rfl fun _ _ _ => rfl

theorem validateNot_eq {path : String} : validateNot path fields =
    (fields.lookup "not").map (validateConditionTree (path ++ ".not")) :=
  scan_eq rfl fun _ _ _ => rfl

variable {rt : Runtime} {options : EvaluateOptions} {facts : JsValue}

theorem groupAt_eq {mode : GroupMode} : groupAt rt options facts mode fields =
    (fields.lookup mode.text).map (group rt options facts mode) :=
  scan_eq rfl fun _ _ _ => rfl

theorem childAt_eq :
    childAt rt options facts fields = (fields.lookup "not").map (node rt options facts) :=
  scan_eq rfl fun _ _ _ => rfl

theorem conditionsOf_eq {cs : List JsValue} : conditionsOf cs = cs.map conditionOf := by
  induction cs with
  | nil => rfl
  | cons c cs ih => exact congrArg (conditionOf c :: ·) ih

theorem membersOf_array {cs : List JsValue} : membersOf (.array cs) = cs.map conditionOf :=
  conditionsOf_eq

theorem conditionOf_object : conditionOf (.object fields) =
    match (fields.lookup "all").map membersOf with
    | some fs => .all fs
    | none =>
      match (fields.lookup "any").map membersOf with
      | some fs => .any fs
      | none =>
        match (fields.lookup "not").map conditionOf with
        | some f => .not f
        | none => .leaf fields := by
  rw [← membersAt_eq, ← membersAt_eq, ← innerAt_eq]
  rfl

theorem conditionOf_all {cs : List JsValue} (hall : fields.lookup "all" = some (.array cs)) :
    conditionOf (.object fields) = .all (cs.map conditionOf) := by
  rw [conditionOf_object, hall, Option.map_some, membersOf_array]

theorem conditionOf_any {cs : List JsValue} (hall : fields.lookup "all" = none)
    (hany : fields.lookup "any" = some (.array cs)) :
    conditionOf (.object fields) = .any (cs.map conditionOf) := by
  rw [conditionOf_object, hall, Option.map_none, hany, Option.map_some, membersOf_array]

theorem conditionOf_not {c : JsValue} (hall : fields.lookup "all" = none)
    (hany : fields.lookup "any" = none) (hnot : fields.lookup "not" = some c) :
    conditionOf (.object fields) = .not (conditionOf c) := by
  rw [conditionOf_object, hall, hany, hnot, Option.map_none, Option.map_some]

theorem conditionOf_leaf (hall : fields.lookup "all" = none) (hany : fields.lookup "any" = none)
    (hnot : fields.lookup "not" = none) : conditionOf (.object fields) = .leaf fields := by
  rw [conditionOf_object, hall, hany, hnot, Option.map_none, Option.map_none]

theorem sizeOf_lookup {v : JsValue} (h : fields.lookup key = some v) :
    sizeOf v < sizeOf (JsValue.object fields) := by
  induction fields with
  | nil => cases h
  | cons f fields ih =>
    obtain ⟨k, w⟩ := f
    rw [lookup_cons] at h
    split at h
    · obtain rfl := Option.some.inj h
      simp only [JsValue.object.sizeOf_spec, List.cons.sizeOf_spec, Prod.mk.sizeOf_spec]
      omega
    · have hrest := ih h
      simp only [JsValue.object.sizeOf_spec, List.cons.sizeOf_spec] at hrest ⊢
      omega

end Keys

theorem validateEach_nil {path : String} {i : ℕ} {cs : List JsValue}
    (h : validateEach path i cs = []) : ∀ c ∈ cs, ∃ p, validateConditionTree p c = [] := by
  induction cs generalizing i with
  | nil => exact fun _ hc => (nomatch hc)
  | cons c cs ih =>
    rw [validateEach, List.append_eq_nil_iff] at h
    exact List.forall_mem_cons.mpr ⟨⟨_, h.1⟩, ih h.2⟩

theorem accepted_induct {motive : JsValue → Prop}
    (all : ∀ fields cs, fields.lookup "all" = some (.array cs) → (∀ c ∈ cs, motive c) →
      motive (.object fields))
    (any : ∀ fields cs, fields.lookup "all" = none → fields.lookup "any" = some (.array cs) →
      (∀ c ∈ cs, motive c) → motive (.object fields))
    (not : ∀ fields c, fields.lookup "all" = none → fields.lookup "any" = none →
      fields.lookup "not" = some c → motive c → motive (.object fields))
    (leaf : ∀ fields path, fields.lookup "all" = none → fields.lookup "any" = none →
      fields.lookup "not" = none → validateLeaf path fields = [] → motive (.object fields))
    (t : JsValue) {path : String} (h : validateConditionTree path t = []) : motive t := by
  induction hn : sizeOf t using Nat.strong_induction_on generalizing t path with
  | _ n ih =>
  have hchildren : ∀ {fields key v p}, fields.lookup key = some v → t = .object fields →
      validateChildren p key v = [] → ∃ cs, v = .array cs ∧ ∀ c ∈ cs, motive c := by
    intro fields key v p hv ht hvalid
    have hsize := sizeOf_lookup hv
    unfold validateChildren at hvalid
    split at hvalid
    next cs =>
      refine ⟨cs, rfl, fun c hc => ?_⟩
      obtain ⟨q, hq⟩ := validateEach_nil hvalid c hc
      have hmem := List.sizeOf_lt_of_mem hc
      refine ih (sizeOf c) ?_ c hq rfl
      rw [← hn, ht]
      simp only [JsValue.array.sizeOf_spec] at hsize
      omega
    · cases hvalid
  unfold validateConditionTree at h
  split at h
  case h_1 fields =>
    rw [validateGroup_eq, validateGroup_eq, validateNot_eq] at h
    cases hall : fields.lookup "all" with
    | some v =>
      rw [hall] at h
      obtain ⟨cs, rfl, hcs⟩ := hchildren hall rfl h
      exact all fields cs hall hcs
    | none =>
    rw [hall] at h
    cases hany : fields.lookup "any" with
    | some v =>
      rw [hany] at h
      obtain ⟨cs, rfl, hcs⟩ := hchildren hany rfl h
      exact any fields cs hall hany hcs
    | none =>
    rw [hany] at h
    cases hnot : fields.lookup "not" with
    | some v =>
      rw [hnot] at h
      exact not fields v hall hany hnot (ih _ (hn ▸ sizeOf_lookup hnot) v h rfl)
    | none =>
      rw [hnot] at h
      exact leaf fields path hall hany hnot h
  all_goals cases h

/-! ### Verdicts -/

def verdict (r : EvalInternal) : Verdict := if r.errors.isEmpty then some r.matched else none

def leafField (rt : Runtime) (fields : LeafFields) : String :=
  ((fields.lookup "field").getD .undefined).toText rt

/-- What the operator of a leaf says about the value its path resolves to. -/
def operatorResult (rt : Runtime) (facts : JsValue) (fields : LeafFields) :
    Option OperatorEvalResult :=
  match leafOperator fields with
  | .error _ => none
  | .ok (name, expected) =>
    (defaultOperators.lookup name).map fun op => op rt
      { field := leafField rt fields
        actual := walk facts (pathParts (leafField rt fields))
        expected }

def leafVerdict (rt : Runtime) (facts : JsValue) (fields : LeafFields) : Verdict :=
  if isValidPath (leafField rt fields) then
    (operatorResult rt facts fields).bind fun r => if r.error.isSome then none else some r.matched
  else none

/-- The conjunction `ConditionEvaluator` evaluates. -/
def conjunction (options : EvaluateOptions) : List Verdict → Verdict :=
  if options.shortCircuit then lazyConj else conj

def connective (options : EvaluateOptions) (mode : GroupMode) : List Verdict → Verdict :=
  match mode with
  | .all => conjunction options
  | .any => disj

def SoundCache (facts : JsValue) (cache : PathCache) : Prop :=
  ∀ path v, cache.lookup path = some v → v = walk facts (pathParts path)

/-- The evaluation does not throw and answers `v`, whatever sound cache it finds. -/
def Answers (facts : JsValue) (run : Eval EvalInternal) (v : Verdict) : Prop :=
  ∀ cache, SoundCache facts cache →
    ∃ r cache', run cache = .ok (r, cache') ∧ SoundCache facts cache' ∧ verdict r = v

section Evaluation

variable {rt : Runtime} {options : EvaluateOptions} {facts : JsValue}

theorem resolvePath_spec {path : String} {cache : PathCache} (hvalid : isValidPath path = true)
    (hc : SoundCache facts cache) : ∃ cache',
      resolvePath facts path cache = (.ok (walk facts (pathParts path)), cache') ∧
        SoundCache facts cache' := by
  rw [resolvePath, hvalid]
  cases hl : cache.lookup path with
  | some v => exact ⟨cache, by simp [hc path v hl], hc⟩
  | none =>
    refine ⟨_, rfl, fun q v hq => ?_⟩
    rw [lookup_cons] at hq
    split at hq
    next he => rw [← he, Option.some.inj hq]
    next => exact hc q v hq

theorem leaf_answers (fields : LeafFields) :
    Answers facts (leaf rt options facts fields) (leafVerdict rt facts fields) := by
  intro cache hc
  have hfield : ((fields.lookup "field").getD .undefined).toText rt = leafField rt fields := rfl
  simp only [leaf, leafVerdict, operatorResult, hfield]
  cases hop : leafOperator fields with
  | error e => exact ⟨_, _, rfl, hc, by simp [verdict]⟩
  | ok found =>
    obtain ⟨name, expected⟩ := found
    cases hname : defaultOperators.lookup name with
    | none =>
      simp only [hname]
      exact ⟨_, _, rfl, hc, by simp [verdict]⟩
    | some op =>
      simp only [hname, Option.map_some, Option.bind_some]
      cases hvalid : isValidPath (leafField rt fields) with
      | false =>
        simp only [resolvePath, hvalid]
        exact ⟨_, _, rfl, hc, by simp [verdict]⟩
      | true =>
        obtain ⟨cache', hres, hc'⟩ := resolvePath_spec hvalid hc
        simp only [hres]
        split
        next e he => exact ⟨_, _, rfl, hc', by simp [verdict, he]⟩
        next he => exact ⟨_, _, rfl, hc', by simp [verdict, he]⟩

theorem negated_verdict (r : EvalInternal) :
    verdict (negated options r) = (verdict r).map (!·) := by
  cases hr : r.errors <;> simp [verdict, negated, hr]

/-- What the loop has gathered from children with the verdicts `seen`. -/
structure Represents (options : EvaluateOptions) (mode : GroupMode) (g : Gathered)
    (seen : List Verdict) : Prop where
  errors : g.errors = [] ↔ none ∉ seen
  failed : mode = .all → (g.failed = true ↔ ∃ v ∈ seen, v ≠ some true)
  count : mode = .any → (0 < g.matchedCount ↔ some true ∈ seen)
  undecided : options.shortCircuit = true → mode = .all → ∀ v ∈ seen, v = some true

theorem verdict_none {r : EvalInternal} : verdict r = none ↔ r.errors ≠ [] := by
  simp [verdict]

theorem met_iff {r : EvalInternal} :
    (r.matched && r.errors.isEmpty) = true ↔ verdict r = some true := by
  simp [verdict, and_comm]

theorem unmet_iff {r : EvalInternal} :
    (!r.errors.isEmpty || !r.matched) = true ↔ verdict r ≠ some true := by
  rw [← not_iff_not, not_not, ← met_iff]
  simp [and_comm]

theorem gather_spec {mode : GroupMode} {g : Gathered} {seen : List Verdict} {r : EvalInternal}
    (h : Represents options mode g seen) :
    (∃ d, gather options mode g r = .inl d ∧
      ∀ rest, verdict d = connective options mode (seen ++ verdict r :: rest)) ∨
    ∃ g', gather options mode g r = .inr g' ∧ Represents options mode g' (seen ++ [verdict r]) := by
  have herrors : g.errors ++ r.errors = [] ↔ none ∉ seen ++ [verdict r] := by
    have hr : r.errors = [] ↔ none ≠ verdict r := by rw [ne_comm, ne_eq, verdict_none, not_not]
    simp [h.errors, hr]
  cases mode with
  | all =>
    simp only [gather]
    split
    next hunmet =>
      rw [unmet_iff] at hunmet
      split
      next hlazy =>
        -- every child before held, so there are no errors but those of this one
        have hseen := h.undecided hlazy rfl
        have hnil : g.errors = [] := h.errors.mpr fun hn => Option.some_ne_none true (hseen none hn).symm
        refine .inl ⟨_, rfl, fun rest => ?_⟩
        simp only [connective, conjunction, hlazy, if_true]
        rw [lazyConj_append hseen _ hunmet]
        cases hr : r.errors <;> simp_all [verdict]
      next hstrict =>
        refine .inr ⟨_, rfl, herrors, fun _ => ?_, fun hm => GroupMode.noConfusion hm,
          fun hl => (hstrict hl).elim⟩
        simp [hunmet]
    next hmet =>
      rw [unmet_iff, not_not] at hmet
      refine .inr ⟨_, rfl, herrors, fun hm => ?_, fun hm => GroupMode.noConfusion hm, fun hl hm => ?_⟩
      · simpa [hmet] using h.failed hm
      · simpa [or_imp, forall_and, hmet] using h.undecided hl hm
  | any =>
    simp only [gather]
    split
    next hmet =>
      rw [met_iff] at hmet
      split
      next hlazy =>
        refine .inl ⟨_, rfl, fun rest => ?_⟩
        exact (disj_eq_true.mpr (by simp [hmet])).symm
      next hstrict =>
        refine .inr ⟨_, rfl, herrors, fun hm => GroupMode.noConfusion hm, fun _ => ?_,
          fun _ hm => GroupMode.noConfusion hm⟩
        simp [hmet]
    next hunmet =>
      rw [met_iff] at hunmet
      refine .inr ⟨_, rfl, herrors, fun hm => GroupMode.noConfusion hm, fun hm => ?_,
        fun _ hm => GroupMode.noConfusion hm⟩
      simpa [Ne.symm hunmet] using h.count hm

theorem groupResult_verdict {mode : GroupMode} {g : Gathered} {seen : List Verdict}
    (h : Represents options mode g seen) :
    verdict (groupResult mode g) = connective options mode seen := by
  cases mode with
  | all =>
    have hconj : verdict (groupResult .all g) = conj seen := by
      by_cases hnone : none ∈ seen
      · have herrors : g.errors ≠ [] := fun he => h.errors.mp he hnone
        simp [verdict, groupResult, conj, hnone, herrors]
      · have hfailed : g.failed = false ↔ ∀ v ∈ seen, v = some true := by
          rw [← Bool.not_eq_true, h.failed rfl]
          simp
        have hall : (!g.failed) = seen.all fun v => v == some true := by
          rw [Bool.eq_iff_iff, Bool.not_eq_true', hfailed]
          simp
        simp [verdict, groupResult, conj, hnone, h.errors.mpr hnone, ← hall]
    rw [hconj, connective, conjunction]
    split
    next hlazy =>
      have hseen := h.undecided hlazy rfl
      rw [conj_eq_true.mpr hseen, lazyConj_eq_true.mpr hseen]
    next => rfl
  | any =>
    have hcount := h.count rfl
    by_cases htrue : some true ∈ seen
    · simp [verdict, groupResult, connective, disj, htrue, hcount]
    · by_cases hnone : none ∈ seen
      · have herrors : g.errors ≠ [] := fun he => h.errors.mp he hnone
        simp [verdict, groupResult, connective, disj, htrue, hcount, hnone, herrors]
      · simp [verdict, groupResult, connective, disj, htrue, hcount, hnone, h.errors.mpr hnone]

theorem groupLoop_answers {mode : GroupMode} {value : JsValue → Verdict} {cs : List JsValue}
    (hcs : ∀ c ∈ cs, Answers facts (node rt options facts c) (value c)) :
    ∀ {g seen}, Represents options mode g seen →
      Answers facts (groupLoop rt options facts mode g cs)
        (connective options mode (seen ++ cs.map value)) := by
  induction cs with
  | nil =>
    intro g seen h cache hc
    exact ⟨_, cache, rfl, hc, by rw [groupResult_verdict h, List.map_nil, List.append_nil]⟩
  | cons c cs ih =>
    intro g seen h cache hc
    rw [List.forall_mem_cons] at hcs
    obtain ⟨r, cache', hrun, hc', hr⟩ := hcs.1 cache hc
    rw [groupLoop, List.map_cons, ← hr]
    rcases gather_spec (r := r) h with ⟨d, hd, hverdict⟩ | ⟨g', hg', h'⟩
    · simp only [hrun, hd]
      exact ⟨d, cache', rfl, hc', hverdict _⟩
    · simp only [hrun, hg']
      have hrest := ih hcs.2 h' cache' hc'
      rw [List.append_assoc] at hrest
      exact hrest

theorem group_answers {mode : GroupMode} {cs : List JsValue} {value : JsValue → Verdict}
    (hcs : ∀ c ∈ cs, Answers facts (node rt options facts c) (value c)) :
    Answers facts (group rt options facts mode (.array cs))
      (connective options mode (cs.map value)) := by
  have hempty : Represents options mode {} [] := by
    constructor <;> simp
  rw [group]
  split
  next hnil =>
    obtain rfl : cs = [] := by simpa using hnil
    refine fun cache hc => ⟨_, cache, rfl, hc, ?_⟩
    rw [List.map_nil, ← groupResult_verdict hempty]
    cases mode <;> simp [verdict, emptyGroup, groupResult]
  next => exact groupLoop_answers hcs hempty

theorem node_answers (t : JsValue) {path : String} (h : validateConditionTree path t = []) :
    Answers facts (node rt options facts t)
      ((conditionOf t).value (conjunction options) (leafVerdict rt facts)) := by
  refine accepted_induct (motive := fun t => Answers facts (node rt options facts t)
    ((conditionOf t).value (conjunction options) (leafVerdict rt facts))) ?_ ?_ ?_ ?_ t h
  · intro fields cs hall ih
    have hgroup := @group_answers _ _ _ .all _ _ ih
    rw [conditionOf_all hall, Formula.value, values_eq, List.map_map]
    simp only [node, groupAt_eq, GroupMode.text, hall, Option.map_some]
    exact hgroup
  · intro fields cs hall hany ih
    have hgroup := @group_answers _ _ _ .any _ _ ih
    rw [conditionOf_any hall hany, Formula.value, values_eq, List.map_map]
    simp only [node, groupAt_eq, GroupMode.text, hall, hany, Option.map_some, Option.map_none]
    exact hgroup
  · intro fields c hall hany hnot ih cache hc
    obtain ⟨r, cache', hrun, hc', hr⟩ := ih cache hc
    refine ⟨negated options r, cache', ?_, hc', ?_⟩
    · simp [node, groupAt_eq, childAt_eq, GroupMode.text, hall, hany, hnot, hrun]
    · rw [negated_verdict, hr, conditionOf_not hall hany hnot, Formula.value]
  · intro fields path hall hany hnot _
    have hleaf := @leaf_answers rt options facts fields
    rw [conditionOf_leaf hall hany hnot, Formula.value]
    simpa [node, groupAt_eq, childAt_eq, GroupMode.text, hall, hany, hnot] using hleaf

theorem evaluate_verdict (t : JsValue) (h : validateConditionTree "$" t = []) :
    (evaluate rt t facts options).matched =
        ((conditionOf t).value (conjunction options) (leafVerdict rt facts) == some true) ∧
      ((evaluate rt t facts options).errors = none ↔
        (conditionOf t).value (conjunction options) (leafVerdict rt facts) ≠ none) := by
  have hsound : SoundCache facts [] := fun _ _ hl => (nomatch hl)
  obtain ⟨r, cache, hrun, -, hr⟩ := @node_answers rt options _ t _ h [] hsound
  have hobject : t.nullish = false := by
    cases t <;> first | rfl | cases h
  rw [← hr]
  simp only [evaluate, evaluateConditions, hobject, h, hrun, Except.map]
  cases he : r.errors <;> simp [verdict, he, errorResult]

end Evaluation

/-! ### The leaves of an accepted tree -/

structure ValidLeaf (fields : LeafFields) : Prop where
  checked : ∃ path, validateLeaf path fields = []
  all : fields.lookup "all" = none
  any : fields.lookup "any" = none
  not : fields.lookup "not" = none

theorem leaves_valid (t : JsValue) {path : String} (h : validateConditionTree path t = []) :
    ∀ fields ∈ (conditionOf t).leaves, ValidLeaf fields := by
  refine accepted_induct (motive := fun t => ∀ fields ∈ (conditionOf t).leaves, ValidLeaf fields)
    ?_ ?_ ?_ ?_ t h
  · intro fields cs hall ih
    rw [conditionOf_all hall]
    intro l hl
    obtain ⟨f, hf, hl⟩ := mem_leavesOf.mp hl
    obtain ⟨c, hc, rfl⟩ := List.mem_map.mp hf
    exact ih c hc l hl
  · intro fields cs hall hany ih
    rw [conditionOf_any hall hany]
    intro l hl
    obtain ⟨f, hf, hl⟩ := mem_leavesOf.mp hl
    obtain ⟨c, hc, rfl⟩ := List.mem_map.mp hf
    exact ih c hc l hl
  · intro fields c hall hany hnot ih
    rw [conditionOf_not hall hany hnot]
    exact ih
  · intro fields path hall hany hnot hleaf
    rw [conditionOf_leaf hall hany hnot]
    intro l hl
    obtain rfl := List.mem_singleton.mp hl
    exact ⟨⟨path, hleaf⟩, hall, hany, hnot⟩

theorem lookup_ne_none {fields : LeafFields} {k : String} (h : k ∈ keysOf fields) :
    fields.lookup k ≠ none := by
  induction fields with
  | nil => cases h
  | cons f fields ih =>
    obtain ⟨k', v⟩ := f
    rw [lookup_cons]
    split
    next => exact fun he => nomatch he
    next hne =>
      rw [keysOf, List.map_cons, List.mem_cons] at h
      exact ih (h.resolve_left fun he => hne he.symm)

theorem operators_registered :
    ∀ name ∈ operatorNames, ∃ op, defaultOperators.lookup name = some op := by
  intro name hname
  have hall : operatorNames.all fun n => (defaultOperators.lookup n).isSome := by decide
  exact Option.isSome_iff_exists.mp (List.all_eq_true.mp hall name hname)

theorem ValidLeaf.operator {fields : LeafFields} (h : ValidLeaf fields) (rt : Runtime)
    (facts : JsValue) : ∃ r, operatorResult rt facts fields = some r := by
  obtain ⟨path, hpath⟩ := h.checked
  have hlogical : ∀ k ∈ operatorKeys fields, logicalNames.contains k = false := by
    intro k hk
    have hfield := lookup_ne_none (List.mem_of_mem_filter hk)
    by_contra hlog
    rw [Bool.not_eq_false, List.contains_iff_mem] at hlog
    simp only [logicalNames, List.mem_cons, List.not_mem_nil, or_false] at hlog
    rcases hlog with rfl | rfl | rfl
    · exact hfield h.all
    · exact hfield h.any
    · exact hfield h.not
  simp only [validateLeaf] at hpath
  split at hpath
  case h_2 => cases hpath
  split at hpath
  · cases hpath
  split at hpath
  · cases hpath
  split at hpath
  · cases hpath
  next hunknown =>
  split at hpath
  · cases hpath
  next hone =>
    rw [not_not, List.length_eq_zero_iff, List.filter_eq_nil_iff] at hunknown
    have hall : ∀ k ∈ operatorKeys fields, operatorNames.contains k = true := by
      intro k hk
      have hno := hunknown k hk
      rw [hlogical k hk] at hno
      simpa using hno
    rw [not_not, List.filter_eq_self.mpr hall, List.length_eq_one_iff] at hone
    obtain ⟨name, hname⟩ := hone
    obtain ⟨op, hop⟩ := operators_registered name
      (List.contains_iff_mem.mp (hall name (by simp [hname])))
    simp [operatorResult, leafOperator, hname, hop]

/-! ### Results -/

def leafHolds (rt : Runtime) (facts : JsValue) (fields : LeafFields) : Bool :=
  (operatorResult rt facts fields).any (·.matched)

/-- An accepted tree with valid paths none of whose operators reports an error matches as it
reads, for all options. -/
theorem matched_eq_meaning (rt : Runtime) (options : EvaluateOptions) (t : JsValue)
    (entries : List (String × JsValue)) (hvalid : validateConditionTree "$" t = [])
    (hpaths : ∀ l ∈ (conditionOf t).leaves, isValidPath (leafField rt l) = true)
    (hops : ∀ l ∈ (conditionOf t).leaves, ∀ r, operatorResult rt (.object entries) l = some r →
      r.error = none) :
    (evaluate rt t (.object entries) options).matched =
        (conditionOf t).meaning (leafHolds rt (.object entries)) ∧
      (evaluate rt t (.object entries) options).errors = none := by
  have hconj : ∀ bs : List Bool, conjunction options (bs.map some) = some (bs.all id) := by
    intro bs
    unfold conjunction
    split
    · exact lazyConj_some bs
    · exact conj_some bs
  have hleaves : ∀ l ∈ (conditionOf t).leaves,
      leafVerdict rt (.object entries) l = some (leafHolds rt (.object entries) l) := by
    intro l hl
    obtain ⟨r, hr⟩ := (leaves_valid t hvalid l hl).operator rt (.object entries)
    simp [leafVerdict, leafHolds, hpaths l hl, hr, hops l hl r hr]
  obtain ⟨hmatched, herrors⟩ := @evaluate_verdict rt options
    (.object entries) t hvalid
  rw [value_meaning hconj hleaves] at hmatched herrors
  refine ⟨?_, herrors.mpr fun he => nomatch he⟩
  rw [hmatched]
  cases (conditionOf t).meaning (leafHolds rt (.object entries)) <;> rfl

def leafNode (field operator : String) (expected : JsValue) : JsValue :=
  .object [("field", .string field), (operator, expected)]

def groupNode (mode : GroupMode) (children : List JsValue) : JsValue :=
  .object [(mode.text, .array children)]

def notNode (child : JsValue) : JsValue := .object [("not", child)]

def sampleFacts : List (String × JsValue) :=
  [("cart", .object [("total", .number (.finite 7500))]), ("tier", .string "gold")]

/-- A cart below 5000, or no gold customer. -/
def sampleTree : JsValue :=
  groupNode .any [leafNode "cart.total" "lt" (.number (.finite 5000)),
    notNode (leafNode "tier" "eq" (.string "gold"))]

theorem matched_eq_meaning_sample :
    (evaluate .plain sampleTree (.object sampleFacts) {}).matched = false := by
  have hpaths : ∀ l ∈ (conditionOf sampleTree).leaves, isValidPath (leafField .plain l) = true := by
    decide +kernel
  have hops : ∀ l ∈ (conditionOf sampleTree).leaves, ∀ r,
      operatorResult .plain (.object sampleFacts) l = some r → r.error = none := by
    decide +kernel
  have h := matched_eq_meaning .plain {} sampleTree sampleFacts (by decide +kernel) hpaths hops
  exact h.1.trans (by decide +kernel)

/-- A path that is no path is accepted, and reported when the leaf is evaluated. -/
theorem invalid_path_reported :
    ¬ ∀ t entries, validateConditionTree "$" t = [] →
      (∀ l ∈ (conditionOf t).leaves, ∀ r,
        operatorResult .plain (.object entries) l = some r → r.error = none) →
      (evaluate .plain t (.object entries) {}).errors = none := by
  intro h
  have hrun := h (leafNode "cart-total" "exists" (.boolean false)) sampleFacts (by decide +kernel)
    (by decide +kernel)
  revert hrun
  decide +kernel

/-! ### Trees for formulas -/

mutual

def treeOf : Formula LeafFields → JsValue
  | .leaf fields => .object fields
  | .all fs => groupNode .all (treesOf fs)
  | .any fs => groupNode .any (treesOf fs)
  | .not f => notNode (treeOf f)

def treesOf : List (Formula LeafFields) → List JsValue
  | [] => []
  | f :: fs => treeOf f :: treesOf fs

end

theorem treesOf_eq {fs : List (Formula LeafFields)} : treesOf fs = fs.map treeOf := by
  induction fs with
  | nil => rfl
  | cons f fs ih => rw [treesOf, ih, List.map_cons]

theorem validateLeaf_path {p q : String} {fields : LeafFields} (h : validateLeaf p fields = []) :
    validateLeaf q fields = [] := by
  unfold validateLeaf at *
  revert h
  dsimp only
  split
  · split
    · exact fun h => nomatch h
    split
    · exact fun h => nomatch h
    split
    · exact fun h => nomatch h
    split
    · exact fun h => nomatch h
    exact fun _ => rfl
  · exact fun h => nomatch h

theorem validateEach_eq_nil {path : String} {cs : List JsValue}
    (h : ∀ c ∈ cs, ∀ p, validateConditionTree p c = []) (i : ℕ) : validateEach path i cs = [] := by
  induction cs generalizing i with
  | nil => rfl
  | cons c cs ih =>
    rw [List.forall_mem_cons] at h
    rw [validateEach, h.1, ih h.2, List.append_nil]

theorem treeOf_spec (f : Formula LeafFields) (h : ∀ l ∈ f.leaves, ValidLeaf l) :
    (∀ path, validateConditionTree path (treeOf f) = []) ∧ conditionOf (treeOf f) = f := by
  have hchildren : ∀ fs : List (Formula LeafFields), (∀ f ∈ fs, (∀ l ∈ f.leaves, ValidLeaf l) →
      (∀ path, validateConditionTree path (treeOf f) = []) ∧ conditionOf (treeOf f) = f) →
      (∀ l ∈ Formula.leavesOf fs, ValidLeaf l) →
      (∀ path i, validateEach path i (treesOf fs) = []) ∧ (treesOf fs).map conditionOf = fs := by
    intro fs ih h
    have hfs := fun f hf => ih f hf fun l hl => h l (mem_leavesOf.mpr ⟨f, hf, hl⟩)
    rw [treesOf_eq, List.map_map]
    refine ⟨fun path i => validateEach_eq_nil (List.forall_mem_map.mpr fun f hf => (hfs f hf).1) i, ?_⟩
    exact (List.map_congr_left fun f hf => (hfs f hf).2).trans (List.map_id _)
  induction f using Formula.induct with
  | leaf fields =>
    have hleaf := h fields (by simp [Formula.leaves])
    obtain ⟨p, hp⟩ := hleaf.checked
    refine ⟨fun path => ?_, conditionOf_leaf hleaf.all hleaf.any hleaf.not⟩
    simp [treeOf, validateConditionTree, validateGroup_eq, validateNot_eq, hleaf.all, hleaf.any,
      hleaf.not, validateLeaf_path hp]
  | all fs ih =>
    obtain ⟨hvalid, hfs⟩ := hchildren fs ih h
    refine ⟨fun path => ?_, ?_⟩
    · simpa [treeOf, groupNode, validateConditionTree, validateGroup, GroupMode.text,
        validateChildren] using hvalid _ 0
    · rw [treeOf, groupNode, conditionOf_all rfl, hfs]
  | any fs ih =>
    obtain ⟨hvalid, hfs⟩ := hchildren fs ih h
    refine ⟨fun path => ?_, ?_⟩
    · simpa [treeOf, groupNode, validateConditionTree, validateGroup, GroupMode.text,
        validateChildren] using hvalid _ 0
    · rw [treeOf, groupNode, conditionOf_any rfl rfl, hfs]
  | not f ih =>
    obtain ⟨hvalid, hf⟩ := ih h
    refine ⟨fun path => ?_, ?_⟩
    · simpa [treeOf, notNode, validateConditionTree, validateGroup, validateNot] using hvalid _
    · rw [treeOf, notNode, conditionOf_not rfl rfl rfl, hf]

/-- Without `shortCircuit` the order of the children does not matter.  With it the tree matches
in every order exactly if it does without, unless the evaluation without it reports errors and
the tree matches in some order. -/
theorem matched_agrees_iff (rt : Runtime) (options : EvaluateOptions) (t : JsValue)
    (entries : List (String × JsValue)) (hvalid : validateConditionTree "$" t = []) :
    (∀ t', validateConditionTree "$" t' = [] → Reordered (conditionOf t) (conditionOf t') →
      (evaluate rt t' (.object entries) { options with shortCircuit := false }).matched =
        (evaluate rt t (.object entries) { options with shortCircuit := false }).matched) ∧
    ((∀ t', validateConditionTree "$" t' = [] → Reordered (conditionOf t) (conditionOf t') →
      (evaluate rt t' (.object entries) { options with shortCircuit := true }).matched =
        (evaluate rt t (.object entries) { options with shortCircuit := false }).matched) ↔
      (evaluate rt t (.object entries) { options with shortCircuit := false }).errors = none ∨
        (conditionOf t).mayHold (leafVerdict rt (.object entries)) = false) := by
  have hstrict : ∀ t', validateConditionTree "$" t' = [] →
      (evaluate rt t' (.object entries) { options with shortCircuit := false }).matched =
        ((conditionOf t').value conj (leafVerdict rt (.object entries)) == some true) :=
    fun t' h' => (evaluate_verdict t' h').1
  have hlazy : ∀ t', validateConditionTree "$" t' = [] →
      (evaluate rt t' (.object entries) { options with shortCircuit := true }).matched =
        ((conditionOf t').value lazyConj (leafVerdict rt (.object entries)) == some true) :=
    fun t' h' => (evaluate_verdict t' h').1
  have herrors := (@evaluate_verdict rt { options with shortCircuit := false }
    (.object entries) t hvalid).2
  refine ⟨fun t' h' hre => ?_, ?_⟩
  · rw [hstrict t' h', hstrict t hvalid, hre.strict]
  · rw [herrors, hstrict t hvalid]
    refine Iff.trans ⟨fun h g hre => ?_, fun h t' h' hre => ?_⟩ lazy_agrees_iff
    · obtain ⟨haccepted, hg⟩ := treeOf_spec g fun l hl =>
        leaves_valid t hvalid l ((hre.leaves l).mpr hl)
      have hsame := h (treeOf g) (haccepted "$") (by rw [hg]; exact hre)
      rw [hlazy _ (haccepted "$"), hg, Bool.eq_iff_iff, beq_iff_eq, beq_iff_eq] at hsame
      exact hsame
    · rw [hlazy t' h', Bool.eq_iff_iff, beq_iff_eq, beq_iff_eq]
      exact h _ hre

/-- Not: a silver customer with a cart below 5000 that is not there. -/
def failingTree (swap : Bool) : JsValue :=
  let tier := leafNode "tier" "eq" (.string "silver")
  let total := leafNode "basket.total" "lt" (.number (.finite 5000))
  notNode (groupNode .all (if swap then [total, tier] else [tier, total]))

theorem matched_agrees_iff_sample :
    (evaluate .plain sampleTree (.object sampleFacts) { shortCircuit := true }).matched =
      (evaluate .plain sampleTree (.object sampleFacts) { shortCircuit := false }).matched := by
  have hvalid : validateConditionTree "$" sampleTree = [] := by decide +kernel
  have h := (matched_agrees_iff .plain {} sampleTree sampleFacts hvalid).2.mpr
    (.inl (by decide +kernel))
  exact h sampleTree hvalid (.refl _)

/-- The first child decides with `shortCircuit`; without it, or with the second child first, the
error of the second is reported. -/
theorem short_circuit_hides_errors :
    (¬ ∀ t, validateConditionTree "$" t = [] →
      (evaluate .plain t (.object sampleFacts) { shortCircuit := true }).matched =
        (evaluate .plain t (.object sampleFacts) { shortCircuit := false }).matched) ∧
    ¬ ∀ t t', validateConditionTree "$" t = [] → validateConditionTree "$" t' = [] →
      Reordered (conditionOf t) (conditionOf t') →
      (evaluate .plain t (.object sampleFacts) {}).matched =
        (evaluate .plain t' (.object sampleFacts) {}).matched := by
  have hvalid : validateConditionTree "$" (failingTree false) = [] := by decide +kernel
  have hvalid' : validateConditionTree "$" (failingTree true) = [] := by decide +kernel
  have hre : Reordered (conditionOf (failingTree false)) (conditionOf (failingTree true)) :=
    .not (.all (.swap _ _ []))
  constructor
  · intro h
    have hsame := h (failingTree false) hvalid
    revert hsame
    decide +kernel
  · intro h
    have hsame := h _ _ hvalid hvalid' hre
    revert hsame
    decide +kernel

end ElectronicsCart.Rules
