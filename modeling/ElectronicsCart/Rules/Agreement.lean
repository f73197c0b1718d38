import ElectronicsCart.Rules.Conditions

/-!
# The validator and the evaluator

`validateConditionTree` of `shared/rules/dsl/condition.dsl.ts` and `ConditionEvaluator` classify the
nodes of a tree each for themselves.  The evaluator is followed leaf by leaf: of an accepted tree it
reads no child that is missing, and every leaf it comes to has one operator, which is registered.
-/

namespace ElectronicsCart.Rules

open Formulas

/-! ### The errors of a malformed tree -/

/-- The errors of `leaf` that are about the tree. -/
def MalformedLeaf (e : String) : Prop :=
  e = "leaf must have exactly one operator" ∨ ∃ name, e = "Unknown operator: " ++ name

def aboutFacts (e : String) : Bool := e.toList.head? != some 'l' && e.toList.head? != some 'U'

theorem not_malformed {e : String} (h : aboutFacts e = true) : ¬ MalformedLeaf e := by
  rintro (rfl | ⟨name, rfl⟩)
  · revert h
    decide
  · have hfirst : ("Unknown operator: " ++ name).toList.head? = some 'U' := by
      rw [String.toList_append]
      rfl
    rw [aboutFacts, hfirst] at h
    revert h
    decide

theorem aboutFacts_append {s t : String} (hs : s.toList ≠ []) (h : aboutFacts s = true) :
    aboutFacts (s ++ t) = true := by
  rw [aboutFacts, String.toList_append, List.head?_append_of_ne_nil _ hs]
  exact h

theorem mem_of_lookup {α : Type} {key : String} {v : α} {entries : List (String × α)}
    (h : entries.lookup key = some v) : (key, v) ∈ entries := by
  induction entries with
  | nil => cases h
  | cons entry entries ih =>
    obtain ⟨k, w⟩ := entry
    rw [lookup_cons] at h
    split at h
    next hk =>
      obtain rfl := Option.some.inj h
      rw [hk]
      exact .head _
    next => exact .tail _ (ih h)

section Operators

variable {rt : Runtime} {ctx : OperatorContext} {e : String}

theorem ok_aboutFacts {matched : Bool} {reason : String} (h : (ok matched reason).error = some e) :
    aboutFacts e = true := by
  cases h

theorem compareOrdered_aboutFacts {a b : JsValue} (h : compareOrdered rt a b = .error e) :
    aboutFacts e = true := by
  have hnull : aboutFacts "Cannot compare null/undefined" = true := by decide
  have hkinds : ∀ s, aboutFacts ("Incomparable types: " ++ s) = true := fun s =>
    aboutFacts_append (by decide) (by decide)
  unfold compareOrdered at h
  dsimp only at h
  split at h
  · cases h
    exact hnull
  · cases h
    exact hnull
  · cases h
  · cases h
  · cases h
  · split at h
    · cases h
    · cases h
      rw [String.append_assoc, String.append_assoc]
      exact hkinds _

theorem cmpOp_aboutFacts {symbol : String} {pred : ℚ → Bool} (h : (cmpOp rt ctx symbol pred).error = some e) :
    aboutFacts e = true := by
  unfold cmpOp at h
  dsimp only at h
  split at h
  next hc => exact Option.some.inj h ▸ compareOrdered_aboutFacts hc
  · cases h

theorem betweenOperator_aboutFacts (h : (betweenOperator rt ctx).error = some e) : aboutFacts e = true := by
  unfold betweenOperator at h
  split at h
  · split at h
    next hc => exact Option.some.inj h ▸ compareOrdered_aboutFacts hc
    next hc => exact Option.some.inj h ▸ compareOrdered_aboutFacts hc
    · cases h
  · cases h
    decide

theorem inOperator_aboutFacts (h : (inOperator rt ctx).error = some e) : aboutFacts e = true := by
  unfold inOperator at h
  split at h
  · cases h
  · cases h
    decide

theorem onStrings_aboutFacts {failed error : String} {f : String → String → OperatorEvalResult}
    (herror : aboutFacts error = true)
    (hf : ∀ hay needle, (f hay needle).error = some e → aboutFacts e = true)
    (h : (onStrings rt ctx failed error f).error = some e) : aboutFacts e = true := by
  unfold onStrings at h
  split at h
  · exact hf _ _ h
  · cases h
    exact herror

theorem containsOperator_aboutFacts (h : (containsOperator rt ctx).error = some e) : aboutFacts e = true := by
  unfold containsOperator at h
  split at h
  · cases h
  · exact onStrings_aboutFacts (by decide) (fun _ _ => ok_aboutFacts) h

theorem regexOperator_aboutFacts (h : (regexOperator rt ctx).error = some e) : aboutFacts e = true := by
  refine onStrings_aboutFacts (by decide) (fun hay pattern h => ?_) h
  split at h
  · cases h
    decide
  · split at h
    · cases h
    · cases h
      decide

theorem existsOperator_aboutFacts (h : (existsOperator ctx).error = some e) : aboutFacts e = true := by
  unfold existsOperator at h
  dsimp only at h
  split at h
  · split at h <;> cases h
  · split at h <;> cases h

theorem operator_aboutFacts {name : String} {op : Runtime → OperatorContext → OperatorEvalResult}
    (hop : defaultOperators.lookup name = some op) (h : (op rt ctx).error = some e) :
    aboutFacts e = true := by
  have hmem : (name, op) ∈ defaultOperators := mem_of_lookup hop
  simp only [defaultOperators, List.mem_cons, Prod.mk.injEq, List.not_mem_nil, or_false] at hmem
  rcases hmem with h' | h' | h' | h' | h' | h' | h' | h' | h' | h' | h' | h' | h' | h' | h' | h' | h'
  all_goals obtain ⟨-, rfl⟩ := h'
  · exact ok_aboutFacts h
  · exact ok_aboutFacts h
  · exact cmpOp_aboutFacts h
  · exact cmpOp_aboutFacts h
  · exact cmpOp_aboutFacts h
  · exact cmpOp_aboutFacts h
  · exact betweenOperator_aboutFacts h
  · exact inOperator_aboutFacts h
  · exact containsOperator_aboutFacts h
  · exact onStrings_aboutFacts (by decide) (fun _ _ => ok_aboutFacts) h
  · exact onStrings_aboutFacts (by decide) (fun _ _ => ok_aboutFacts) h
  · exact regexOperator_aboutFacts h
  · exact existsOperator_aboutFacts h
  · exact ok_aboutFacts h
  · exact ok_aboutFacts h
  · exact ok_aboutFacts h
  · exact ok_aboutFacts h

end Operators

/-! ### The evaluator, leaf by leaf -/

structure Visit where
  fields : LeafFields
  result : EvalInternal

/-- Evaluation with the leaves it has visited, in their order. -/
abbrev Traced := PathCache → Except String (EvalInternal × PathCache × List Visit)

section Evaluation

variable (rt : Runtime) (options : EvaluateOptions) (facts : JsValue)

def tracedLeaf (fields : LeafFields) : Traced := fun cache =>
  match leaf rt options facts fields cache with
  | .error e => .error e
  | .ok (result, cache) => .ok (result, cache, [⟨fields, result⟩])

mutual

/-- `node`; a child that is missing or no list is an error, as it is there. -/
def tracedNode : JsValue → Traced
  | .object fields =>
    match tracedGroupAt .all fields with
    | some run => run
    | none =>
      match tracedGroupAt .any fields with
      | some run => run
      | none =>
        match tracedChildAt fields with
        | some run => fun cache =>
          match run cache with
          | .error e => .error e
          | .ok (inner, cache, visits) => .ok (negated options inner, cache, visits)
        | none => tracedLeaf rt options facts fields
  | .objectPrototype => tracedLeaf rt options facts []
  | _ => fun _ => .error "Cannot use 'in' operator"

def tracedGroupAt (mode : GroupMode) : List (String × JsValue) → Option Traced
  | [] => none
  | (k, v) :: rest => if k = mode.text then some (tracedGroup mode v) else tracedGroupAt mode rest

def tracedChildAt : List (String × JsValue) → Option Traced
  | [] => none
  | (k, v) :: rest => if k = "not" then some (tracedNode v) else tracedChildAt rest

def tracedGroup (mode : GroupMode) : JsValue → Traced
  | .array children =>
    if children.isEmpty then fun cache => .ok (emptyGroup options mode, cache, [])
    else tracedLoop mode {} children
  | _ => fun _ => .error "children is not iterable"

def tracedLoop (mode : GroupMode) (g : Gathered) : List JsValue → Traced
  | [] => fun cache => .ok (groupResult mode g, cache, [])
  | child :: rest => fun cache =>
    match tracedNode child cache with
    | .error e => .error e
    | .ok (r, cache, visits) =>
      match gather options mode g r with
      | .inl decided => .ok (decided, cache, visits)
      | .inr g =>
        match tracedLoop mode g rest cache with
        | .error e => .error e
        | .ok (r, cache, later) => .ok (r, cache, visits ++ later)

end

end Evaluation

section Follow

variable {rt : Runtime} {options : EvaluateOptions} {facts : JsValue} {fields : LeafFields}

theorem tracedGroupAt_eq {mode : GroupMode} : tracedGroupAt rt options facts mode fields =
    (fields.lookup mode.text).map (tracedGroup rt options facts mode) :=
  scan_eq rfl fun _ _ _ => rfl

theorem tracedChildAt_eq :
    tracedChildAt rt options facts fields = (fields.lookup "not").map (tracedNode rt options facts) :=
  scan_eq rfl fun _ _ _ => rfl

/-- The visits go through the leaves from left to right, and the tree is at fault at none of them. -/
structure Clean (visits : List Visit) (leaves : List LeafFields) : Prop where
  order : (visits.map Visit.fields).Sublist leaves
  errors : ∀ v ∈ visits, ∀ e ∈ v.result.errors, ¬ MalformedLeaf e

theorem Clean.append {visits visits' : List Visit} {leaves leaves' : List LeafFields}
    (h : Clean visits leaves) (h' : Clean visits' leaves') :
    Clean (visits ++ visits') (leaves ++ leaves') := by
  refine ⟨?_, List.forall_mem_append.mpr ⟨h.errors, h'.errors⟩⟩
  rw [List.map_append]
  exact h.order.append h'.order

theorem Clean.widen {visits : List Visit} {leaves leaves' : List LeafFields} (h : Clean visits leaves) :
    Clean visits (leaves ++ leaves') :=
  ⟨h.order.trans (List.sublist_append_left leaves leaves'), h.errors⟩

/-- The evaluation ends with a result, whatever it finds in the cache, and its visits are clean. -/
def Follows (traced : Traced) (run : Eval EvalInternal) (leaves : List LeafFields) : Prop :=
  ∀ cache, ∃ r cache' visits, traced cache = .ok (r, cache', visits) ∧ run cache = .ok (r, cache') ∧
    Clean visits leaves

theorem follows_leaf (h : ValidLeaf fields) :
    Follows (tracedLeaf rt options facts fields) (leaf rt options facts fields) [fields] := by
  intro cache
  have hvisit : ∀ {r cache'}, leaf rt options facts fields cache = .ok (r, cache') →
      (∀ e ∈ r.errors, aboutFacts e = true) → ∃ r cache' visits,
        tracedLeaf rt options facts fields cache = .ok (r, cache', visits) ∧
        leaf rt options facts fields cache = .ok (r, cache') ∧ Clean visits [fields] := by
    intro r cache' hrun herrors
    refine ⟨r, cache', [⟨fields, r⟩], ?_, hrun, ⟨List.Sublist.refl _, fun v hv e he => ?_⟩⟩
    · rw [tracedLeaf, hrun]
    · obtain rfl := List.mem_singleton.mp hv
      exact not_malformed (herrors e he)
  obtain ⟨r, hr⟩ := h.operator rt facts
  unfold operatorResult at hr
  split at hr
  · cases hr
  next name expected hleaf =>
  obtain ⟨op, hop, -⟩ := Option.map_eq_some_iff.mp hr
  cases hres : resolvePath facts (leafField rt fields) cache with
  | mk answer cache' =>
  have hfield : ((fields.lookup "field").getD .undefined).toText rt = leafField rt fields := rfl
  cases answer with
  | error e =>
    have hpath : aboutFacts e = true := by
      unfold resolvePath at hres
      split at hres
      · cases hres
        exact aboutFacts_append (by decide) (by decide)
      · split at hres <;> cases hres
    refine @hvisit { matched := false, errors := [e] } cache' ?_ (by simpa using hpath)
    simp only [leaf, hleaf, hop, hfield, hres]
  | ok actual =>
    obtain ⟨result, hresult⟩ :
        ∃ result, op rt { field := leafField rt fields, actual, expected } = result := ⟨_, rfl⟩
    cases herr : result.error with
    | some e =>
      refine @hvisit { matched := false, reasons := reasonsOf options [result.reason], errors := [e] }
        cache' ?_ ?_
      · simp only [leaf, hleaf, hop, hfield, hres, hresult, herr]
      · simpa using operator_aboutFacts hop (hresult ▸ herr)
    | none =>
      refine @hvisit
        { matched := result.matched
          score := if result.matched then options.matchScore else .finite 0
          reasons := reasonsOf options [result.reason] } cache' ?_ ?_
      · simp only [leaf, hleaf, hop, hfield, hres, hresult, herr]
      · exact fun _ he => absurd he List.not_mem_nil

theorem follows_loop {mode : GroupMode} {cs : List JsValue}
    (hcs : ∀ c ∈ cs, Follows (tracedNode rt options facts c) (node rt options facts c)
      (conditionOf c).leaves) (g : Gathered) :
    Follows (tracedLoop rt options facts mode g cs) (groupLoop rt options facts mode g cs)
      (Formula.leavesOf (cs.map conditionOf)) := by
  induction cs generalizing g with
  | nil =>
    intro cache
    exact ⟨_, cache, [], rfl, rfl, ⟨.slnil, fun _ hv => absurd hv List.not_mem_nil⟩⟩
  | cons c cs ih =>
    intro cache
    rw [List.forall_mem_cons] at hcs
    obtain ⟨r, cache', visits, htraced, hrun, hclean⟩ := hcs.1 cache
    cases hgather : gather options mode g r with
    | inl decided =>
      refine ⟨decided, cache', visits, ?_, ?_, hclean.widen⟩
      · simp only [tracedLoop, htraced, hgather]
      · simp only [groupLoop, hrun, hgather]
    | inr g' =>
      obtain ⟨r', cache₂, later, htraced', hrun', hclean'⟩ := ih hcs.2 g' cache'
      refine ⟨r', cache₂, visits ++ later, ?_, ?_, hclean.append hclean'⟩
      · simp only [tracedLoop, htraced, hgather, htraced']
      · simp only [groupLoop, hrun, hgather, hrun']

theorem follows_group {mode : GroupMode} {cs : List JsValue}
    (hcs : ∀ c ∈ cs, Follows (tracedNode rt options facts c) (node rt options facts c)
      (conditionOf c).leaves) :
    Follows (tracedGroup rt options facts mode (.array cs)) (group rt options facts mode (.array cs))
      (Formula.leavesOf (cs.map conditionOf)) := by
  rw [tracedGroup, group]
  split
  · exact fun cache => ⟨_, cache, [], rfl, rfl, ⟨List.nil_sublist _, fun _ hv => absurd hv List.not_mem_nil⟩⟩
  · exact follows_loop hcs {}

theorem follows_node (t : JsValue) {path : String} (h : validateConditionTree path t = []) :
    Follows (tracedNode rt options facts t) (node rt options facts t) (conditionOf t).leaves := by
  refine accepted_induct (motive := fun t => Follows (tracedNode rt options facts t)
    (node rt options facts t) (conditionOf t).leaves) ?_ ?_ ?_ ?_ t h
  · intro fields cs hall ih
    rw [conditionOf_all hall, Formula.leaves]
    simp only [tracedNode, node, tracedGroupAt_eq, groupAt_eq, GroupMode.text, hall, Option.map_some]
    exact follows_group ih
  · intro fields cs hall hany ih
    rw [conditionOf_any hall hany, Formula.leaves]
    simp only [tracedNode, node, tracedGroupAt_eq, groupAt_eq, GroupMode.text, hall, hany,
      Option.map_some, Option.map_none]
    exact follows_group ih
  · intro fields c hall hany hnot ih cache
    obtain ⟨r, cache', visits, htraced, hrun, hclean⟩ := ih cache
    rw [conditionOf_not hall hany hnot, Formula.leaves]
    refine ⟨negated options r, cache', visits, ?_, ?_, hclean⟩
    · simp only [tracedNode, tracedGroupAt_eq, tracedChildAt_eq, GroupMode.text, hall, hany, hnot,
        Option.map_some, Option.map_none, htraced]
    · simp only [node, groupAt_eq, childAt_eq, GroupMode.text, hall, hany, hnot, Option.map_some,
        Option.map_none, hrun]
  · intro fields path hall hany hnot hleaf
    rw [conditionOf_leaf hall hany hnot, Formula.leaves]
    simp only [tracedNode, node, tracedGroupAt_eq, groupAt_eq, tracedChildAt_eq, childAt_eq,
      GroupMode.text, hall, hany, hnot, Option.map_none]
    exact follows_leaf ⟨⟨path, hleaf⟩, hall, hany, hnot⟩

end Follow

/-! ### Trees of the language -/

/-- A tree made of `all`, `any`, `not` and leaves with one operator. -/
inductive ConditionTree : JsValue → Prop
  | group (mode : GroupMode) (children : List JsValue) (h : ∀ c ∈ children, ConditionTree c) :
    ConditionTree (groupNode mode children)
  | not (child : JsValue) (h : ConditionTree child) : ConditionTree (notNode child)
  | leaf (fields : LeafFields) (name op : String) (expected : JsValue) (hname : name ≠ "")
    (hop : op ∈ defaultOperators.map Prod.fst)
    (hfields : fields = [("field", .string name), (op, expected)] ∨
      fields = [(op, expected), ("field", .string name)]) : ConditionTree (.object fields)

theorem default_names {op : String} (h : op ∈ defaultOperators.map Prod.fst) :
    op ∈ operatorNames ∧ op ∉ logicalNames ∧ op ≠ "field" := by
  have hall : (defaultOperators.map Prod.fst).all fun op =>
      operatorNames.contains op && !logicalNames.contains op && op != "field" := by decide
  have hop := List.all_eq_true.mp hall op h
  simpa [and_assoc] using hop

theorem validateLeaf_of_pair {name op : String} {fields : LeafFields} (path : String)
    (hname : name ≠ "") (hop : op ∈ operatorNames)
    (hkeys : operatorKeys fields = [op]) (hfield : fields.lookup "field" = some (.string name)) :
    validateLeaf path fields = [] := by
  simp [validateLeaf, hkeys, hfield, hname, hop]

theorem accepted_of_tree {t : JsValue} (h : ConditionTree t) (path : String) :
    validateConditionTree path t = [] := by
  induction h generalizing path with
  | group mode children _ ih =>
    cases mode with
    | all =>
      have hchildren : validateEach (path ++ "." ++ "all") 0 children = [] := validateEach_eq_nil ih 0
      simpa [groupNode, validateConditionTree, validateGroup, GroupMode.text, validateChildren] using
        hchildren
    | any =>
      have hchildren : validateEach (path ++ "." ++ "any") 0 children = [] := validateEach_eq_nil ih 0
      simpa [groupNode, validateConditionTree, validateGroup, GroupMode.text, validateChildren] using
        hchildren
  | not child _ ih =>
    simpa [notNode, validateConditionTree, validateGroup, validateNot] using ih _
  | leaf fields name op expected hname hop hfields =>
    obtain ⟨hknown, hlogical, hne⟩ := default_names hop
    have hlookup : ∀ k ∈ logicalNames, fields.lookup k = none := by
      intro k hk
      have hop' : op ≠ k := fun he => hlogical (he ▸ hk)
      have hfield : "field" ≠ k := by
        rintro rfl
        revert hk
        decide
      rcases hfields with rfl | rfl <;> simp [lookup_cons, hop', hfield]
    have hkeys : operatorKeys fields = [op] := by
      rcases hfields with rfl | rfl <;> simp [operatorKeys, keysOf, hne]
    have hfield : fields.lookup "field" = some (.string name) := by
      rcases hfields with rfl | rfl <;> simp [lookup_cons, hne]
    rw [validateConditionTree, validateGroup_eq, validateGroup_eq, validateNot_eq,
      hlookup "all" (by decide), hlookup "any" (by decide), hlookup "not" (by decide)]
    exact validateLeaf_of_pair path hname hknown hkeys hfield

/-- Of an accepted tree the evaluation ends with the result it reports, and all its visits are clean; and
the trees of the language are accepted. -/
theorem validator_and_evaluator_agree (rt : Runtime) :
    (∀ (t : JsValue) (options : EvaluateOptions) (facts : JsValue), validateConditionTree "$" t = [] →
      ∃ r cache visits, tracedNode rt options facts t [] = .ok (r, cache, visits) ∧
        evaluateConditions rt options facts t = .ok r ∧ Clean visits (conditionOf t).leaves) ∧
    ∀ t, ConditionTree t → validateConditionTree "$" t = [] := by
  refine ⟨fun t options facts h => ?_, fun t ht => accepted_of_tree ht "$"⟩
  obtain ⟨r, cache, visits, htraced, hrun, hclean⟩ :=
    @follows_node rt options facts t _ h []
  have hobject : t.nullish = false := by
    cases t with
    | undefined => cases h
    | null => cases h
    | _ => rfl
  refine ⟨r, cache, visits, htraced, ?_, hclean⟩
  simp [evaluateConditions, hobject, h, hrun, Except.map]

theorem sampleTree_followed : ∃ r cache visits,
    tracedNode .plain {} (.object sampleFacts) sampleTree [] = .ok (r, cache, visits) ∧
      evaluateConditions .plain {} (.object sampleFacts) sampleTree = .ok r ∧
      Clean visits (conditionOf sampleTree).leaves :=
  (validator_and_evaluator_agree .plain).1 sampleTree {} (.object sampleFacts) (by decide +kernel)

end ElectronicsCart.Rules
