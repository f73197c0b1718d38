import Mathlib.Data.List.Basic

/-!
# Formulas over leaves that may fail

A verdict is a truth value or a failure.  A conjunction is evaluated strictly, or lazily up to
its first child that does not hold; a disjunction that has a child which holds forgets failures.
-/

namespace Formulas

/-- `none` is a failure. -/
abbrev Verdict := Option Bool

inductive Formula (α : Type) where
  | leaf (a : α)
  | all (fs : List (Formula α))
  | any (fs : List (Formula α))
  | not (f : Formula α)

mutual

/-- Induction with the hypothesis for every child. -/
@[elab_as_elim]
theorem Formula.induct {α : Type} {motive : Formula α → Prop} (leaf : ∀ a, motive (.leaf a))
    (all : ∀ fs, (∀ f ∈ fs, motive f) → motive (.all fs))
    (any : ∀ fs, (∀ f ∈ fs, motive f) → motive (.any fs))
    (not : ∀ f, motive f → motive (.not f)) : ∀ f, motive f
  | .leaf a => leaf a
  | .all fs => all fs (Formula.inductChildren leaf all any not fs)
  | .any fs => any fs (Formula.inductChildren leaf all any not fs)
  | .not f => not f (Formula.induct leaf all any not f)

theorem Formula.inductChildren {α : Type} {motive : Formula α → Prop} (leaf : ∀ a, motive (.leaf a))
    (all : ∀ fs, (∀ f ∈ fs, motive f) → motive (.all fs))
    (any : ∀ fs, (∀ f ∈ fs, motive f) → motive (.any fs))
    (not : ∀ f, motive f → motive (.not f)) : ∀ fs : List (Formula α), ∀ f ∈ fs, motive f
  | [] => fun _ h => (nomatch h)
  | f :: fs => List.forall_mem_cons.mpr
    ⟨Formula.induct leaf all any not f, Formula.inductChildren leaf all any not fs⟩

end

/-! ### Connectives -/

def conj (vs : List Verdict) : Verdict :=
  if none ∈ vs then none else some (vs.all fun v => v == some true)

/-- The first verdict that is not `true` decides. -/
def lazyConj (vs : List Verdict) : Verdict := (vs.find? (· ≠ some true)).getD (some true)

def disj (vs : List Verdict) : Verdict :=
  if some true ∈ vs then some true else if none ∈ vs then none else some false

section Connectives

variable {vs ws : List Verdict} {b : Bool}

theorem conj_eq_true : conj vs = some true ↔ ∀ v ∈ vs, v = some true := by
  unfold conj
  split
  next h => exact ⟨fun he => (nomatch he), fun hall => (nomatch hall none h)⟩
  next h => simp

theorem conj_eq_false : conj vs = some false ↔ none ∉ vs ∧ some false ∈ vs := by
  unfold conj
  split
  next h => simp [h]
  next h =>
    simp only [Option.some.injEq, List.all_eq_false, beq_iff_eq, h, not_false_eq_true, true_and]
    constructor
    · rintro ⟨v, hv, hne⟩
      match v with
      | none => exact (h hv).elim
      | some true => exact (hne rfl).elim
      | some false => exact hv
    · exact fun hv => ⟨some false, hv, by simp⟩

theorem lazyConj_cons (v : Verdict) :
    lazyConj (v :: vs) = if v = some true then lazyConj vs else v := by
  by_cases hv : v = some true <;> simp [lazyConj, hv]

theorem lazyConj_eq_true : lazyConj vs = some true ↔ ∀ v ∈ vs, v = some true := by
  induction vs with
  | nil => simp [lazyConj]
  | cons v vs ih =>
    rw [lazyConj_cons]
    split <;> simp_all

theorem lazyConj_append (h : ∀ v ∈ vs, v = some true) (v : Verdict) (hv : v ≠ some true) :
    lazyConj (vs ++ v :: ws) = v := by
  induction vs with
  | nil => simp [lazyConj_cons, hv]
  | cons w vs ih =>
    rw [List.forall_mem_cons] at h
    rw [List.cons_append, lazyConj_cons, if_pos h.1]
    exact ih h.2

theorem lazyConj_mem (h : lazyConj vs = some false) : some false ∈ vs := by
  induction vs with
  | nil => simp [lazyConj] at h
  | cons v vs ih =>
    rw [lazyConj_cons] at h
    split at h
    · exact .tail _ (ih h)
    · exact h ▸ .head _

theorem lazyConj_of_conj (h : conj vs = some b) : lazyConj vs = some b := by
  cases b with
  | true => exact lazyConj_eq_true.mpr (conj_eq_true.mp h)
  | false =>
    obtain ⟨hnone, hfalse⟩ := conj_eq_false.mp h
    have hne : lazyConj vs ≠ some true := fun ht => nomatch lazyConj_eq_true.mp ht _ hfalse
    match hv : lazyConj vs with
    | some true => exact (hne hv).elim
    | some false => rfl
    | none =>
      refine (hnone ?_).elim
      rw [lazyConj, Option.getD_eq_iff] at hv
      rcases hv with hv | ⟨-, hv⟩
      · exact List.mem_of_find?_eq_some hv
      · cases hv

theorem conj_some (bs : List Bool) : conj (bs.map some) = some (bs.all id) := by
  have hnone : none ∉ bs.map some := by simp
  rw [conj, if_neg hnone, Option.some.injEq, Bool.eq_iff_iff]
  simp only [List.forall_mem_map, List.all_eq_true, beq_iff_eq, id, Option.some.injEq]

theorem lazyConj_some (bs : List Bool) : lazyConj (bs.map some) = some (bs.all id) :=
  lazyConj_of_conj (conj_some bs)

theorem disj_eq_true : disj vs = some true ↔ some true ∈ vs := by
  unfold disj
  split
  next h => simp [h]
  next h => split <;> simp [h]

theorem disj_eq_false : disj vs = some false ↔ ∀ v ∈ vs, v = some false := by
  unfold disj
  split
  next h => exact ⟨fun he => (nomatch he), fun hall => (nomatch hall _ h)⟩
  next h =>
    split
    next hnone => exact ⟨fun he => (nomatch he), fun hall => (nomatch hall _ hnone)⟩
    next hnone =>
      refine ⟨fun _ v hv => ?_, fun _ => rfl⟩
      match v with
      | none => exact (hnone hv).elim
      | some true => exact (h hv).elim
      | some false => rfl

theorem conj_congr (h : ∀ v, v ∈ vs ↔ v ∈ ws) : conj vs = conj ws := by
  have hall : (vs.all fun v => v == some true) = ws.all fun v => v == some true := by
    rw [Bool.eq_iff_iff]
    simp only [List.all_eq_true, h]
  simp only [conj, h, hall]

theorem disj_congr (h : ∀ v, v ∈ vs ↔ v ∈ ws) : disj vs = disj ws := by
  simp only [disj, h]

end Connectives

/-! ### Values -/

section Values

variable {α : Type}

mutual

def Formula.value (conjunction : List Verdict → Verdict) (v : α → Verdict) : Formula α → Verdict
  | .leaf a => v a
  | .all fs => conjunction (Formula.values conjunction v fs)
  | .any fs => disj (Formula.values conjunction v fs)
  | .not f => (Formula.value conjunction v f).map (!·)

def Formula.values (conjunction : List Verdict → Verdict) (v : α → Verdict) :
    List (Formula α) → List Verdict
  | [] => []
  | f :: fs => Formula.value conjunction v f :: Formula.values conjunction v fs

end

mutual

def Formula.meaning (v : α → Bool) : Formula α → Bool
  | .leaf a => v a
  | .all fs => (Formula.meanings v fs).all id
  | .any fs => (Formula.meanings v fs).any id
  | .not f => !Formula.meaning v f

def Formula.meanings (v : α → Bool) : List (Formula α) → List Bool
  | [] => []
  | f :: fs => Formula.meaning v f :: Formula.meanings v fs

end

mutual

/-- Some order of the children makes the formula hold. -/
def Formula.mayHold (v : α → Verdict) : Formula α → Bool
  | .leaf a => v a == some true
  | .all fs => (Formula.mayHolds v fs).all id
  | .any fs => (Formula.mayHolds v fs).any id
  | .not f => Formula.mayReject v f

def Formula.mayHolds (v : α → Verdict) : List (Formula α) → List Bool
  | [] => []
  | f :: fs => Formula.mayHold v f :: Formula.mayHolds v fs

def Formula.mayReject (v : α → Verdict) : Formula α → Bool
  | .leaf a => v a == some false
  | .all fs => (Formula.mayRejects v fs).any id
  | .any fs => (Formula.mayRejects v fs).all id
  | .not f => Formula.mayHold v f

def Formula.mayRejects (v : α → Verdict) : List (Formula α) → List Bool
  | [] => []
  | f :: fs => Formula.mayReject v f :: Formula.mayRejects v fs

end

mutual

def Formula.leaves : Formula α → List α
  | .leaf a => [a]
  | .all fs => Formula.leavesOf fs
  | .any fs => Formula.leavesOf fs
  | .not f => Formula.leaves f

def Formula.leavesOf : List (Formula α) → List α
  | [] => []
  | f :: fs => Formula.leaves f ++ Formula.leavesOf fs

end

variable {v : α → Verdict} {conjunction : List Verdict → Verdict} {f g : Formula α}
  {fs gs : List (Formula α)}

theorem values_eq : Formula.values conjunction v fs = fs.map (Formula.value conjunction v) := by
  induction fs with
  | nil => rfl
  | cons f fs ih => simp [Formula.values, ih]

theorem mayHolds_eq : Formula.mayHolds v fs = fs.map (Formula.mayHold v) := by
  induction fs with
  | nil => rfl
  | cons f fs ih => simp [Formula.mayHolds, ih]

theorem mayRejects_eq : Formula.mayRejects v fs = fs.map (Formula.mayReject v) := by
  induction fs with
  | nil => rfl
  | cons f fs ih => simp [Formula.mayRejects, ih]

theorem meanings_eq {w : α → Bool} : Formula.meanings w fs = fs.map (Formula.meaning w) := by
  induction fs with
  | nil => rfl
  | cons f fs ih => simp [Formula.meanings, ih]

theorem mem_leavesOf {a : α} : a ∈ Formula.leavesOf fs ↔ ∃ f ∈ fs, a ∈ f.leaves := by
  induction fs with
  | nil => simp [Formula.leavesOf]
  | cons f fs ih => simp [Formula.leavesOf, ih]

theorem value_meaning {w : α → Bool}
    (hconj : ∀ bs : List Bool, conjunction (bs.map some) = some (bs.all id))
    (h : ∀ a ∈ f.leaves, v a = some (w a)) : f.value conjunction v = some (f.meaning w) := by
  have hchildren : ∀ fs : List (Formula α), (∀ f ∈ fs, (∀ a ∈ f.leaves, v a = some (w a)) →
      f.value conjunction v = some (f.meaning w)) → (∀ a ∈ Formula.leavesOf fs, v a = some (w a)) →
      Formula.values conjunction v fs = (Formula.meanings w fs).map some := by
    intro fs ih h
    rw [values_eq, meanings_eq, List.map_map]
    exact List.map_congr_left fun f hf =>
      ih f hf fun a ha => h a (mem_leavesOf.mpr ⟨f, hf, ha⟩)
  induction f using Formula.induct with
  | leaf a => exact h a (by simp [Formula.leaves])
  | all fs ih => rw [Formula.value, hchildren fs ih h, hconj, Formula.meaning]
  | any fs ih =>
    rw [Formula.value, hchildren fs ih h, Formula.meaning]
    cases hany : (Formula.meanings w fs).any id with
    | true =>
      obtain ⟨b, hb, hid⟩ := List.any_eq_true.mp hany
      exact disj_eq_true.mpr (List.mem_map.mpr ⟨b, hb, congrArg some hid⟩)
    | false =>
      refine disj_eq_false.mpr fun u hu => ?_
      obtain ⟨b, hb, rfl⟩ := List.mem_map.mp hu
      exact congrArg some (by simpa using List.any_eq_false.mp hany b hb)
  | not f ih =>
    rw [Formula.value, ih h, Formula.meaning]
    rfl

/-! ### Conjunctions of any number of parts -/

def Formula.conjoin : List (Formula α) → Formula α
  | [f] => f
  | fs => .all fs

def Formula.conjunct (fs : List (Formula α)) : List (Formula α) :=
  if fs = [] then [] else [Formula.conjoin fs]

theorem meaning_conjoin {w : α → Bool} :
    (Formula.conjoin fs).meaning w = fs.all (Formula.meaning w) := by
  unfold Formula.conjoin
  split
  · simp
  · rw [Formula.meaning, meanings_eq, List.all_map]
    rfl

theorem mem_leaves_conjoin {a : α} : a ∈ (Formula.conjoin fs).leaves ↔ ∃ f ∈ fs, a ∈ f.leaves := by
  unfold Formula.conjoin
  split
  · simp
  · exact mem_leavesOf

theorem all_meaning_conjunct {w : α → Bool} :
    (Formula.conjunct fs).all (Formula.meaning w) = fs.all (Formula.meaning w) := by
  unfold Formula.conjunct
  split
  next h => rw [h]
  next => rw [List.all_cons, List.all_nil, Bool.and_true, meaning_conjoin]

theorem mem_leaves_conjunct {a : α} :
    (∃ f ∈ Formula.conjunct fs, a ∈ f.leaves) ↔ ∃ f ∈ fs, a ∈ f.leaves := by
  unfold Formula.conjunct
  split
  next h => rw [h]
  next => simpa using mem_leaves_conjoin

/-! ### The order of the children -/

/-- The children of any conjunction or disjunction stand in another order. -/
inductive Reordered : Formula α → Formula α → Prop
  | refl (f : Formula α) : Reordered f f
  | trans {f g h : Formula α} : Reordered f g → Reordered g h → Reordered f h
  | all {fs gs : List (Formula α)} : fs.Perm gs → Reordered (.all fs) (.all gs)
  | any {fs gs : List (Formula α)} : fs.Perm gs → Reordered (.any fs) (.any gs)
  | allChild {f g : Formula α} (l r : List (Formula α)) :
      Reordered f g → Reordered (.all (l ++ f :: r)) (.all (l ++ g :: r))
  | anyChild {f g : Formula α} (l r : List (Formula α)) :
      Reordered f g → Reordered (.any (l ++ f :: r)) (.any (l ++ g :: r))
  | not {f g : Formula α} : Reordered f g → Reordered (.not f) (.not g)

theorem Reordered.strict (h : Reordered f g) : f.value conj v = g.value conj v := by
  induction h with
  | refl => rfl
  | trans _ _ ih ih' => exact ih.trans ih'
  | all hp =>
    simp only [Formula.value, values_eq]
    exact conj_congr fun u => (hp.map _).mem_iff
  | any hp =>
    simp only [Formula.value, values_eq]
    exact disj_congr fun u => (hp.map _).mem_iff
  | allChild l r _ ih => simp only [Formula.value, values_eq, List.map_append, List.map_cons, ih]
  | anyChild l r _ ih => simp only [Formula.value, values_eq, List.map_append, List.map_cons, ih]
  | not _ ih => simp only [Formula.value, ih]

theorem Reordered.leaves (h : Reordered f g) (a : α) : a ∈ f.leaves ↔ a ∈ g.leaves := by
  induction h with
  | refl => rfl
  | trans _ _ ih ih' => exact ih.trans ih'
  | all hp => simp only [Formula.leaves, mem_leavesOf, hp.mem_iff]
  | any hp => simp only [Formula.leaves, mem_leavesOf, hp.mem_iff]
  | allChild l r _ ih => simp [Formula.leaves, mem_leavesOf, or_and_right, exists_or, ih]
  | anyChild l r _ ih => simp [Formula.leaves, mem_leavesOf, or_and_right, exists_or, ih]
  | not _ ih => simpa only [Formula.leaves] using ih

theorem Reordered.may (h : Reordered f g) :
    f.mayHold v = g.mayHold v ∧ f.mayReject v = g.mayReject v := by
  induction h with
  | refl => exact ⟨rfl, rfl⟩
  | trans _ _ ih ih' => exact ⟨ih.1.trans ih'.1, ih.2.trans ih'.2⟩
  | all hp =>
    simp only [Formula.mayHold, Formula.mayReject, mayHolds_eq, mayRejects_eq]
    exact ⟨(hp.map _).all_eq, (hp.map _).any_eq⟩
  | any hp =>
    simp only [Formula.mayHold, Formula.mayReject, mayHolds_eq, mayRejects_eq]
    exact ⟨(hp.map _).any_eq, (hp.map _).all_eq⟩
  | allChild l r _ ih =>
    simp only [Formula.mayHold, Formula.mayReject, mayHolds_eq, mayRejects_eq, List.map_append,
      List.map_cons, ih.1, ih.2, and_self]
  | anyChild l r _ ih =>
    simp only [Formula.mayHold, Formula.mayReject, mayHolds_eq, mayRejects_eq, List.map_append,
      List.map_cons, ih.1, ih.2, and_self]
  | not _ ih => exact ⟨ih.2, ih.1⟩

theorem values_lazy (h : ∀ f ∈ fs, ∀ b, f.value conj v = some b → f.value lazyConj v = some b)
    (hnone : none ∉ Formula.values conj v fs) :
    Formula.values lazyConj v fs = Formula.values conj v fs := by
  rw [values_eq, values_eq] at *
  refine List.map_congr_left fun f hf => ?_
  match hv : f.value conj v with
  | none => exact (hnone (hv ▸ List.mem_map_of_mem hf)).elim
  | some b => exact h f hf b hv

theorem lazy_of_strict (f : Formula α) :
    ∀ b, f.value conj v = some b → f.value lazyConj v = some b := by
  induction f using Formula.induct with
  | leaf => exact fun _ h => h
  | all fs ih =>
    intro b h
    rw [Formula.value] at h ⊢
    have hnone : none ∉ Formula.values conj v fs := by
      cases b with
      | true => exact fun hn => nomatch conj_eq_true.mp h none hn
      | false => exact (conj_eq_false.mp h).1
    rw [values_lazy ih hnone]
    exact lazyConj_of_conj h
  | any fs ih =>
    intro b h
    rw [Formula.value] at h ⊢
    cases b with
    | true =>
      rw [disj_eq_true, values_eq, List.mem_map] at *
      obtain ⟨f, hf, hv⟩ := h
      exact ⟨f, hf, ih f hf true hv⟩
    | false =>
      rw [values_lazy ih fun hn => nomatch disj_eq_false.mp h none hn]
      exact h
  | not f ih =>
    intro b h
    obtain ⟨c, hc, hb⟩ := Option.map_eq_some_iff.mp h
    rw [Formula.value, ih c hc, ← hb]
    rfl

theorem may_of_lazy (f : Formula α) :
    (f.value lazyConj v = some true → f.mayHold v = true) ∧
      (f.value lazyConj v = some false → f.mayReject v = true) := by
  induction f using Formula.induct with
  | leaf a => simp [Formula.value, Formula.mayHold, Formula.mayReject]
  | all fs ih =>
    simp only [Formula.value, Formula.mayHold, Formula.mayReject, values_eq, mayHolds_eq,
      mayRejects_eq, List.all_map, List.any_map, List.all_eq_true, List.any_eq_true]
    refine ⟨fun h f hf => ?_, fun h => ?_⟩
    · exact (ih f hf).1 (lazyConj_eq_true.mp h _ (List.mem_map_of_mem hf))
    · obtain ⟨f, hf, hv⟩ := List.mem_map.mp (lazyConj_mem h)
      exact ⟨f, hf, (ih f hf).2 hv⟩
  | any fs ih =>
    simp only [Formula.value, Formula.mayHold, Formula.mayReject, values_eq, mayHolds_eq,
      mayRejects_eq, List.all_map, List.any_map, List.all_eq_true, List.any_eq_true]
    refine ⟨fun h => ?_, fun h f hf => ?_⟩
    · obtain ⟨f, hf, hv⟩ := List.mem_map.mp (disj_eq_true.mp h)
      exact ⟨f, hf, (ih f hf).1 hv⟩
    · exact (ih f hf).2 (disj_eq_false.mp h _ (List.mem_map_of_mem hf))
  | not f ih =>
    obtain ⟨htrue, hfalse⟩ := ih
    simp only [Formula.value, Formula.mayHold, Formula.mayReject, Option.map_eq_some_iff]
    refine ⟨?_, ?_⟩
    · rintro ⟨b, hb, hnot⟩
      obtain rfl : b = false := by simpa using hnot
      exact hfalse hb
    · rintro ⟨b, hb, hnot⟩
      obtain rfl : b = true := by simpa using hnot
      exact htrue hb

theorem Reordered.children {P : Formula α → Prop} (node : List (Formula α) → Formula α)
    (hchild : ∀ {f g : Formula α} (l r), Reordered f g →
      Reordered (node (l ++ f :: r)) (node (l ++ g :: r)))
    (h : ∀ f ∈ fs, ∃ g, Reordered f g ∧ P g) :
    ∃ gs, Reordered (node fs) (node gs) ∧ ∀ g ∈ gs, P g := by
  suffices haux : ∀ l, ∃ gs, Reordered (node (l ++ fs)) (node (l ++ gs)) ∧ ∀ g ∈ gs, P g by
    simpa using haux []
  induction fs with
  | nil => exact fun l => ⟨[], .refl _, fun _ hg => (nomatch hg)⟩
  | cons f fs ih =>
    intro l
    rw [List.forall_mem_cons] at h
    obtain ⟨g, hfg, hg⟩ := h.1
    obtain ⟨gs, hrest, hgs⟩ := ih h.2 (l ++ [g])
    refine ⟨g :: gs, (hchild l fs hfg).trans ?_, List.forall_mem_cons.mpr ⟨hg, hgs⟩⟩
    simpa using hrest

theorem lazy_of_may (f : Formula α) :
    (f.mayHold v = true → ∃ g, Reordered f g ∧ g.value lazyConj v = some true) ∧
      (f.mayReject v = true → ∃ g, Reordered f g ∧ g.value lazyConj v = some false) := by
  induction f using Formula.induct with
  | leaf a =>
    simp only [Formula.mayHold, Formula.mayReject, beq_iff_eq]
    exact ⟨fun h => ⟨_, .refl _, h⟩, fun h => ⟨_, .refl _, h⟩⟩
  | all fs ih =>
    simp only [Formula.mayHold, Formula.mayReject, mayHolds_eq, mayRejects_eq, List.all_map,
      List.any_map, List.all_eq_true, List.any_eq_true]
    refine ⟨fun h => ?_, ?_⟩
    · obtain ⟨gs, hre, hgs⟩ := Reordered.children .all .allChild fun f hf => (ih f hf).1 (h f hf)
      refine ⟨_, hre, ?_⟩
      rw [Formula.value, values_eq, lazyConj_eq_true]
      exact List.forall_mem_map.mpr hgs
    · rintro ⟨f, hf, hmay⟩
      obtain ⟨g, hfg, hg⟩ := (ih f hf).2 hmay
      -- the child that can be false is put first
      obtain ⟨l, r, rfl⟩ := List.append_of_mem hf
      refine ⟨_, (Reordered.allChild l r hfg).trans (.all List.perm_middle), ?_⟩
      rw [Formula.value, Formula.values, lazyConj_cons, hg]
      rfl
  | any fs ih =>
    simp only [Formula.mayHold, Formula.mayReject, mayHolds_eq, mayRejects_eq, List.all_map,
      List.any_map, List.all_eq_true, List.any_eq_true]
    refine ⟨?_, fun h => ?_⟩
    · rintro ⟨f, hf, hmay⟩
      obtain ⟨g, hfg, hg⟩ := (ih f hf).1 hmay
      obtain ⟨l, r, rfl⟩ := List.append_of_mem hf
      refine ⟨_, .anyChild l r hfg, ?_⟩
      rw [Formula.value, values_eq, disj_eq_true]
      exact List.mem_map.mpr ⟨g, by simp, hg⟩
    · obtain ⟨gs, hre, hgs⟩ := Reordered.children .any .anyChild fun f hf => (ih f hf).2 (h f hf)
      refine ⟨_, hre, ?_⟩
      rw [Formula.value, values_eq, disj_eq_false]
      exact List.forall_mem_map.mpr hgs
  | not f ih =>
    obtain ⟨htrue, hfalse⟩ := ih
    refine ⟨fun h => ?_, fun h => ?_⟩
    · obtain ⟨g, hfg, hg⟩ := hfalse h
      exact ⟨_, .not hfg, by rw [Formula.value, hg]; rfl⟩
    · obtain ⟨g, hfg, hg⟩ := htrue h
      exact ⟨_, .not hfg, by rw [Formula.value, hg]; rfl⟩

/-- Lazy and strict evaluation agree on whether the formula holds, in every order of its
children, exactly if it does not fail strictly or holds lazily in no order. -/
theorem lazy_agrees_iff :
    (∀ g, Reordered f g → (g.value lazyConj v = some true ↔ f.value conj v = some true)) ↔
      f.value conj v ≠ none ∨ f.mayHold v = false := by
  constructor
  · intro h
    rw [or_iff_not_imp_left, not_not]
    intro hfails
    by_contra hmay
    obtain ⟨g, hfg, hg⟩ := (lazy_of_may f).1 (by simpa using hmay)
    rw [h g hfg, hfails] at hg
    cases hg
  · intro h g hfg
    match hf : f.value conj v with
    | some b => rw [lazy_of_strict g b (hfg.strict.symm.trans hf)]
    | none =>
      have hmay := h.resolve_left fun hne => hne hf
      rw [hfg.may.1] at hmay
      refine ⟨fun hg => ?_, fun he => nomatch he⟩
      rw [(may_of_lazy g).1 hg] at hmay
      cases hmay

end Values

end Formulas
