import Mathlib.Data.List.Induction
import Mathlib.Logic.Function.Basic

/-!
# Read-through caches

A store of entries, filled by the reads that miss.  A read brings the value its source
would give; an entry is lost by eviction.  The cache is fail-open: a `get` that fails is
a miss, a `set` that fails leaves the store as it was.
-/

namespace ReadThrough

variable {κ ν ε : Type}

/-- One read: its key, what its source answers, and which of the two calls of the store
fail. -/
structure Access (κ ν ε : Type) where
  key : κ
  source : Except ε ν
  getFails : Bool := false
  setFails : Bool := false

inductive Event (κ ν ε : Type) where
  | access (a : Access κ ν ε)
  | evict (key : κ)

def Access.Fills (a : Access κ ν ε) : Prop := a.setFails = false ∧ ∃ v, a.source = .ok v

/-- Some read of the key was answered and stored, and not evicted since. -/
def Filled (key : κ) (es : List (Event κ ν ε)) : Prop :=
  ∃ before a after, es = before ++ .access a :: after ∧ a.key = key ∧ a.Fills ∧
    Event.evict key ∉ after

theorem filled_nil {key : κ} : ¬ Filled key ([] : List (Event κ ν ε)) := by
  intro ⟨before, a, after, h, _⟩
  simp at h

theorem filled_concat {key : κ} {es : List (Event κ ν ε)} {e : Event κ ν ε} :
    Filled key (es ++ [e]) ↔
      (∃ a, e = .access a ∧ a.key = key ∧ a.Fills) ∨ (Filled key es ∧ e ≠ .evict key) := by
  constructor
  · intro ⟨before, a, after, h, hkey, hfills, hevict⟩
    induction after using List.reverseRecOn with
    | nil =>
      have hlast := List.append_inj_right' h rfl
      simp only [List.cons.injEq, and_true] at hlast
      exact .inl ⟨a, hlast, hkey, hfills⟩
    | append_singleton after last _ =>
      rw [← List.cons_append, ← List.append_assoc] at h
      have hes := List.append_inj_left' h rfl
      have hlast := List.append_inj_right' h rfl
      simp only [List.cons.injEq, and_true] at hlast
      simp only [List.mem_append, List.mem_singleton, not_or] at hevict
      have hne : e ≠ .evict key := fun he => hevict.2 (he ▸ hlast)
      exact .inr ⟨⟨before, a, after, hes, hkey, hfills, hevict.1⟩, hne⟩
  · intro h
    rcases h with ⟨a, rfl, hkey, hfills⟩ | ⟨⟨before, a, after, rfl, hkey, hfills, hevict⟩, hne⟩
    · exact ⟨es, a, [], rfl, hkey, hfills, by simp⟩
    · have hlast : Event.evict key ∉ after ++ [e] := by
        simp only [List.mem_append, List.mem_singleton, not_or]
        exact ⟨hevict, fun he => hne he.symm⟩
      exact ⟨before, a, after ++ [e], by simp, hkey, hfills, hlast⟩

section Store

variable [DecidableEq κ] (back : ν → Option ν)

def hit (store : κ → Option ν) (a : Access κ ν ε) : Option ν :=
  if a.getFails then none else store a.key

/-- A value is read back from the store as `back` gives it. -/
def read (store : κ → Option ν) (a : Access κ ν ε) : Except ε ν × (κ → Option ν) :=
  match hit store a with
  | some v => (.ok v, store)
  | none =>
    match a.source with
    | .error e => (.error e, store)
    | .ok v => (.ok v, if a.setFails then store else Function.update store a.key (back v))

def step (store : κ → Option ν) : Event κ ν ε → (κ → Option ν)
  | .access a => (read back store a).2
  | .evict key => Function.update store key none

def run (store : κ → Option ν) (es : List (Event κ ν ε)) : κ → Option ν :=
  es.foldl (step back) store

/-- What the source of the event's read gives can be read back. -/
def Kept (e : Event κ ν ε) : Prop :=
  ∀ a v, e = .access a → a.source = .ok v → (back v).isSome

variable {back}

theorem read_hit {store : κ → Option ν} {a : Access κ ν ε} {v : ν} (h : hit store a = some v) :
    read back store a = (.ok v, store) := by
  simp [read, h]

theorem read_miss {store : κ → Option ν} {a : Access κ ν ε} (h : hit store a = none) :
    (read back store a).1 = a.source := by
  cases hsource : a.source <;> simp [read, h, hsource]

theorem read_empty {a : Access κ ν ε} : (read back (fun _ => none) a).1 = a.source :=
  read_miss (by simp [hit])

theorem step_isSome {store : κ → Option ν} {e : Event κ ν ε} {key : κ} (hkept : Kept back e) :
    (step back store e key).isSome ↔
      (∃ a, e = .access a ∧ a.key = key ∧ a.Fills) ∨ ((store key).isSome ∧ e ≠ .evict key) := by
  cases e with
  | evict k =>
    by_cases hk : key = k
    · subst hk
      simp [step]
    · have hne : Event.evict k ≠ (.evict key : Event κ ν ε) := by
        simpa using fun h => hk h.symm
      simp [step, Function.update_of_ne hk, hne]
  | access a =>
    have hfills : (∃ b, Event.access a = .access b ∧ b.key = key ∧ b.Fills) ↔
        a.key = key ∧ a.Fills := by simp
    rw [hfills]
    simp only [step, ne_eq, reduceCtorEq, not_false_eq_true, and_true]
    cases hhit : hit store a with
    | some v =>
      rw [read_hit hhit]
      have hentry : (store a.key).isSome := by
        by_cases hget : a.getFails = true <;> simp_all [hit]
      constructor
      · exact .inr
      · intro h
        rcases h with ⟨rfl, _⟩ | h
        · exact hentry
        · exact h
    | none =>
      cases hsource : a.source with
      | error err => simp [read, hhit, hsource, Access.Fills]
      | ok v =>
        have hback : (back v).isSome := hkept a v rfl hsource
        cases hset : a.setFails with
        | true => simp [read, hhit, hsource, hset, Access.Fills]
        | false =>
          by_cases hk : key = a.key
          · subst hk
            simp [read, hhit, hsource, hset, Access.Fills, hback]
          · simp [read, hhit, hsource, hset, Access.Fills, Function.update_of_ne hk,
              show a.key ≠ key from fun h => hk h.symm]

theorem run_isSome {es : List (Event κ ν ε)} {key : κ} (hkept : ∀ e ∈ es, Kept back e) :
    (run back (fun _ => none) es key).isSome ↔ Filled key es := by
  induction es using List.reverseRecOn with
  | nil => simp [run, filled_nil]
  | append_singleton es e ih =>
    have hes : ∀ e ∈ es, Kept back e := fun x hx => hkept x (List.mem_append_left _ hx)
    have he : Kept back e := hkept e (by simp)
    have hrun : run back (fun _ => none) (es ++ [e]) =
        step back (run back (fun _ => none) es) e := by
      simp [run, List.foldl_append]
    rw [hrun, step_isSome he, ih hes, filled_concat]

/-- A read whose source refuses is answered as on the empty store exactly when it finds
no entry. -/
theorem refused_iff {es : List (Event κ ν ε)} {a : Access κ ν ε} {err : ε}
    (hkept : ∀ e ∈ es, Kept back e) (hsource : a.source = .error err) :
    (read back (run back (fun _ => none) es) a).1 = (read back (fun _ => none) a).1 ↔
      a.getFails = true ∨ ¬ Filled a.key es := by
  rw [read_empty, ← run_isSome hkept]
  cases hhit : hit (run back (fun _ => none) es) a with
  | some v =>
    rw [read_hit hhit, hsource]
    have hfound : a.getFails = false ∧ (run back (fun _ => none) es a.key).isSome := by
      by_cases hget : a.getFails = true <;> simp_all [hit]
    simp [hfound.1, hfound.2]
  | none =>
    rw [read_miss hhit]
    by_cases hget : a.getFails = true
    · simp [hget]
    · simp only [hit, hget, Bool.false_eq_true, if_false] at hhit
      simp [hhit]

end Store

end ReadThrough
