import Mathlib.Algebra.BigOperators.Group.List.Basic
import Mathlib.Algebra.Group.Int.Defs
import Mathlib.Data.List.Nodup
import Mathlib.Data.List.Sort
import Mathlib.Tactic.Abel
import Mathlib.Tactic.Common

/-!
# Tables with a primary key

The rows of a table in the order they were inserted.  Keys are drawn from a
counter, so no two rows share one; both facts are fields of the structure.
-/

namespace Relational

class Keyed (ρ : Type) where
  key : ρ → ℕ

export Keyed (key)

structure Table (ρ : Type) [Keyed ρ] where
  rows : List ρ
  next : ℕ
  nodup : (rows.map key).Nodup
  fresh : ∀ r ∈ rows, key r < next

namespace Table

variable {ρ M : Type} [Keyed ρ] {T : Table ρ} {r r' : ρ} {k : ℕ}

def empty : Table ρ := ⟨[], 0, by simp, by simp⟩

instance : Inhabited (Table ρ) := ⟨empty⟩

def find? (T : Table ρ) (k : ℕ) : Option ρ := T.rows.find? fun r => key r == k

/-- The first row that satisfies `p`. -/
def first? (T : Table ρ) (p : ρ → Bool) : Option ρ := T.rows.find? p

/-- Inserts `mk n` at a fresh key `n`. -/
def insert (T : Table ρ) (mk : ℕ → ρ) (hmk : ∀ n, key (mk n) = n := by intros; rfl) : Table ρ where
  rows := T.rows ++ [mk T.next]
  next := T.next + 1
  nodup := by
    rw [List.map_append, List.nodup_append]
    refine ⟨T.nodup, by simp, ?_⟩
    intro a ha b hb
    obtain ⟨r, hr, rfl⟩ := List.mem_map.mp ha
    have hlt := T.fresh r hr
    simp only [List.map_cons, List.map_nil, List.mem_singleton, hmk] at hb
    omega
  fresh := by
    intro r hr
    rcases List.mem_append.mp hr with h | h
    · exact Nat.lt_succ_of_lt (T.fresh r h)
    · rw [List.mem_singleton.mp h, hmk]
      exact Nat.lt_succ_self _

/-- Rewrites every row that satisfies `p`. -/
def updateWhere (T : Table ρ) (p : ρ → Bool) (g : ρ → ρ)
    (hg : ∀ r, key (g r) = key r := by intros; rfl) : Table ρ where
  rows := T.rows.map fun r => if p r then g r else r
  next := T.next
  nodup := by
    have h : (T.rows.map fun r => if p r then g r else r).map key = T.rows.map key := by
      rw [List.map_map]
      refine List.map_congr_left fun r _ => ?_
      by_cases hp : p r <;> simp [hp, hg]
    rw [h]
    exact T.nodup
  fresh := by
    intro r hr
    obtain ⟨a, ha, rfl⟩ := List.mem_map.mp hr
    by_cases hp : p a
    · simpa [hp, hg] using T.fresh a ha
    · simpa [hp] using T.fresh a ha

/-- Rewrites the row with the given key. -/
def update (T : Table ρ) (k : ℕ) (g : ρ → ρ)
    (hg : ∀ r, key (g r) = key r := by intros; rfl) : Table ρ :=
  T.updateWhere (fun r => key r == k) g hg

def mapRows (T : Table ρ) (g : ρ → ρ) (hg : ∀ r, key (g r) = key r := by intros; rfl) : Table ρ :=
  T.updateWhere (fun _ => true) g hg

/-- The sum of `f` over the rows that satisfy `p`. -/
def total [AddCommMonoid M] (T : Table ρ) (p : ρ → Bool) (f : ρ → M) : M :=
  (T.rows.map fun r => if p r then f r else 0).sum

@[ext] theorem ext {T T' : Table ρ} (hrows : T.rows = T'.rows) (hnext : T.next = T'.next) : T = T' := by
  cases T
  cases T'
  cases hrows
  cases hnext
  rfl

/-! ### Lookup -/

theorem find?_mem (h : T.find? k = some r) : r ∈ T.rows ∧ key r = k := by
  refine ⟨List.mem_of_find?_eq_some h, ?_⟩
  have := List.find?_some h
  simpa using this

theorem first?_mem {p : ρ → Bool} (h : T.first? p = some r) : r ∈ T.rows ∧ p r = true :=
  ⟨List.mem_of_find?_eq_some h, List.find?_some h⟩

theorem eq_of_key_eq (hr : r ∈ T.rows) (hr' : r' ∈ T.rows) (h : key r = key r') : r = r' :=
  List.inj_on_of_nodup_map T.nodup hr hr' h

theorem find?_eq_some_iff : T.find? k = some r ↔ r ∈ T.rows ∧ key r = k := by
  refine ⟨find?_mem, ?_⟩
  rintro ⟨hr, rfl⟩
  have hsome : (T.find? (key r)).isSome := by
    rw [find?, List.find?_isSome]
    exact ⟨r, hr, by simp⟩
  obtain ⟨r', h'⟩ := Option.isSome_iff_exists.mp hsome
  obtain ⟨hm, hk⟩ := find?_mem h'
  rw [h', eq_of_key_eq hm hr hk]

theorem eq_of_find?_eq (h : T.find? k = some r) (hr' : r' ∈ T.rows) (hk : key r' = k) : r' = r :=
  eq_of_key_eq hr' (find?_mem h).1 (hk.trans (find?_mem h).2.symm)

theorem find?_eq_none_iff : T.find? k = none ↔ ∀ r ∈ T.rows, key r ≠ k := by
  simp [find?]

/-! ### Writes -/

@[simp] theorem mem_insert {mk : ℕ → ρ} (hmk : ∀ n, key (mk n) = n) :
    r ∈ (T.insert mk hmk).rows ↔ r ∈ T.rows ∨ r = mk T.next := by
  simp [insert]

/-- At most one row has a property before and after an insertion, if no other row than the new one
can have it. -/
theorem insert_single {mk : ℕ → ρ} (hmk : ∀ n, key (mk n) = n) {q : ρ → Prop}
    (hold : ∀ r ∈ T.rows, ∀ r' ∈ T.rows, q r → q r' → key r = key r')
    (hnew : ∀ r ∈ T.rows, q r → ¬ q (mk T.next)) :
    ∀ r ∈ (T.insert mk hmk).rows, ∀ r' ∈ (T.insert mk hmk).rows, q r → q r' → key r = key r' := by
  intro r hr r' hr' hq hq'
  rcases (mem_insert hmk).mp hr with hr | rfl
  · rcases (mem_insert hmk).mp hr' with hr' | rfl
    · exact hold r hr r' hr' hq hq'
    · exact absurd hq' (hnew r hr hq)
  · rcases (mem_insert hmk).mp hr' with hr' | rfl
    · exact absurd hq (hnew r' hr' hq')
    · rfl

@[simp] theorem mem_updateWhere {p : ρ → Bool} {g : ρ → ρ} (hg : ∀ r, key (g r) = key r) :
    r ∈ (T.updateWhere p g hg).rows ↔ ∃ a ∈ T.rows, (if p a then g a else a) = r := by
  simp [updateWhere]

@[simp] theorem mem_update {g : ρ → ρ} (hg : ∀ r, key (g r) = key r) :
    r ∈ (T.update k g hg).rows ↔ ∃ a ∈ T.rows, (if key a = k then g a else a) = r := by
  simp [update]

theorem forall_update {q : ρ → Prop} {g : ρ → ρ} (hg : ∀ r, key (g r) = key r)
    (hnew : ∀ a ∈ T.rows, key a = k → q (g a)) (hkept : ∀ a ∈ T.rows, key a ≠ k → q a) :
    ∀ r ∈ (T.update k g hg).rows, q r := by
  intro r hr
  obtain ⟨a, ha, rfl⟩ := (mem_update hg).mp hr
  split
  next hk => exact hnew a ha hk
  next hk => exact hkept a ha hk

theorem mem_update_of_not {q : ρ → Prop} {g : ρ → ρ} (hg : ∀ r, key (g r) = key r)
    (hk : ∀ a ∈ T.rows, key a = k → q a ∧ q (g a)) (hr : ¬ q r) :
    r ∈ (T.update k g hg).rows ↔ r ∈ T.rows := by
  rw [mem_update hg]
  constructor
  · rintro ⟨a, ha, rfl⟩
    by_cases hkey : key a = k
    · rw [if_pos hkey] at hr
      exact absurd (hk a ha hkey).2 hr
    · rwa [if_neg hkey]
  · intro hmem
    refine ⟨r, hmem, if_neg fun hkey => ?_⟩
    exact hr (hk r hmem hkey).1

theorem rows_update {g : ρ → ρ} (hg : ∀ r, key (g r) = key r) :
    (T.update k g hg).rows = T.rows.map fun r => if key r = k then g r else r := by
  simp [update, updateWhere]

@[simp] theorem next_update {g : ρ → ρ} (hg : ∀ r, key (g r) = key r) :
    (T.update k g hg).next = T.next := rfl

@[simp] theorem next_insert {mk : ℕ → ρ} (hmk : ∀ n, key (mk n) = n) :
    (T.insert mk hmk).next = T.next + 1 := rfl

theorem find?_update {g : ρ → ρ} (hg : ∀ r, key (g r) = key r) {j : ℕ} :
    (T.update k g hg).find? j = (T.find? j).map fun a => if key a = k then g a else a := by
  cases h : T.find? j with
  | none =>
    rw [find?_eq_none_iff] at h
    simp only [Option.map_none]
    rw [find?_eq_none_iff]
    intro r hr
    obtain ⟨a, ha, rfl⟩ := (mem_update hg).mp hr
    split
    · rw [hg]
      exact h a ha
    · exact h a ha
  | some a =>
    obtain ⟨ha, hk⟩ := find?_mem h
    simp only [Option.map_some]
    rw [find?_eq_some_iff]
    refine ⟨(mem_update hg).mpr ⟨a, ha, rfl⟩, ?_⟩
    split
    · rw [hg, hk]
    · exact hk

theorem find?_update_self {g : ρ → ρ} (hg : ∀ r, key (g r) = key r) (h : T.find? k = some r) :
    (T.update k g hg).find? k = some (g r) := by
  rw [find?_update hg, h, Option.map_some, if_pos (find?_mem h).2]

theorem find?_update_ne {g : ρ → ρ} (hg : ∀ r, key (g r) = key r) {j : ℕ} (hj : j ≠ k) :
    (T.update k g hg).find? j = T.find? j := by
  rw [find?_update hg]
  cases h : T.find? j with
  | none => rfl
  | some a =>
    have hk : key a ≠ k := by rwa [(find?_mem h).2]
    rw [Option.map_some, if_neg hk]

theorem filter_find?_update {p : ρ → Bool} {g : ρ → ρ} (hg : ∀ r, key (g r) = key r)
    (hp : ∀ r, p (g r) = p r) :
    ((T.update k g hg).find? k).filter p = ((T.find? k).filter p).map g := by
  cases h : T.find? k with
  | none => simp [find?_update hg, h]
  | some r =>
    rw [find?_update_self hg h, Option.filter_some, Option.filter_some, hp]
    split <;> rfl

@[simp] theorem rows_mapRows {g : ρ → ρ} (hg : ∀ r, key (g r) = key r) :
    (T.mapRows g hg).rows = T.rows.map g := by
  simp [mapRows, updateWhere]

@[simp] theorem next_mapRows {g : ρ → ρ} (hg : ∀ r, key (g r) = key r) :
    (T.mapRows g hg).next = T.next := rfl

theorem find?_mapRows {g : ρ → ρ} (hg : ∀ r, key (g r) = key r) {j : ℕ} :
    (T.mapRows g hg).find? j = (T.find? j).map g := by
  simp only [find?, rows_mapRows, List.find?_map, Function.comp_def, hg]

theorem find?_insert_next {mk : ℕ → ρ} (hmk : ∀ n, key (mk n) = n) :
    (T.insert mk hmk).find? T.next = some (mk T.next) := by
  rw [find?_eq_some_iff]
  exact ⟨(mem_insert hmk).mpr (.inr rfl), hmk _⟩

theorem find?_insert_of_some {mk : ℕ → ρ} (hmk : ∀ n, key (mk n) = n) (h : T.find? k = some r) :
    (T.insert mk hmk).find? k = some r := by
  rw [find?_eq_some_iff] at h ⊢
  exact ⟨(mem_insert hmk).mpr (.inl h.1), h.2⟩

theorem find?_insert {mk : ℕ → ρ} (hmk : ∀ n, key (mk n) = n) :
    (T.insert mk hmk).find? k = if k = T.next then some (mk T.next) else T.find? k := by
  split
  next hk => rw [hk, find?_insert_next]
  next hk =>
    cases h : T.find? k with
    | some r => exact find?_insert_of_some hmk h
    | none =>
      rw [find?_eq_none_iff] at h ⊢
      intro r hr
      rcases (mem_insert hmk).mp hr with hr | rfl
      · exact h r hr
      · rw [hmk]
        exact Ne.symm hk

theorem first?_update {p : ρ → Bool} {g : ρ → ρ} (hg : ∀ r, key (g r) = key r)
    (hp : ∀ r, p (g r) = p r) :
    (T.update k g hg).first? p = (T.first? p).map fun a => if key a = k then g a else a := by
  have hsame : (p ∘ fun a => if key a = k then g a else a) = p := by
    funext a
    rw [Function.comp_apply]
    split
    · exact hp a
    · rfl
  rw [first?, first?, rows_update hg, List.find?_map, hsame]

theorem first?_insert {p : ρ → Bool} {mk : ℕ → ρ} {hmk : ∀ n, key (mk n) = n} :
    (T.insert mk hmk).first? p =
      (T.first? p).or (if p (mk T.next) then some (mk T.next) else none) := by
  simp only [first?, insert, List.find?_append, List.find?_singleton]

/-! ### Ordered queries -/

theorem orderedInsert_concat {α : Type} {r : α → α → Prop} [DecidableRel r] {a b : α} (h : r a b)
    (l : List α) : (l ++ [b]).orderedInsert r a = l.orderedInsert r a ++ [b] := by
  induction l with
  | nil => simp [h]
  | cons c l ih =>
    simp only [List.cons_append, List.orderedInsert_cons, ih]
    split <;> rfl

theorem insertionSort_concat {α : Type} {r : α → α → Prop} [DecidableRel r] {b : α} {l : List α}
    (h : ∀ a ∈ l, r a b) : (l ++ [b]).insertionSort r = l.insertionSort r ++ [b] := by
  induction l with
  | nil => rfl
  | cons a l ih =>
    have hrest := ih fun c hc => h c (List.mem_cons_of_mem a hc)
    simp only [List.cons_append, List.insertionSort_cons, hrest]
    exact orderedInsert_concat (h a List.mem_cons_self) _

theorem exists_rank {rs rs' : List ρ} (hnd : (rs.map key).Nodup) (h : rs'.Perm rs) :
    ∃ rank : ℕ → ℕ, rs.insertionSort (fun a b => rank (key a) ≤ rank (key b)) = rs' := by
  have hnd' : (rs'.map key).Nodup := (h.map key).nodup_iff.mpr hnd
  let rank : ℕ → ℕ := fun k => (rs'.map key).idxOf k
  have hrank : ∀ (n : ℕ) (hn : n < rs'.length), rank (key rs'[n]) = n := by
    intro n hn
    have hn' : n < (rs'.map key).length := by simpa using hn
    have hkey : key rs'[n] = (rs'.map key)[n] := by simp
    simp only [rank, hkey]
    exact hnd'.idxOf_getElem n hn'
  have hordered : rs'.Pairwise fun a b => rank (key a) ≤ rank (key b) := by
    rw [List.pairwise_iff_getElem]
    intro i j hi hj hij
    rw [hrank i hi, hrank j hj]
    exact Nat.le_of_lt hij
  have hsorted := List.perm_insertionSort (fun a b : ρ => rank (key a) ≤ rank (key b)) rs
  refine ⟨rank, List.Perm.eq_of_pairwise ?_ ?_ hordered (hsorted.trans h.symm)⟩
  · intro a b ha hb hab hba
    obtain ⟨i, hi, rfl⟩ := List.getElem_of_mem (h.mem_iff.mpr (hsorted.mem_iff.mp ha))
    obtain ⟨j, hj, rfl⟩ := List.getElem_of_mem hb
    rw [hrank i hi, hrank j hj] at hab hba
    obtain rfl : i = j := Nat.le_antisymm hab hba
    rfl
  · have htotal : Std.Total fun a b : ρ => rank (key a) ≤ rank (key b) := ⟨fun a b => Nat.le_total _ _⟩
    have htrans : IsTrans ρ fun a b => rank (key a) ≤ rank (key b) := ⟨fun a b c => Nat.le_trans⟩
    exact List.pairwise_insertionSort _ rs

theorem sorted_insert {p : ρ → Bool} {r : ρ → ρ → Prop} [DecidableRel r] {mk : ℕ → ρ}
    (hmk : ∀ n, key (mk n) = n)
    (hlast : p (mk T.next) = true → ∀ a ∈ T.rows, p a = true → r a (mk T.next)) :
    ((T.insert mk hmk).rows.filter p).insertionSort r =
      (T.rows.filter p).insertionSort r ++ if p (mk T.next) = true then [mk T.next] else [] := by
  have hrows : (T.insert mk hmk).rows.filter p =
      T.rows.filter p ++ if p (mk T.next) = true then [mk T.next] else [] := by
    simp [insert, List.filter_append, List.filter_singleton]
  rw [hrows]
  split
  next hpick =>
    refine insertionSort_concat fun a ha => ?_
    exact hlast hpick a (List.mem_of_mem_filter ha) (List.of_mem_filter ha)
  next => simp

/-! ### Totals -/

variable [AddCommMonoid M] {p : ρ → Bool} {f : ρ → M}

@[simp] theorem total_insert {mk : ℕ → ρ} (hmk : ∀ n, key (mk n) = n) :
    (T.insert mk hmk).total p f = T.total p f + if p (mk T.next) then f (mk T.next) else 0 := by
  simp [total, insert]

theorem total_updateWhere_of_eq {q : ρ → Bool} {g : ρ → ρ} (hg : ∀ r, key (g r) = key r)
    (h : ∀ a ∈ T.rows, q a = true →
      (if p (g a) then f (g a) else 0) = if p a then f a else 0) :
    (T.updateWhere q g hg).total p f = T.total p f := by
  simp only [total, updateWhere, List.map_map]
  congr 1
  refine List.map_congr_left fun a ha => ?_
  by_cases hq : q a = true
  · simpa [hq] using h a ha hq
  · simp [hq]

theorem sum_map_update_of_notMem {rows : List ρ} {g : ρ → ρ} (h : ∀ a ∈ rows, key a ≠ k) :
    (rows.map fun a => if p (if key a = k then g a else a)
      then f (if key a = k then g a else a) else 0) = rows.map fun a => if p a then f a else 0 := by
  refine List.map_congr_left fun a ha => ?_
  simp [h a ha]

theorem total_update {g : ρ → ρ} (hg : ∀ r, key (g r) = key r) (h : T.find? k = some r) :
    (T.update k g hg).total p f + (if p r then f r else 0) =
      T.total p f + if p (g r) then f (g r) else 0 := by
  obtain ⟨hr, hk⟩ := find?_mem h
  obtain ⟨xs, ys, hxy⟩ := List.append_of_mem hr
  have hnd := T.nodup
  rw [hxy, List.map_append, List.map_cons, List.nodup_append] at hnd
  obtain ⟨-, hys, hdis⟩ := hnd
  have hx : ∀ a ∈ xs, key a ≠ k := by
    intro a ha hak
    exact hdis _ (List.mem_map_of_mem ha) _ (List.mem_cons_self ..) (hak.trans hk.symm)
  have hy : ∀ a ∈ ys, key a ≠ k := by
    intro a ha hak
    rw [List.nodup_cons] at hys
    exact hys.1 (hk.trans hak.symm ▸ List.mem_map_of_mem ha)
  simp only [total, update, updateWhere, List.map_map, Function.comp_def, beq_iff_eq, hxy,
    List.map_append, List.map_cons, List.sum_append, List.sum_cons, hk, if_true]
  rw [sum_map_update_of_notMem hx, sum_map_update_of_notMem hy]
  abel

theorem total_mapRows {g : ρ → ρ} (hg : ∀ r, key (g r) = key r) (hp : ∀ r, p (g r) = p r) :
    (T.mapRows g hg).total p f = T.total p fun r => f (g r) := by
  simp only [total, rows_mapRows, List.map_map, Function.comp_def, hp]

theorem total_add {f g : ρ → M} : T.total p (fun r => f r + g r) = T.total p f + T.total p g := by
  rw [total, total, total, ← List.sum_map_add]
  congr 1
  refine List.map_congr_left fun r _ => ?_
  by_cases hp : p r <;> simp [hp]

theorem total_single {m : M} (h : T.find? k = some r) (hp : p r = true) :
    T.total p (fun a => if key a = k then m else 0) = m := by
  have hnew : (T.total p fun a => if key a = k then m else 0) =
      T.total (fun a => key a == k) fun a => if p a then m else 0 := by
    rw [total, total]
    congr 1
    refine List.map_congr_left fun a _ => ?_
    by_cases ha : key a = k <;> by_cases hpa : p a <;> simp [ha, hpa]
  obtain ⟨hr, hk⟩ := find?_mem h
  obtain ⟨xs, ys, hxy⟩ := List.append_of_mem hr
  have hother : ∀ a ∈ T.rows, a ≠ r → key a ≠ k := by
    intro a ha hne hak
    exact hne (eq_of_key_eq ha hr (hak.trans hk.symm))
  have hnd := T.nodup.of_map
  rw [hxy, List.nodup_middle, List.nodup_cons, List.mem_append, not_or] at hnd
  have hzero : ∀ l : List ρ, (∀ a ∈ l, a ∈ T.rows ∧ a ≠ r) →
      (l.map fun a => if key a == k then (if p a then m else 0) else 0).sum = 0 := by
    intro l hl
    refine List.sum_eq_zero ?_
    intro x hx
    obtain ⟨a, ha, rfl⟩ := List.mem_map.mp hx
    simp [hother a (hl a ha).1 (hl a ha).2]
  have hx := hzero xs fun a ha => ⟨hxy ▸ by simp [ha], fun e => hnd.1.1 (e ▸ ha)⟩
  have hy := hzero ys fun a ha => ⟨hxy ▸ by simp [ha], fun e => hnd.1.2 (e ▸ ha)⟩
  rw [hnew, total, hxy]
  simp only [List.map_append, List.map_cons, List.sum_append, List.sum_cons, hx, hy, hk, hp]
  simp

end Table

end Relational
