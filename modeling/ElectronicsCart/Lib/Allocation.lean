import Mathlib.Algebra.BigOperators.Group.List.Basic
import Mathlib.Algebra.Group.Int.Defs
import Mathlib.Algebra.Order.BigOperators.Group.List
import Mathlib.Algebra.Order.Ring.Int
import Mathlib.Data.List.Nodup
import Mathlib.Tactic.Common

/-!
# Greedy allocation

A request for `n` units is served from a list of holders in order: each gives what it
can until nothing is left to serve.  Holders that can give nothing are passed over.
-/

namespace Allocation

variable {ρ : Type} (cap : ρ → ℤ)

def takes : List ρ → ℤ → List (ρ × ℤ)
  | [], _ => []
  | r :: rs, n =>
    if n ≤ 0 then []
    else if min (cap r) n ≤ 0 then takes rs n
    else (r, min (cap r) n) :: takes rs (n - min (cap r) n)

def leftover : List ρ → ℤ → ℤ
  | [], n => n
  | r :: rs, n =>
    if n ≤ 0 then n
    else if min (cap r) n ≤ 0 then leftover rs n
    else leftover rs (n - min (cap r) n)

def taken {κ : Type} [DecidableEq κ] (key : ρ → κ) (rs : List ρ) (n : ℤ) (k : κ) : ℤ :=
  ((takes cap rs n).map fun a => if key a.1 = k then a.2 else 0).sum

variable {cap}

theorem sum_takes (rs : List ρ) (n : ℤ) :
    ((takes cap rs n).map Prod.snd).sum + leftover cap rs n = n := by
  induction rs generalizing n with
  | nil => simp [takes, leftover]
  | cons r rs ih =>
    simp only [takes, leftover]
    split
    · simp
    · split
      · exact ih n
      · have := ih (n - min (cap r) n)
        simp only [List.map_cons, List.sum_cons]
        omega

theorem mem_takes {rs : List ρ} {n : ℤ} {a : ρ × ℤ} (h : a ∈ takes cap rs n) :
    a.1 ∈ rs ∧ 0 < a.2 ∧ a.2 ≤ cap a.1 := by
  induction rs generalizing n with
  | nil => simp [takes] at h
  | cons r rs ih =>
    simp only [takes] at h
    split at h
    · simp at h
    · split at h
      · exact ⟨List.mem_cons_of_mem _ (ih h).1, (ih h).2⟩
      next hpos =>
        rcases List.mem_cons.mp h with rfl | h
        · exact ⟨List.mem_cons_self .., by omega, min_le_left ..⟩
        · exact ⟨List.mem_cons_of_mem _ (ih h).1, (ih h).2⟩

theorem leftover_le (rs : List ρ) (n : ℤ) : leftover cap rs n ≤ n := by
  have hsum : _ + leftover cap rs n = n := sum_takes rs n
  have : 0 ≤ ((takes cap rs n).map Prod.snd).sum := by
    refine List.sum_nonneg fun x hx => ?_
    obtain ⟨a, ha, rfl⟩ := List.mem_map.mp hx
    exact (mem_takes ha).2.1.le
  omega

theorem leftover_lt {rs : List ρ} {n : ℤ} (hn : 0 < n) (h : 0 < (rs.map cap).sum) :
    leftover cap rs n < n := by
  induction rs with
  | nil => simp at h
  | cons r rs ih =>
    simp only [leftover]
    rw [if_neg (by omega)]
    split
    next hr =>
      simp only [List.map_cons, List.sum_cons] at h
      exact ih (by omega)
    next hr =>
      have hle : leftover cap rs (n - min (cap r) n) ≤ n - min (cap r) n := leftover_le rs _
      omega

theorem leftover_eq_zero {rs : List ρ} {n : ℤ} (hcap : ∀ r ∈ rs, 0 ≤ cap r) (hn : 0 ≤ n)
    (h : n ≤ (rs.map cap).sum) : leftover cap rs n = 0 := by
  induction rs generalizing n with
  | nil =>
    simp only [List.map_nil, List.sum_nil] at h
    simp only [leftover]
    omega
  | cons r rs ih =>
    have hr : 0 ≤ cap r := hcap r (List.mem_cons_self ..)
    have hrs : ∀ a ∈ rs, 0 ≤ cap a := fun a ha => hcap a (List.mem_cons_of_mem r ha)
    simp only [List.map_cons, List.sum_cons] at h
    simp only [leftover]
    split
    · omega
    · split
      · exact ih hrs hn (by omega)
      · have hsum : 0 ≤ (rs.map cap).sum := by
          refine List.sum_nonneg ?_
          intro x hx
          obtain ⟨a, ha, rfl⟩ := List.mem_map.mp hx
          exact hrs a ha
        exact ih hrs (by omega) (by omega)

/-! ### Holders with keys of their own -/

theorem takes_sublist (rs : List ρ) (n : ℤ) : ((takes cap rs n).map Prod.fst).Sublist rs := by
  induction rs generalizing n with
  | nil => exact List.Sublist.refl _
  | cons r rs ih =>
    simp only [takes]
    split
    · exact List.nil_sublist _
    · split
      · exact (ih n).cons r
      · exact (ih _).cons_cons r

section Keys

variable {κ : Type} [DecidableEq κ] {key : ρ → κ} {rs : List ρ} {n : ℤ}

theorem taken_nonneg (k : κ) : 0 ≤ taken cap key rs n k := by
  refine List.sum_nonneg fun x hx => ?_
  obtain ⟨a, ha, rfl⟩ := List.mem_map.mp hx
  have hpos := (mem_takes ha).2.1
  split <;> omega

theorem taken_eq_zero_of_forall {k : κ} (h : ∀ a ∈ takes cap rs n, key a.1 ≠ k) :
    taken cap key rs n k = 0 := by
  refine List.sum_eq_zero fun x hx => ?_
  obtain ⟨a, ha, rfl⟩ := List.mem_map.mp hx
  exact if_neg (h a ha)

theorem sum_key {α : Type} {l : List α} {k : α → κ} (hnd : (l.map k).Nodup) {a : α} (ha : a ∈ l)
    (f : α → ℤ) : (l.map fun b => if k b = k a then f b else 0).sum = f a := by
  induction l with
  | nil => exact absurd ha List.not_mem_nil
  | cons b l ih =>
    simp only [List.map_cons, List.nodup_cons, List.mem_map, not_exists, not_and] at hnd
    simp only [List.map_cons, List.sum_cons]
    rcases List.mem_cons.mp ha with rfl | ha
    · have hrest : (l.map fun b => if k b = k a then f b else 0).sum = 0 := by
        refine List.sum_eq_zero fun x hx => ?_
        obtain ⟨b, hb, rfl⟩ := List.mem_map.mp hx
        exact if_neg (hnd.1 b hb)
      rw [if_pos rfl, hrest, add_zero]
    · rw [if_neg fun h => hnd.1 a ha h.symm, ih hnd.2 ha, zero_add]

theorem taken_of_mem (hnd : (rs.map key).Nodup) {a : ρ × ℤ} (ha : a ∈ takes cap rs n) :
    taken cap key rs n (key a.1) = a.2 := by
  have hkeys : ((takes cap rs n).map fun b => key b.1).Nodup := by
    have hsub := (@takes_sublist _ cap rs n).map key
    rw [List.map_map] at hsub
    exact hsub.nodup hnd
  exact sum_key hkeys ha Prod.snd

theorem mem_takes_of_taken_pos (hnd : (rs.map key).Nodup) {r : ρ} (hr : r ∈ rs)
    (h : 0 < taken cap key rs n (key r)) : (r, taken cap key rs n (key r)) ∈ takes cap rs n := by
  by_contra hnot
  have hzero : taken cap key rs n (key r) = 0 := by
    refine taken_eq_zero_of_forall fun a ha hk => hnot ?_
    obtain rfl : a.1 = r := List.inj_on_of_nodup_map hnd (mem_takes ha).1 hr hk
    rwa [taken_of_mem hnd ha]
  omega

theorem taken_le (hnd : (rs.map key).Nodup) {r : ρ} (hr : r ∈ rs) (hcap : 0 ≤ cap r) :
    taken cap key rs n (key r) ≤ cap r := by
  by_cases h : 0 < taken cap key rs n (key r)
  · exact (mem_takes (mem_takes_of_taken_pos hnd hr h)).2.2
  · omega

theorem sum_taken (hnd : (rs.map key).Nodup) :
    (rs.map fun r => taken cap key rs n (key r)).sum = n - leftover cap rs n := by
  have hmem : ∀ a ∈ takes cap rs n, a.1 ∈ rs := fun a ha => (mem_takes ha).1
  have hsum : (rs.map fun r => taken cap key rs n (key r)).sum =
      ((takes cap rs n).map Prod.snd).sum := by
    simp only [taken]
    generalize takes cap rs n = l at hmem
    induction l with
    | nil => simp
    | cons a l ih =>
      simp only [List.map_cons, List.sum_cons, List.sum_map_add]
      rw [ih fun b hb => hmem b (List.mem_cons_of_mem a hb)]
      congr 1
      simp only [eq_comm (a := key a.1)]
      exact sum_key hnd (hmem a (List.mem_cons_self ..)) fun _ => a.2
  have := @sum_takes _ cap rs n
  omega

end Keys

end Allocation
