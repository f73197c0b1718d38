import Mathlib.Algebra.BigOperators.Group.List.Basic
import Mathlib.Algebra.Ring.Nat
import Mathlib.Data.List.Nodup
import Mathlib.Data.List.Perm.Basic
import Mathlib.Order.Interval.Finset.Nat
import Mathlib.Tactic.Common

/-!
# Choosing by running totals

Items with weights stand in a row.  A number chooses the first item with which the total of the
weights so far passes it, so each item owns an interval as long as its weight.  Where the interval
lies depends on the items before it.
-/

namespace WeightedScan

variable {ρ : Type} (weight : ρ → ℕ)

/-- The first item of the row with which the total, counted from `cursor`, passes `n`. -/
def pick : List ρ → ℕ → ℕ → Option ρ
  | [], _, _ => none
  | r :: rs, cursor, n =>
    if n < cursor + weight r then some r else pick rs (cursor + weight r) n

def total (rs : List ρ) : ℕ := (rs.map weight).sum

variable {weight} {rs rs' before after : List ρ} {r : ρ} {cursor n : ℕ}

@[simp] theorem total_nil : total weight [] = 0 := rfl

@[simp] theorem total_cons : total weight (r :: rs) = weight r + total weight rs := by
  simp [total]

@[simp] theorem total_append : total weight (rs ++ rs') = total weight rs + total weight rs' := by
  simp [total]

theorem total_perm (h : rs.Perm rs') : total weight rs = total weight rs' :=
  (h.map weight).sum_eq

theorem mem_of_pick (h : pick weight rs cursor n = some r) : r ∈ rs := by
  induction rs generalizing cursor with
  | nil => cases h
  | cons a rs ih =>
    simp only [pick] at h
    split at h
    · exact Option.some.inj h ▸ List.mem_cons_self
    · exact List.mem_cons_of_mem _ (ih h)

theorem pick_eq_some_iff (hnd : (before ++ r :: after).Nodup) (hc : cursor ≤ n) :
    pick weight (before ++ r :: after) cursor n = some r ↔
      cursor + total weight before ≤ n ∧ n < cursor + total weight before + weight r := by
  induction before generalizing cursor with
  | nil =>
    have hafter : r ∉ after := (List.nodup_cons.mp hnd).1
    simp only [List.nil_append, pick, total_nil, Nat.add_zero, hc, true_and]
    constructor
    · intro h
      split at h
      · assumption
      · exact absurd (mem_of_pick h) hafter
    · exact fun h => if_pos h
  | cons a before ih =>
    rw [List.cons_append, List.nodup_cons] at hnd
    have hne : a ≠ r := fun he => hnd.1 (he ▸ by simp)
    simp only [List.cons_append, pick, total_cons]
    by_cases hn : n < cursor + weight a
    · rw [if_pos hn]
      constructor
      · exact fun h => absurd (Option.some.inj h) hne
      · intro h
        omega
    · rw [if_neg hn, ih hnd.2 (Nat.not_lt.mp hn)]
      constructor <;> intro h <;> omega

theorem exists_pick (h : n < cursor + total weight rs) (hc : cursor ≤ n) :
    ∃ r, pick weight rs cursor n = some r := by
  induction rs generalizing cursor with
  | nil =>
    rw [total_nil] at h
    omega
  | cons a rs ih =>
    simp only [pick]
    by_cases hn : n < cursor + weight a
    · exact ⟨a, if_pos hn⟩
    · rw [if_neg hn]
      refine ih ?_ (Nat.not_lt.mp hn)
      rw [total_cons] at h
      omega

variable (weight) in
theorem card_pick [DecidableEq ρ] (hnd : rs.Nodup) (hr : r ∈ rs) :
    ((Finset.range (total weight rs)).filter fun n => pick weight rs 0 n = some r).card =
      weight r := by
  obtain ⟨before, after, rfl⟩ := List.append_of_mem hr
  have hinterval : ((Finset.range (total weight (before ++ r :: after))).filter fun n =>
      pick weight (before ++ r :: after) 0 n = some r) =
      Finset.Ico (total weight before) (total weight before + weight r) := by
    ext n
    simp only [Finset.mem_filter, Finset.mem_range, Finset.mem_Ico,
      pick_eq_some_iff hnd (Nat.zero_le n), total_append, total_cons]
    omega
  rw [hinterval, Nat.card_Ico]
  omega

/-- An item is chosen in every order exactly when its intervals in first and in last place share
the number. -/
theorem pick_perm_iff (hnd : rs.Nodup) (hr : r ∈ rs) :
    (∀ rs', rs'.Perm rs → pick weight rs' 0 n = some r) ↔
      total weight rs ≤ n + weight r ∧ n < weight r := by
  obtain ⟨before, after, rfl⟩ := List.append_of_mem hr
  have hfirst : (r :: (before ++ after)).Perm (before ++ r :: after) := List.perm_middle.symm
  have hlast : (before ++ after ++ [r]).Perm (before ++ r :: after) := by
    refine List.Perm.trans ?_ hfirst
    exact List.perm_append_singleton r (before ++ after)
  constructor
  · intro h
    have hf : pick weight ([] ++ r :: (before ++ after)) 0 n = some r := h _ hfirst
    rw [pick_eq_some_iff (hfirst.nodup_iff.mpr hnd) (Nat.zero_le n)] at hf
    have hl := h _ hlast
    rw [pick_eq_some_iff (hlast.nodup_iff.mpr hnd) (Nat.zero_le n)] at hl
    simp only [total_append, total_cons, total_nil] at hf hl ⊢
    omega
  · rintro ⟨hlow, hhigh⟩ rs' hperm
    obtain ⟨b, a, rfl⟩ := List.append_of_mem (hperm.mem_iff.mpr hr)
    rw [← total_perm hperm] at hlow
    rw [pick_eq_some_iff (hperm.nodup_iff.mpr hnd) (Nat.zero_le n)]
    simp only [total_append, total_cons] at hlow
    omega

end WeightedScan
