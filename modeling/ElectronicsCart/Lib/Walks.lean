import Mathlib.Data.List.Induction
import Mathlib.Tactic.Common

/-!
# Walks along labels

`f x n` is what the label `n` leads to from `x`, and a walk follows a list of labels.  Where every
owned node is entered by one edge at most, only one walk leads to it, so that a change of one edge of
an owned node is seen by those walks alone that use this edge (`walk_eq_of_redirect`).
-/

namespace Walks

variable {α L : Type} {f g : α → L → α} {x y : α} {p q r s : List L} {n m : L}

def walk (f : α → L → α) (x : α) (q : List L) : α := q.foldl f x

@[simp] theorem walk_nil : walk f x [] = x := rfl

@[simp] theorem walk_cons : walk f x (n :: q) = walk f (f x n) q := rfl

theorem walk_append : walk f x (p ++ q) = walk f (walk f x p) q := List.foldl_append

@[simp] theorem walk_concat : walk f x (q ++ [n]) = f (walk f x q) n := by
  rw [walk_append]
  rfl

theorem walk_of_sink (h : ∀ n, f x n = x) (q : List L) : walk f x q = x := by
  induction q with
  | nil => rfl
  | cons n q ih => rw [walk_cons, h n, ih]

theorem walk_eq_of_agree
    (h : ∀ r n, r ++ [n] <+: q → f (walk f x r) n = g (walk f x r) n) : walk g x q = walk f x q := by
  induction q using List.reverseRecOn with
  | nil => rfl
  | append_singleton q n ih =>
    have hq : walk g x q = walk f x q :=
      ih fun r m hr => h r m (hr.trans (List.prefix_append q [n]))
    rw [walk_concat, walk_concat, hq, h q n List.prefix_rfl]

/-- The owned nodes below `root` form a tree. -/
structure Rooted (f : α → L → α) (Owned : α → Prop) (root : α) : Prop where
  /-- one edge at most leads to an owned node -/
  unique : ∀ x y n m, Owned (f x n) → f x n = f y m → x = y ∧ n = m
  /-- and it comes from an owned one -/
  back : ∀ x n, Owned (f x n) → Owned x
  root_ne : ∀ x n, Owned root → f x n ≠ root

variable {Owned : α → Prop} {root : α}

theorem Rooted.walk_unique (h : Rooted f Owned root) (hp : Owned (walk f root p))
    (heq : walk f root p = walk f root q) : p = q := by
  induction p using List.reverseRecOn generalizing q with
  | nil =>
    induction q using List.reverseRecOn with
    | nil => rfl
    | append_singleton q m _ =>
      rw [walk_nil, walk_concat] at heq
      exact (h.root_ne _ _ hp heq.symm).elim
  | append_singleton p n ih =>
    induction q using List.reverseRecOn with
    | nil =>
      rw [walk_concat, walk_nil] at heq
      rw [walk_concat, heq] at hp
      exact (h.root_ne _ _ hp heq).elim
    | append_singleton q m _ =>
      rw [walk_concat] at hp
      rw [walk_concat, walk_concat] at heq
      obtain ⟨hnodes, rfl⟩ := h.unique _ _ _ _ hp heq
      rw [ih (h.back _ _ hp) hnodes]

theorem Rooted.walk_eq_of_redirect (h : Rooted f Owned root) (hp : Owned (walk f root p))
    (hagree : ∀ y m, ¬ (y = walk f root p ∧ m = n) → g y m = f y m) (hq : ¬ p ++ [n] <+: q) :
    walk g root q = walk f root q := by
  refine walk_eq_of_agree fun r m hr => (hagree _ _ ?_).symm
  rintro ⟨hnode, rfl⟩
  obtain rfl := h.walk_unique hp hnode.symm
  exact hq hr

end Walks
