import Mathlib.Data.Nat.Notation
import Mathlib.Data.Option.Basic
import Mathlib.Logic.Function.Basic

/-!
# Stores whose entries may expire

An entry may carry a deadline.  From its deadline on it can be dropped at any time; until then it
stays.  The commands are the atomic ones of such a store: set if absent, compare and delete,
compare and prolong, increment.
-/

namespace Volatile

variable {κ ν : Type}

structure Entry (ν : Type) where
  value : ν
  expiresAt : Option ℕ := none
deriving DecidableEq, Repr

def Entry.due (now : ℕ) (e : Entry ν) : Bool := e.expiresAt.any fun d => decide (d ≤ now)

abbrev Store (κ ν : Type) := κ → Option (Entry ν)

namespace Store

variable [DecidableEq κ] {m : Store κ ν} {key k : κ} {now now' ttl : ℕ} {value : ν} {e : Entry ν}

/-- Some of the entries that are due are dropped. -/
def lapse (now : ℕ) (gone : κ → Bool) (m : Store κ ν) : Store κ ν :=
  fun k => (m k).filter fun e => !(gone k && e.due now)

def put (key : κ) (value : ν) (expiresAt : Option ℕ) (m : Store κ ν) : Store κ ν :=
  Function.update m key (some ⟨value, expiresAt⟩)

def drop (key : κ) (m : Store κ ν) : Store κ ν := Function.update m key none

def setNX (key : κ) (value : ν) (expiresAt : Option ℕ) (m : Store κ ν) : Bool × Store κ ν :=
  if m key = none then (true, m.put key value expiresAt) else (false, m)

def holds [DecidableEq ν] (key : κ) (value : ν) (m : Store κ ν) : Bool :=
  (m key).any fun e => decide (e.value = value)

def dropIf [DecidableEq ν] (key : κ) (value : ν) (m : Store κ ν) : Store κ ν :=
  if m.holds key value then m.drop key else m

def prolongIf [DecidableEq ν] (key : κ) (value : ν) (expiresAt : ℕ) (m : Store κ ν) : Store κ ν :=
  if m.holds key value then m.put key value (some expiresAt) else m

/-- Increment: an absent counter starts at one and carries no deadline. -/
def incr (key : κ) (m : Store κ ℕ) : ℕ × Store κ ℕ :=
  match m key with
  | some e => (e.value + 1, m.put key (e.value + 1) e.expiresAt)
  | none => (1, m.put key 1 none)

def expire (key : κ) (expiresAt : ℕ) (m : Store κ ν) : Store κ ν :=
  match m key with
  | some e => m.put key e.value (some expiresAt)
  | none => m

omit [DecidableEq κ] in
theorem holds_iff [DecidableEq ν] :
    m.holds key value = true ↔ ∃ d, m key = some ⟨value, d⟩ := by
  simp only [holds, Option.any_eq_true, decide_eq_true_eq]
  constructor
  · rintro ⟨e, he, rfl⟩
    exact ⟨e.expiresAt, he⟩
  · rintro ⟨d, hd⟩
    exact ⟨_, hd, rfl⟩

@[simp] theorem put_self {d : Option ℕ} : (m.put key value d) key = some ⟨value, d⟩ :=
  Function.update_self ..

theorem put_of_ne {d : Option ℕ} (h : k ≠ key) : (m.put key value d) k = m k :=
  Function.update_of_ne h ..

@[simp] theorem drop_self : (m.drop key) key = none := Function.update_self ..

theorem drop_of_ne (h : k ≠ key) : (m.drop key) k = m k := Function.update_of_ne h ..

theorem setNX_cases {d : Option ℕ} :
    (m key = none ∧ m.setNX key value d = (true, m.put key value d)) ∨
      (m key ≠ none ∧ m.setNX key value d = (false, m)) := by
  unfold setNX
  split
  next h => exact .inl ⟨h, rfl⟩
  next h => exact .inr ⟨h, rfl⟩

omit [DecidableEq κ] in
theorem lapse_of_not_due {gone : κ → Bool} (h : m key = some e) (hd : e.due now = false) :
    (m.lapse now gone) key = some e := by
  simp [lapse, h, hd]

omit [DecidableEq κ] in
theorem lapse_eq_some {gone : κ → Bool} (h : (m.lapse now gone) key = some e) : m key = some e :=
  (Option.filter_eq_some_iff.mp h).1

/-- An entry without a deadline. -/
def Endless (key : κ) (m : Store κ ν) : Prop := ∃ v, m key = some ⟨v, none⟩

omit [DecidableEq κ] in
theorem endless_of_lapse {gone : κ → Bool} (h : (m.lapse now gone).Endless key) : m.Endless key := by
  obtain ⟨v, hv⟩ := h
  exact ⟨v, lapse_eq_some hv⟩

theorem incr_endless {m : Store κ ℕ} (h : (m.incr key).2.Endless key) :
    m.Endless key ∨ m key = none ∧ (m.incr key).1 = 1 := by
  unfold incr at h ⊢
  cases hk : m key with
  | some e =>
    obtain ⟨v, hv⟩ := h
    simp only [hk, put_self, Option.some.injEq, Entry.mk.injEq] at hv
    exact .inl ⟨e.value, by rw [hk, ← hv.2]⟩
  | none => exact .inr ⟨rfl, rfl⟩

theorem not_endless_expire {d : ℕ} : ¬ (m.expire key d).Endless key := by
  rintro ⟨v, hv⟩
  cases hk : m key with
  | some e =>
    simp only [expire, hk, put_self] at hv
    cases hv
  | none =>
    simp only [expire, hk] at hv
    cases hv

theorem put_endless {d : Option ℕ} (hne : k ≠ key) : (m.put k value d).Endless key ↔ m.Endless key := by
  unfold Endless
  rw [put_of_ne (Ne.symm hne)]

theorem put_until_endless {d : ℕ} (h : (m.put k value (some d)).Endless key) : m.Endless key := by
  by_cases hne : k = key
  · obtain ⟨v, hv⟩ := h
    rw [hne, put_self] at hv
    cases hv
  · exact (put_endless hne).mp h

theorem expire_endless {d : ℕ} (h : (m.expire k d).Endless key) : m.Endless key := by
  cases hk : m k with
  | some e =>
    simp only [expire, hk] at h
    exact put_until_endless h
  | none =>
    simp only [expire, hk] at h
    exact h

section Compare

variable [DecidableEq ν]

theorem dropIf_stale (h : m.holds key value = false) : m.dropIf key value = m := by
  rw [dropIf, h, if_neg Bool.false_ne_true]

theorem prolongIf_stale {d : ℕ} (h : m.holds key value = false) : m.prolongIf key value d = m := by
  rw [prolongIf, h, if_neg Bool.false_ne_true]

omit [DecidableEq κ] in
theorem ne_of_holds (h : m key = some e) (hne : k = key → value ≠ e.value)
    (hk : m.holds k value = true) : key ≠ k := by
  rintro rfl
  obtain ⟨d, hd⟩ := holds_iff.mp hk
  rw [h] at hd
  exact hne rfl (congrArg Entry.value (Option.some.inj hd)).symm

theorem dropIf_other (h : m key = some e) (hne : k = key → value ≠ e.value) :
    (m.dropIf k value) key = some e := by
  unfold dropIf
  split
  next hk => rw [drop_of_ne (ne_of_holds h hne hk), h]
  next => exact h

theorem prolongIf_other {d : ℕ} (h : m key = some e) (hne : k = key → value ≠ e.value) :
    (m.prolongIf k value d) key = some e := by
  unfold prolongIf
  split
  next hk => rw [put_of_ne (ne_of_holds h hne hk), h]
  next => exact h

end Compare

end Store

end Volatile
