import Mathlib.Data.List.Chain
import Mathlib.Tactic.Common

/-!
# Trails of a changing value

A trail records the changes of a value, oldest first, each with the value before it; the first
one has none.  It is faithful when every entry goes on from where the one before stopped and the
last one ends at the current value.
-/

namespace Trails

variable {α : Type} {trail : List (Option α × α)} {current : α}

/-- The second change starts where the first one ended. -/
def Follows (a b : Option α × α) : Prop := b.1 = some a.2

structure Faithful (trail : List (Option α × α)) (current : α) : Prop where
  start : ∀ a ∈ trail.head?, a.1 = none
  linked : trail.IsChain Follows
  ends : trail.getLast?.map Prod.snd = some current

instance [DecidableEq α] (a b : Option α × α) : Decidable (Follows a b) :=
  inferInstanceAs (Decidable (_ = _))

theorem faithful_iff : Faithful trail current ↔ (∀ a ∈ trail.head?, a.1 = none) ∧
    trail.IsChain Follows ∧ trail.getLast?.map Prod.snd = some current :=
  ⟨fun h => ⟨h.start, h.linked, h.ends⟩, fun h => ⟨h.1, h.2.1, h.2.2⟩⟩

instance [DecidableEq α] : Decidable (Faithful trail current) := decidable_of_iff' _ faithful_iff

theorem Faithful.single (a : α) : Faithful [(none, a)] a := by
  refine ⟨fun b hb => ?_, List.IsChain.singleton _, rfl⟩
  obtain rfl : (none, a) = b := Option.some.inj hb
  rfl

/-- A further entry keeps a trail faithful exactly when it starts from the current value and ends
at the new one. -/
theorem Faithful.snoc_iff (h : Faithful trail current) {before : Option α} {after next : α} :
    Faithful (trail ++ [(before, after)]) next ↔ before = some current ∧ after = next := by
  obtain ⟨⟨b, c⟩, hlast, rfl⟩ := Option.map_eq_some_iff.mp h.ends
  have hhead : (trail ++ [(before, after)]).head? = trail.head? := by
    rw [List.head?_append_of_ne_nil]
    rintro rfl
    cases hlast
  have hchain : (trail ++ [(before, after)]).IsChain Follows ↔ before = some c := by
    rw [List.isChain_append]
    simp [h.linked, hlast, Follows]
  rw [faithful_iff, hhead, hchain, List.getLast?_concat, Option.map_some, Option.some.injEq]
  exact ⟨fun hsnoc => hsnoc.2, fun hsnoc => ⟨h.start, hsnoc⟩⟩

end Trails
