import ElectronicsCart.Lib.Interference

/-!
# Callers

A pool of requests has one thread for each request, in the order of the list.  Where a condition on a
call is about who makes it, the calls are signed with their callers.
-/

namespace Interleaving

variable {L ι σ ε α κ ρ : Type} {W : World L ι σ} {C D : Discipline L ι σ}

/-- The discipline on calls that name their caller. -/
def Discipline.signed (κ : Type) (D : Discipline L ι σ) : Discipline (κ × L) ι σ where
  rely := D.rely
  guar l := D.guar l.2
  refl := D.refl
  trans := D.trans

theorem Holds.signed {caller : κ} {W' : World (κ × L) ι σ} {Q : Except ε α → σ → Prop}
    {p : Prog L ι σ ε α} {s : σ} (hok : ∀ l i t, W'.ok (caller, l) i t → W.ok l i t)
    (hinv : ∀ t, W'.inv t ↔ W.inv t) (h : Holds W C D Q p s) :
    Holds W' (C.signed κ) (D.signed κ) Q (p.signed caller) s := by
  induction p generalizing D Q s with
  | done r => exact fun t ht hi => h t ht ((hinv t).mp hi)
  | halt => trivial
  | step l u k ih =>
    intro t ht hi i ho
    obtain ⟨hinv', hg, hk⟩ := h t ht ((hinv t).mp hi) i (hok l i t ho)
    exact ⟨(hinv _).mpr hinv', hg, ih i t hk⟩
  | fork c k ihc ihk =>
    intro t ht hi
    obtain ⟨hc, hk⟩ := h t ht ((hinv t).mp hi)
    exact ⟨ihc hc, ihk hk⟩

namespace Pool

variable {E : ℕ → Discipline L ι σ} {Q : ℕ → Except ε α → σ → Prop} {n : ℕ}

theorem Compatible.signed {W' : World (κ × L) ι σ}
    (hc : Compatible ⟨fun _ _ _ => True, W'.inv⟩ C E Q n) :
    Compatible W' (C.signed κ) (fun j => (E j).signed κ) Q n where
  rely hne hi _ hi' hg := hc.rely hne hi trivial hi' hg
  forked hj := congrArg (Discipline.signed κ) (hc.forked hj)
  post := hc.post

theorem run_requests {prog : ℕ → ρ → Prog L ι σ ε α} {requests : List ρ} {s : σ} {sched : List (ℕ × ι)}
    (hc : Compatible W C E Q requests.length) (hs : W.inv s)
    (h : ∀ j, ∀ r ∈ requests, j < requests.length → Holds W C (E j) (Q j) (prog j r) s)
    (ha : Pool.Admits W.ok ⟨requests.mapIdx prog, s⟩ sched) :
    Safe W C E Q (run ⟨requests.mapIdx prog, s⟩ sched) := by
  have hsafe : Safe W C E Q ⟨requests.mapIdx prog, s⟩ := by
    refine ⟨hs, ?_⟩
    intro j p hp
    obtain ⟨hj, rfl⟩ := List.getElem?_eq_some_iff.mp hp
    have hlt : j < requests.length := by simpa using hj
    rw [List.getElem_mapIdx]
    exact h j _ (List.getElem_mem hlt) hlt
  exact hsafe.run hc (by simp) ha

theorem run_answers (R : ρ → Except ε α → σ → Prop) {prog : ℕ → ρ → Prog L ι σ ε α} {requests : List ρ} {s : σ}
    {sched : List (ℕ × ι)}
    (hc : ∀ {Q : ℕ → Except ε α → σ → Prop}, (∀ j r s, requests.length ≤ j → Q j r s) →
      Compatible W C E Q requests.length) (hs : W.inv s)
    (h : ∀ j, ∀ r ∈ requests, j < requests.length → Holds W C (E j) (R r) (prog j r) s)
    (ha : Pool.Admits W.ok ⟨requests.mapIdx prog, s⟩ sched) :
    W.inv (run ⟨requests.mapIdx prog, s⟩ sched).state ∧ ∀ (j : ℕ) q r, requests[j]? = some q →
      (run ⟨requests.mapIdx prog, s⟩ sched).threads[j]? = some (.done r) →
      R q r (run ⟨requests.mapIdx prog, s⟩ sched).state := by
  have hbeyond : ∀ (j : ℕ) r (s : σ), requests.length ≤ j → ∀ q, requests[j]? = some q → R q r s := by
    intro j r s hj q hq
    rw [List.getElem?_eq_none hj] at hq
    cases hq
  have hsafe : Safe W C E (fun j r s => ∀ q, requests[j]? = some q → R q r s)
      ⟨requests.mapIdx prog, s⟩ := by
    refine ⟨hs, ?_⟩
    intro j p hp
    obtain ⟨hj, rfl⟩ := List.getElem?_eq_some_iff.mp hp
    have hlt : j < requests.length := by simpa using hj
    rw [List.getElem_mapIdx]
    refine Holds.mono ?_ (h j requests[j] (List.getElem_mem hlt) hlt)
    intro r t _ hr q hq
    rw [List.getElem?_eq_getElem hlt] at hq
    exact Option.some.inj hq ▸ hr
  have hend := hsafe.run (hc hbeyond) (by simp) ha
  refine ⟨hend.inv, ?_⟩
  intro j q r hq hr
  exact hend.holds j _ hr _ ((E j).refl _) hend.inv q hq

end Pool

end Interleaving
