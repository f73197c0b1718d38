import ElectronicsCart.Lib.Interference

/-!
# Programs that get in each other's way

A program that is ahead ends well unless another one claims something after it; `D.rely` says that
nothing was claimed.  If every claim puts the program that makes it ahead, some program of the pool is
ahead at any time: they cannot all be in each other's way.
-/

namespace Interleaving

variable {L ι σ ε α β : Type} {W : World L ι σ} {D E : Discipline L ι σ} {Q : Except ε α → σ → Prop}
  {s s' : σ}

/-- Every call of the program, while the others do what `E` allows, claims nothing or puts it ahead. -/
def Contends (W : World L ι σ) (D E : Discipline L ι σ) (Q : Except ε α → σ → Prop) :
    Prog L ι σ ε α → σ → Prop
  | .done _, _ => True
  | .halt, _ => True
  | .step l u k, s => ∀ t, E.rely s t → W.inv t → ∀ i, W.ok l i t →
      W.inv (u i t) ∧ E.rely t (u i t) ∧ (D.rely t (u i t) ∨ Holds W D D Q (k i t) (u i t)) ∧
        Contends W D E Q (k i t) (u i t)
  | .fork _ _, _ => False

namespace Contends

theorem stable {p : Prog L ι σ ε α} (h : Contends W D E Q p s) (hs : E.rely s s') :
    Contends W D E Q p s' := by
  cases p with
  | done r => trivial
  | halt => trivial
  | step l u k => exact fun t ht => h t (E.trans hs ht)
  | fork c k => exact h

theorem callBind {l : L} {f : ι → σ → Except ε β × σ} {k : β → Prog L ι σ ε α}
    (h : ∀ t, E.rely s t → W.inv t → ∀ i, W.ok l i t →
      W.inv (f i t).2 ∧ E.rely t (f i t).2 ∧
        match (f i t).1 with
        | .ok b => (D.rely t (f i t).2 ∨ Holds W D D Q (k b) (f i t).2) ∧ Contends W D E Q (k b) (f i t).2
        | .error _ => D.rely t (f i t).2) : Contends W D E Q ((Prog.call l f).bind k) s := by
  intro t ht hi i ho
  obtain ⟨hinv, hrely, hk⟩ := h t ht hi i ho
  refine ⟨hinv, hrely, ?_⟩
  change (D.rely t (f i t).2 ∨ Holds W D D Q ((Prog.done (f i t).1).bind k) (f i t).2) ∧
    Contends W D E Q ((Prog.done (f i t).1).bind k) (f i t).2
  cases hf : (f i t).1 with
  | ok b => rwa [hf] at hk
  | error e =>
    rw [hf] at hk
    exact ⟨.inl hk, trivial⟩

theorem recover {p : Prog L ι σ ε α} {h : ε → Prog L ι σ ε α} (hh : ∀ e, ∃ r, h e = .done r)
    (hQ : ∀ r t, Q r t → ∃ a, r = .ok a) (hstable : ∀ r t t', D.rely t t' → Q r t → Q r t')
    (hp : Contends W D E Q p s) : Contends W D E Q (p.attempt.bind (Prog.orElse h)) s := by
  induction p generalizing s with
  | done r =>
    cases r with
    | ok a => trivial
    | error e =>
      obtain ⟨r, hr⟩ := hh e
      change Contends W D E Q (h e) s
      rw [hr]
      trivial
  | halt => trivial
  | step l u k ih =>
    intro t ht hi i ho
    obtain ⟨hinv, hrely, hahead, hk⟩ := hp t ht hi i ho
    refine ⟨hinv, hrely, hahead.imp_right fun hk => ?_, ih i t hk⟩
    refine Holds.tryCatch (Holds.mono ?_ hk) hinv
    intro r t' _ hr
    obtain ⟨a, rfl⟩ := hQ r t' hr
    exact fun t'' ht'' _ => hstable _ t' t'' ht'' hr
  | fork c k => exact hp.elim

end Contends

namespace Pool

variable {p : Pool L ι σ ε α}

structure Led (W : World L ι σ) (D E : Discipline L ι σ) (Q : Except ε α → σ → Prop)
    (p : Pool L ι σ ε α) : Prop where
  inv : W.inv p.state
  contends : ∀ t ∈ p.threads, Contends W D E Q t p.state
  ahead : ∃ t ∈ p.threads, Holds W D D Q t p.state

theorem Led.step (h : p.Led W D E Q) {j : ℕ} {i : ι} (ha : p.Allows W.ok j i) :
    (p.step j i).Led W D E Q := by
  rcases p.step_cases j i with ⟨l, u, k, ht, hl, hs⟩ | ⟨c, k, ht, -⟩ | ⟨-, hs⟩
  · have ho : W.ok l i p.state := allows_label ha hl
    have hlt := (List.getElem?_eq_some_iff.mp ht).1
    obtain ⟨hinv, hrely, hquiet, hk⟩ :=
      h.contends _ (List.mem_of_getElem? ht) p.state (E.refl _) h.inv i ho
    have hmem : k i p.state ∈ p.threads.set j (k i p.state) := List.mem_set hlt _
    rw [hs]
    refine ⟨hinv, ?_, ?_⟩
    · intro t htm
      rcases List.mem_or_eq_of_mem_set htm with hold | rfl
      · exact (h.contends t hold).stable hrely
      · exact hk
    · obtain ⟨t, htm, hahead⟩ := h.ahead
      obtain ⟨j', hj'⟩ := List.mem_iff_getElem?.mp htm
      by_cases hjj : j = j'
      · -- the thread that is ahead makes the call
        subst hjj
        obtain rfl := Option.some.inj (ht.symm.trans hj')
        exact ⟨_, hmem, (hahead p.state (D.refl _) h.inv i ho).2.2⟩
      · have hkept : (p.threads.set j (k i p.state))[j']? = some t :=
          (List.getElem?_set_ne hjj).trans hj'
        rcases hquiet with hquiet | hahead'
        · exact ⟨t, List.mem_of_getElem? hkept, hahead.stable hquiet⟩
        · exact ⟨_, hmem, hahead'⟩
  · exact (h.contends _ (List.mem_of_getElem? ht)).elim
  · rw [hs]
    exact h

theorem Led.run {sched : List (ℕ × ι)} (h : p.Led W D E Q) (ha : p.Admits W.ok sched) :
    (p.run sched).Led W D E Q := by
  induction sched generalizing p with
  | nil => exact h
  | cons a rest ih => exact ih (h.step ha.1) ha.2

theorem Led.post (h : p.Led W D E Q) (hend : ∀ t ∈ p.threads, t.isDone = true) : ∃ r, Q r p.state := by
  obtain ⟨t, htm, hahead⟩ := h.ahead
  have hdone := hend t htm
  cases t with
  | done r => exact ⟨r, hahead p.state (D.refl _) h.inv⟩
  | halt => cases hdone
  | step l u k => cases hdone
  | fork c k => cases hdone

end Pool

end Interleaving
