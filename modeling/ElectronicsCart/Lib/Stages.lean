import ElectronicsCart.Lib.Marks

/-!
# Programs as state machines

A program that has finitely many kinds of points is a state machine: `prog` names the points, and
every call leads from a named point to a named point.  A pool of such programs runs in step with
a list of the points its threads are at, so that an invariant may speak of the state and of where
all threads are (`Staged.run`).
-/

namespace Interleaving

variable {L ι σ ε α β τ : Type}

/-- What `prog t` does next, as moves between points. -/
def Leads (ok : L → ι → σ → Prop) (prog : τ → Prog L ι σ ε α)
    (move : σ → τ → σ → τ → List τ → Prop) (t : τ) : Prog L ι σ ε α → Prop
  | .done _ => True
  | .halt => True
  | .step l u k => ∀ i s, ok l i s → ∃ t', k i s = prog t' ∧ move s t (u i s) t' []
  | .fork c k => ∀ s, ∃ t' t'', k = prog t' ∧ c = prog t'' ∧ move s t s t' [t'']

def Staged (ok : L → ι → σ → Prop) (prog : τ → Prog L ι σ ε α)
    (move : σ → τ → σ → τ → List τ → Prop) : Prop :=
  ∀ t, Leads ok prog move t (prog t)

variable {ok : L → ι → σ → Prop} {prog : τ → Prog L ι σ ε α}
  {move : σ → τ → σ → τ → List τ → Prop} {inv : σ → List τ → Prop} {p : Pool L ι σ ε α}
  {ts : List τ}

theorem leads_callBind {t : τ} {l : L} {f : ι → σ → Except ε β × σ} {k : β → Prog L ι σ ε α}
    (h : ∀ i s, ok l i s →
      ∃ t', (Prog.done (f i s).1).bind k = prog t' ∧ move s t (f i s).2 t' []) :
    Leads ok prog move t ((Prog.call l f).bind k) := h

theorem getElem?_moved {j i : ℕ} {t' u : τ} {forked : List τ}
    (h : (ts.set j t' ++ forked)[i]? = some u) :
    (i = j ∧ u = t') ∨ (i ≠ j ∧ ts[i]? = some u) ∨ (ts.length ≤ i ∧ u ∈ forked) := by
  rcases Nat.lt_or_ge i ts.length with hlt | hge
  · rw [List.getElem?_append_left (by simpa using hlt)] at h
    by_cases hj : j = i
    · subst hj
      rw [List.getElem?_set_self hlt] at h
      exact .inl ⟨rfl, (Option.some.inj h).symm⟩
    · rw [List.getElem?_set_ne hj] at h
      exact .inr (.inl ⟨Ne.symm hj, h⟩)
  · rw [List.getElem?_append_right (by simpa using hge)] at h
    exact .inr (.inr ⟨hge, List.mem_of_getElem? h⟩)

theorem getElem?_moved_alone {j i : ℕ} {t' u : τ} (h : (ts.set j t' ++ [])[i]? = some u) :
    (i = j ∧ u = t') ∨ (i ≠ j ∧ ts[i]? = some u) := by
  rcases getElem?_moved h with h | h | ⟨-, h⟩
  · exact .inl h
  · exact .inr h
  · exact (List.not_mem_nil h).elim

theorem getElem?_stays {j i : ℕ} {t' u : τ} {forked : List τ} (h : ts[i]? = some u) (hne : i ≠ j) :
    (ts.set j t' ++ forked)[i]? = some u := by
  have hlt : i < ts.length := (List.getElem?_eq_some_iff.mp h).1
  rw [List.getElem?_append_left (by simpa using hlt), List.getElem?_set_ne (Ne.symm hne)]
  exact h

theorem getElem?_moves {j : ℕ} {t t' : τ} {forked : List τ} (h : ts[j]? = some t) :
    (ts.set j t' ++ forked)[j]? = some t' := by
  have hlt : j < ts.length := (List.getElem?_eq_some_iff.mp h).1
  rw [List.getElem?_append_left (by simpa using hlt), List.getElem?_set_self hlt]

theorem Staged.step (h : Staged ok prog move) (hp : p.threads = ts.map prog) {j : ℕ} {i : ι}
    (ha : p.Allows ok j i) :
    (∃ t t' forked, ts[j]? = some t ∧ move p.state t (p.step j i).state t' forked ∧
        (p.step j i).threads = (ts.set j t' ++ forked).map prog) ∨ p.step j i = p := by
  have hpoint : ∀ {q : Prog L ι σ ε α}, p.threads[j]? = some q → ∃ t, ts[j]? = some t ∧ prog t = q := by
    intro q hq
    rw [hp, List.getElem?_map] at hq
    exact Option.map_eq_some_iff.mp hq
  rcases p.step_cases j i with ⟨l, u, k, ht, hl, hs⟩ | ⟨c, k, ht, hs⟩ | ⟨-, hs⟩
  · obtain ⟨t, htj, hprog⟩ := hpoint ht
    have hlead := h t
    rw [hprog] at hlead
    obtain ⟨t', hk, hmove⟩ := hlead i p.state (Pool.allows_label ha hl)
    refine .inl ⟨t, t', [], htj, by rw [hs]; exact hmove, ?_⟩
    rw [hs, List.append_nil, List.map_set, ← hk, ← hp]
  · obtain ⟨t, htj, hprog⟩ := hpoint ht
    have hlead := h t
    rw [hprog] at hlead
    obtain ⟨t', t'', hk, hc, hmove⟩ := hlead p.state
    refine .inl ⟨t, t', [t''], htj, by rw [hs]; exact hmove, ?_⟩
    rw [hs, List.map_append, List.map_set, ← hk, ← hp, List.map_singleton, ← hc]
  · exact .inr hs

theorem Staged.run (h : Staged ok prog move)
    (hmove : ∀ {s s' ts j t t' forked}, inv s ts → ts[j]? = some t → move s t s' t' forked →
      inv s' (ts.set j t' ++ forked))
    {sched : List (ℕ × ι)} (hp : p.threads = ts.map prog) (hi : inv p.state ts)
    (ha : p.Admits ok sched) :
    ∃ ts', (p.run sched).threads = ts'.map prog ∧ inv (p.run sched).state ts' := by
  induction sched generalizing p ts with
  | nil => exact ⟨ts, hp, hi⟩
  | cons a rest ih =>
    rcases h.step hp ha.1 with ⟨t, t', forked, htj, hm, hthreads⟩ | heq
    · exact ih hthreads (hmove hi htj hm) ha.2
    · have ha' := ha.2
      change ∃ ts', ((p.step a.1 a.2).run rest).threads = ts'.map prog ∧
        inv ((p.step a.1 a.2).run rest).state ts'
      rw [heq] at ha' ⊢
      exact ih hp hi ha'

/-! ### Points with one way on -/

/-- A point that has ended, or one whose call is `label` and whose answer leads to the point and
the state that `next` gives. -/
def Tracks (prog : τ → Prog L ι σ ε α) (next : ι → σ → τ × σ) (label : Option L) :
    Prog L ι σ ε α → Prop
  | .done _ => label = none
  | .halt => label = none
  | .step l u k => label = some l ∧ ∀ i s, u i s = (next i s).2 ∧ k i s = prog (next i s).1
  | .fork _ _ => False

def Mechanical (prog : τ → Prog L ι σ ε α) (label : τ → Option L) (next : τ → ι → σ → τ × σ) :
    Prop :=
  ∀ t, Tracks prog (next t) (label t) (prog t)

section Machines

variable {label : τ → Option L} {next : τ → ι → σ → τ × σ}

theorem tracks_callBind {next : ι → σ → τ × σ} {l : L} {f : ι → σ → Except ε β × σ}
    {k : β → Prog L ι σ ε α}
    (h : ∀ i s, (f i s).2 = (next i s).2 ∧ (Prog.done (f i s).1).bind k = prog (next i s).1) :
    Tracks prog next (some l) ((Prog.call l f).bind k) :=
  ⟨rfl, h⟩

theorem Mechanical.label_prog (h : Mechanical prog label next) (t : τ) :
    (prog t).label? = label t := by
  have ht := h t
  cases hprog : prog t with
  | done r =>
    rw [hprog] at ht
    exact ht.symm
  | halt =>
    rw [hprog] at ht
    exact ht.symm
  | step l u k =>
    rw [hprog] at ht
    exact ht.1.symm
  | fork c k =>
    rw [hprog] at ht
    exact ht.elim

theorem Mechanical.step (h : Mechanical prog label next) (hp : p.threads = ts.map prog) (j : ℕ)
    (i : ι) :
    (∃ t l, ts[j]? = some t ∧ label t = some l ∧ p.label? j = some l ∧
        (p.step j i).state = (next t i p.state).2 ∧
        (p.step j i).threads = (ts.set j (next t i p.state).1).map prog) ∨
      (p.label? j = none ∧ p.step j i = p) := by
  have hpoint : ∀ {q : Prog L ι σ ε α}, p.threads[j]? = some q → ∃ t, ts[j]? = some t ∧ prog t = q := by
    intro q hq
    rw [hp, List.getElem?_map] at hq
    exact Option.map_eq_some_iff.mp hq
  rcases p.step_cases j i with ⟨l, u, k, ht, hl, hs⟩ | ⟨c, k, ht, -⟩ | hnone
  · obtain ⟨t, htj, hprog⟩ := hpoint ht
    have htrack := h t
    rw [hprog] at htrack
    obtain ⟨hu, hk⟩ := htrack.2 i p.state
    refine .inl ⟨t, l, htj, htrack.1, hl, by rw [hs, ← hu], ?_⟩
    rw [hs, List.map_set, ← hk, ← hp]
  · obtain ⟨t, -, hprog⟩ := hpoint ht
    have htrack := h t
    rw [hprog] at htrack
    exact htrack.elim
  · exact .inr hnone

end Machines

end Interleaving
