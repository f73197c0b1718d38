import ElectronicsCart.Lib.Interference

/-!
# Debts of a pool

A property that a program breaks in one call and restores in a later one does not hold of
every state, but it holds when all programs have ended.  `Reaches goal` says that a program
cannot end before `goal` held after one of its calls; `Pays Due` says that each call that makes
`Due` true leaves a program that reaches a state where it is not.  A pool of such programs has,
in every state where `Due` holds, a thread that still has to settle it (`Pool.debt_run`).
-/

namespace Interleaving

variable {L ι σ ε α β : Type}

namespace Prog

/-- Whatever the admitted inputs, the program makes a call that leaves a state in `goal`. -/
def Reaches (ok : L → ι → σ → Prop) (goal : σ → Prop) : Prog L ι σ ε α → Prop
  | .done _ => False
  | .halt => False
  | .step l u k => ∀ i s, ok l i s → goal (u i s) ∨ Reaches ok goal (k i s)
  | .fork _ k => Reaches ok goal k

/-- A call after which `Due` holds newly is followed by one after which it does not. -/
def Pays (ok : L → ι → σ → Prop) (Due : σ → Prop) : Prog L ι σ ε α → Prop
  | .done _ => True
  | .halt => True
  | .step l u k => ∀ i s, ok l i s →
      (Due (u i s) → Due s ∨ Reaches ok (fun t => ¬ Due t) (k i s)) ∧ Pays ok Due (k i s)
  | .fork c k => Pays ok Due c ∧ Pays ok Due k

variable {ok : L → ι → σ → Prop} {goal Due : σ → Prop}

theorem Reaches.bind {p : Prog L ι σ ε α} {f : α → Prog L ι σ ε β} (h : p.Reaches ok goal) :
    (p.bind f).Reaches ok goal := by
  induction p with
  | done r => exact h.elim
  | halt => exact h.elim
  | step l u k ih => exact fun i s ho => (h i s ho).imp_right (ih i s)
  | fork c k _ ihk => exact ihk h

theorem Reaches.attempt {p : Prog L ι σ ε α} (h : p.Reaches ok goal) :
    p.attempt.Reaches ok goal := by
  induction p with
  | done r => exact h.elim
  | halt => exact h.elim
  | step l u k ih => exact fun i s ho => (h i s ho).imp_right (ih i s)
  | fork c k _ ihk => exact ihk h

theorem Reaches.discard {p : Prog L ι σ ε α} (h : p.Reaches ok goal) :
    (p.discard : Prog L ι σ ε β).Reaches ok goal := by
  induction p with
  | done r => exact h.elim
  | halt => exact h.elim
  | step l u k ih => exact fun i s ho => (h i s ho).imp_right (ih i s)
  | fork c k _ ihk => exact ihk h

theorem reaches_callBind {l : L} {f : ι → σ → Except ε β × σ} {k : β → Prog L ι σ ε α}
    (h : ∀ i s, ok l i s → ∃ b, (f i s).1 = .ok b ∧ (goal (f i s).2 ∨ (k b).Reaches ok goal)) :
    ((call l f).bind k).Reaches ok goal := by
  intro i s ho
  obtain ⟨b, hb, hk⟩ := h i s ho
  change goal (f i s).2 ∨ ((Prog.done (f i s).1).bind k).Reaches ok goal
  rwa [hb]

theorem Pays.of_every {p : Prog L ι σ ε α} (h : p.Every ok fun _ _ s s' => Due s' → Due s) :
    p.Pays ok Due := by
  induction p with
  | done r => trivial
  | halt => trivial
  | step l u k ih => exact fun i s ho => ⟨fun hd => .inl ((h i s ho).1 hd), ih i s (h i s ho).2⟩
  | fork c k ihc ihk => exact ⟨ihc h.1, ihk h.2⟩

theorem Pays.discard {p : Prog L ι σ ε α} (h : p.Pays ok Due) :
    (p.discard : Prog L ι σ ε β).Pays ok Due := by
  induction p with
  | done r => trivial
  | halt => trivial
  | step l u k ih =>
    intro i s ho
    exact ⟨fun hd => ((h i s ho).1 hd).imp_right Reaches.discard, ih i s (h i s ho).2⟩
  | fork c k ihc ihk => exact ⟨ihc h.1, ihk h.2⟩

theorem Pays.bind {p : Prog L ι σ ε α} {f : α → Prog L ι σ ε β} (h : p.Pays ok Due)
    (hf : ∀ a, (f a).Pays ok Due) : (p.bind f).Pays ok Due := by
  induction p with
  | done r =>
    cases r with
    | ok a => exact hf a
    | error e => trivial
  | halt => trivial
  | step l u k ih =>
    intro i s ho
    exact ⟨fun hd => ((h i s ho).1 hd).imp_right Reaches.bind, ih i s (h i s ho).2⟩
  | fork c k _ ihk => exact ⟨h.1.discard, ihk h.2⟩

theorem Pays.attempt {p : Prog L ι σ ε α} (h : p.Pays ok Due) : p.attempt.Pays ok Due := by
  induction p with
  | done r => trivial
  | halt => trivial
  | step l u k ih =>
    intro i s ho
    exact ⟨fun hd => ((h i s ho).1 hd).imp_right Reaches.attempt, ih i s (h i s ho).2⟩
  | fork c k _ ihk => exact ⟨h.1.discard, ihk h.2⟩

theorem Pays.andFinally {p : Prog L ι σ ε α} {q : Prog L ι σ ε Unit} (hp : p.Pays ok Due)
    (hq : q.Pays ok Due) : (p.andFinally q).Pays ok Due :=
  hp.attempt.bind fun _ => hq.bind fun _ => trivial

theorem pays_callBind {l : L} {f : ι → σ → Except ε β × σ} {k : β → Prog L ι σ ε α}
    (h : ∀ i s, ok l i s → match (f i s).1 with
      | .ok b => (Due (f i s).2 → Due s ∨ (k b).Reaches ok fun t => ¬ Due t) ∧ (k b).Pays ok Due
      | .error _ => Due (f i s).2 → Due s) :
    ((call l f).bind k).Pays ok Due := by
  intro i s ho
  have hk := h i s ho
  change (Due (f i s).2 → Due s ∨ ((Prog.done (f i s).1).bind k).Reaches ok fun t => ¬ Due t) ∧
    ((Prog.done (f i s).1).bind k).Pays ok Due
  cases hf : (f i s).1 with
  | ok b => rwa [hf] at hk
  | error e =>
    rw [hf] at hk
    exact ⟨fun hd => .inl (hk hd), trivial⟩

end Prog

namespace Pool

variable {ok : L → ι → σ → Prop} {inv Due : σ → Prop} {p : Pool L ι σ ε α}

/-- The invariant holds, all threads keep it and pay, and a debt has a thread that settles it. -/
structure Solvent (ok : L → ι → σ → Prop) (inv Due : σ → Prop) (p : Pool L ι σ ε α) : Prop where
  holds : inv p.state
  keeps : ∀ t ∈ p.threads, t.Every (fun l i s => ok l i s ∧ inv s) fun _ _ _ s' => inv s'
  pays : ∀ t ∈ p.threads, t.Pays (fun l i s => ok l i s ∧ inv s) Due
  debt : Due p.state →
    ∃ t ∈ p.threads, t.Reaches (fun l i s => ok l i s ∧ inv s) fun s => ¬ Due s

theorem Solvent.step (h : p.Solvent ok inv Due) {j : ℕ} {i : ι} (ha : p.Allows ok j i) :
    (p.step j i).Solvent ok inv Due := by
  rcases p.step_cases j i with ⟨l, u, k, ht, hl, hs⟩ | ⟨c, k, ht, hs⟩ | ⟨-, hs⟩
  · have ho : ok l i p.state ∧ inv p.state := ⟨allows_label ha hl, h.holds⟩
    have hmem := List.mem_of_getElem? ht
    obtain ⟨hkeep, hkeeps⟩ := h.keeps _ hmem i p.state ho
    obtain ⟨hdue, hpays⟩ := h.pays _ hmem i p.state ho
    have hlt := (List.getElem?_eq_some_iff.mp ht).1
    have hself : k i p.state ∈ p.threads.set j (k i p.state) := List.mem_set hlt _
    rw [hs]
    refine ⟨hkeep, ?_, ?_, fun hd => ?_⟩
    · intro t htm
      rcases List.mem_or_eq_of_mem_set htm with h' | rfl
      · exact h.keeps t h'
      · exact hkeeps
    · intro t htm
      rcases List.mem_or_eq_of_mem_set htm with h' | rfl
      · exact h.pays t h'
      · exact hpays
    · rcases hdue hd with hold | hnew
      · -- the debt is old: the thread that settles it moved just now, or still stands
        obtain ⟨t, htm, hr⟩ := h.debt hold
        obtain ⟨j', hj'⟩ := List.mem_iff_getElem?.mp htm
        by_cases hj : j = j'
        · subst hj
          obtain rfl := Option.some.inj (ht.symm.trans hj')
          exact ⟨_, hself, (hr i p.state ho).resolve_left (not_not.mpr hd)⟩
        · refine ⟨t, List.mem_of_getElem? (i := j') ?_, hr⟩
          rw [List.getElem?_set_ne hj, hj']
      · exact ⟨_, hself, hnew⟩
  · have hmem := List.mem_of_getElem? ht
    obtain ⟨hkc, hkk⟩ := h.keeps _ hmem
    obtain ⟨hpc, hpk⟩ := h.pays _ hmem
    have hlt := (List.getElem?_eq_some_iff.mp ht).1
    have hself : k ∈ p.threads.set j k ++ [c] :=
      List.mem_append_left _ (List.mem_set hlt _)
    have hcases : ∀ t ∈ p.threads.set j k ++ [c], t ∈ p.threads ∨ t = k ∨ t = c := by
      intro t htm
      rcases List.mem_append.mp htm with h' | h'
      · rcases List.mem_or_eq_of_mem_set h' with h'' | rfl
        · exact .inl h''
        · exact .inr (.inl rfl)
      · exact .inr (.inr (List.mem_singleton.mp h'))
    rw [hs]
    refine ⟨h.holds, ?_, ?_, fun hd => ?_⟩
    · intro t htm
      rcases hcases t htm with h' | rfl | rfl
      · exact h.keeps t h'
      · exact hkk
      · exact hkc
    · intro t htm
      rcases hcases t htm with h' | rfl | rfl
      · exact h.pays t h'
      · exact hpk
      · exact hpc
    · obtain ⟨t, htm, hr⟩ := h.debt hd
      obtain ⟨j', hj'⟩ := List.mem_iff_getElem?.mp htm
      by_cases hj : j = j'
      · subst hj
        obtain rfl := Option.some.inj (ht.symm.trans hj')
        exact ⟨k, hself, hr⟩
      · refine ⟨t, List.mem_append_left _ (List.mem_of_getElem? (i := j') ?_), hr⟩
        rw [List.getElem?_set_ne hj, hj']
  · rw [hs]
    exact h

theorem debt_run {sched : List (ℕ × ι)} (h : p.Solvent ok inv Due) (ha : p.Admits ok sched) :
    (p.run sched).Solvent ok inv Due := by
  induction sched generalizing p with
  | nil => exact h
  | cons a rest ih => exact ih (h.step ha.1) ha.2

theorem Solvent.settled (h : p.Solvent ok inv Due) (hq : p.quiescent = true) : ¬ Due p.state := by
  intro hd
  obtain ⟨t, ht, hr⟩ := h.debt hd
  have hf := List.all_eq_true.mp hq t ht
  cases t with
  | done r => exact hr
  | halt => exact hr
  | step l u k => cases hf
  | fork c k => cases hf

end Pool

/-! ### Debts settled by a judgement

Where a program needs to know what its earlier calls found, the debt is settled by a judgement:
the call that makes `Due` true leaves a program that ends with `goal`.
-/

namespace Prog

variable {W : World L ι σ} {D : Discipline L ι σ} {Due goal : σ → Prop}

/-- Every call keeps the invariant and the guarantee, and one after which `Due` holds newly leaves
a program that ends with `goal`. -/
def Incurs (W : World L ι σ) (D : Discipline L ι σ) (Due goal : σ → Prop) : Prog L ι σ ε α → Prop
  | .done _ => True
  | .halt => True
  | .step l u k => ∀ i s, W.ok l i s → W.inv s → W.inv (u i s) ∧ D.guar l i s (u i s) ∧
      (Due (u i s) → Due s ∨ Holds W D D (fun _ => goal) (k i s) (u i s)) ∧ Incurs W D Due goal (k i s)
  | .fork c k => Incurs W D Due goal c ∧ Incurs W D Due goal k

/-- Every call keeps the invariant, the guarantee and `goal`, and makes nothing due. -/
def Calm (W : World L ι σ) (D : Discipline L ι σ) (Due goal : σ → Prop) (p : Prog L ι σ ε α) : Prop :=
  p.Every (fun l i s => W.ok l i s ∧ W.inv s) fun l i s s' =>
    W.inv s' ∧ D.guar l i s s' ∧ (Due s' → Due s) ∧ (goal s → goal s')

theorem Calm.incurs {p : Prog L ι σ ε α} (h : p.Calm W D Due goal) : p.Incurs W D Due goal := by
  induction p with
  | done r => trivial
  | halt => trivial
  | step l u k ih =>
    intro i s ho hi
    obtain ⟨⟨hinv, hg, hdue, -⟩, hk⟩ := h i s ⟨ho, hi⟩
    exact ⟨hinv, hg, fun hd => .inl (hdue hd), ih i s hk⟩
  | fork c k ihc ihk => exact ⟨ihc h.1, ihk h.2⟩

theorem Calm.holds {p : Prog L ι σ ε α} {s : σ} (hgoal : ∀ s t, D.rely s t → goal s → goal t)
    (h : p.Calm W D Due goal) (hs : goal s) : Holds W D D (fun _ => goal) p s := by
  refine Holds.of_every hgoal (h.mono fun l i s s' _ hc => ?_) hs
  exact ⟨hc.1, hc.2.1, hc.2.1, hc.2.2.2⟩

theorem Calm.callBind {Q : Except ε α → σ → Prop} {l : L} {f : ι → σ → Except ε β × σ}
    {k : β → Prog L ι σ ε α} {s : σ} (hgoal : ∀ s t, D.rely s t → goal s → goal t)
    (hQ : ∀ r t, goal t → Q r t) (hcalm : ((call l f).bind k).Calm W D Due goal)
    (h : ∀ t, D.rely s t → W.inv t → ¬ goal t → ∀ i, W.ok l i t →
      ∃ b, (f i t).1 = .ok b ∧ Holds W D D Q (k b) (f i t).2) :
    Holds W D D Q ((call l f).bind k) s := by
  refine Holds.callBind fun t ht hi i ho => ?_
  obtain ⟨⟨hinv, hg, -, hkeep⟩, hrest⟩ := hcalm i t ⟨ho, hi⟩
  refine ⟨hinv, hg, ?_⟩
  by_cases hgt : goal t
  · have hgu : goal (f i t).2 := hkeep hgt
    cases hf : (f i t).1 with
    | ok b =>
      change ((Prog.done (f i t).1).bind k).Calm W D Due goal at hrest
      rw [hf] at hrest
      exact Holds.mono (fun r t _ => hQ r t) (hrest.holds hgoal hgu)
    | error e => exact fun t' ht' _ => hQ _ t' (hgoal _ t' ht' hgu)
  · obtain ⟨b, hb, hk⟩ := h t ht hi hgt i ho
    rwa [hb]

theorem Incurs.discard {p : Prog L ι σ ε α} (h : p.Incurs W D Due goal) :
    (p.discard : Prog L ι σ ε β).Incurs W D Due goal := by
  induction p with
  | done r => trivial
  | halt => trivial
  | step l u k ih =>
    intro i s ho hi
    obtain ⟨hinv, hg, hdue, hk⟩ := h i s ho hi
    exact ⟨hinv, hg, fun hd => (hdue hd).imp_right Holds.discard, ih i s hk⟩
  | fork c k ihc ihk => exact ⟨ihc h.1, ihk h.2⟩

theorem Incurs.attempt {p : Prog L ι σ ε α} (h : p.Incurs W D Due goal) :
    p.attempt.Incurs W D Due goal := by
  induction p with
  | done r => trivial
  | halt => trivial
  | step l u k ih =>
    intro i s ho hi
    obtain ⟨hinv, hg, hdue, hk⟩ := h i s ho hi
    exact ⟨hinv, hg, fun hd => (hdue hd).imp_right Holds.attempt, ih i s hk⟩
  | fork c k _ ihk => exact ⟨h.1.discard, ihk h.2⟩

theorem Calm.bind_incurs {p : Prog L ι σ ε α} {f : α → Prog L ι σ ε β} (h : p.Calm W D Due goal)
    (hf : ∀ a, (f a).Incurs W D Due goal) : (p.bind f).Incurs W D Due goal := by
  induction p with
  | done r =>
    cases r with
    | ok a => exact hf a
    | error e => trivial
  | halt => trivial
  | step l u k ih =>
    intro i s ho hi
    obtain ⟨⟨hinv, hg, hdue, -⟩, hk⟩ := h i s ⟨ho, hi⟩
    exact ⟨hinv, hg, fun hd => .inl (hdue hd), ih i s hk⟩
  | fork c k _ ihk => exact ⟨(Calm.incurs h.1).discard, ihk h.2⟩

theorem Incurs.bind_calm {p : Prog L ι σ ε α} {f : α → Prog L ι σ ε β}
    (hgoal : ∀ s t, D.rely s t → goal s → goal t) (h : p.Incurs W D Due goal)
    (hf : ∀ a, (f a).Calm W D Due goal) : (p.bind f).Incurs W D Due goal := by
  induction p with
  | done r =>
    cases r with
    | ok a => exact (hf a).incurs
    | error e => trivial
  | halt => trivial
  | step l u k ih =>
    intro i s ho hi
    obtain ⟨hinv, hg, hdue, hk⟩ := h i s ho hi
    refine ⟨hinv, hg, fun hd => (hdue hd).imp_right fun hh => ?_, ih i s hk⟩
    refine Holds.bind (Holds.mono ?_ hh) hinv
    rintro (e | a) t - ht
    · exact ht
    · exact (hf a).holds hgoal ht
  | fork c k _ ihk => exact ⟨h.1.discard, ihk h.2⟩

theorem Incurs.andFinally {p : Prog L ι σ ε α} {q : Prog L ι σ ε Unit}
    (hgoal : ∀ s t, D.rely s t → goal s → goal t) (hp : p.Incurs W D Due goal)
    (hq : q.Calm W D Due goal) : (p.andFinally q).Incurs W D Due goal :=
  hp.attempt.bind_calm hgoal fun _ => hq.bind fun _ => trivial

theorem incurs_callBind {l : L} {f : ι → σ → Except ε β × σ} {k : β → Prog L ι σ ε α}
    (h : ∀ i s, W.ok l i s → W.inv s → W.inv (f i s).2 ∧ D.guar l i s (f i s).2 ∧
      match (f i s).1 with
      | .ok b => (Due (f i s).2 → Due s ∨ Holds W D D (fun _ => goal) (k b) (f i s).2) ∧
          (k b).Incurs W D Due goal
      | .error _ => Due (f i s).2 → Due s) : ((call l f).bind k).Incurs W D Due goal := by
  intro i s ho hi
  obtain ⟨hinv, hg, hk⟩ := h i s ho hi
  refine ⟨hinv, hg, ?_⟩
  change (Due (f i s).2 → Due s ∨ Holds W D D (fun _ => goal) ((Prog.done (f i s).1).bind k) (f i s).2) ∧
    ((Prog.done (f i s).1).bind k).Incurs W D Due goal
  cases hf : (f i s).1 with
  | ok b => rwa [hf] at hk
  | error e =>
    rw [hf] at hk
    exact ⟨fun hd => .inl (hk hd), trivial⟩

theorem Incurs.signed {κ : Type} {caller : κ} {W' : World (κ × L) ι σ} {D' : Discipline (κ × L) ι σ}
    {p : Prog L ι σ ε α} (hok : ∀ l i s, W'.ok (caller, l) i s → W.ok l i s)
    (hinv : ∀ s, W'.inv s ↔ W.inv s) (hrely : ∀ s t, D'.rely s t → D.rely s t)
    (hguar : ∀ l i s s', D.guar l i s s' → D'.guar (caller, l) i s s')
    (h : p.Incurs W D Due goal) : (p.signed caller).Incurs W' D' Due goal := by
  induction p with
  | done r => trivial
  | halt => trivial
  | step l u k ih =>
    intro i s ho hi
    obtain ⟨hinv', hg, hdue, hk⟩ := h i s (hok l i s ho) ((hinv s).mp hi)
    refine ⟨(hinv _).mpr hinv', hguar _ _ _ _ hg, fun hd => (hdue hd).imp_right fun hh => ?_, ih i s hk⟩
    refine Holds.zoom (Q := fun _ => goal) (fun _ _ => rfl) hok (fun t => (hinv t).mp) hrely ?_ hh
    exact fun l i t s' _ hs' hg' => ⟨(hinv s').mpr hs', hguar _ _ _ _ hg'⟩
  | fork c k ihc ihk => exact ⟨ihc h.1, ihk h.2⟩

end Prog

namespace Pool

variable {W : World L ι σ} {D : Discipline L ι σ} {Due goal : σ → Prop} {p : Pool L ι σ ε α}

def ended (p : Pool L ι σ ε α) : Bool := p.threads.all Prog.isDone

/-- Where something is due, a thread is on its way to settle it. -/
structure Answerable (W : World L ι σ) (D : Discipline L ι σ) (Due goal : σ → Prop)
    (p : Pool L ι σ ε α) : Prop where
  inv : W.inv p.state
  incurs : ∀ t ∈ p.threads, t.Incurs W D Due goal
  debt : Due p.state →
    ∃ j : ℕ, ∃ t, p.threads[j]? = some t ∧ Holds W D D (fun _ => goal) t p.state

theorem Answerable.step (hrely : ∀ l i s s', D.guar l i s s' → D.rely s s')
    (h : p.Answerable W D Due goal) {j : ℕ} {i : ι} (ha : p.Allows W.ok j i) :
    (p.step j i).Answerable W D Due goal := by
  rcases p.step_cases j i with ⟨l, u, k, ht, hl, hs⟩ | ⟨c, k, ht, hs⟩ | ⟨-, hs⟩
  · have ho : W.ok l i p.state := allows_label ha hl
    obtain ⟨hinv, hg, hdue, hk⟩ := h.incurs _ (List.mem_of_getElem? ht) i p.state ho h.inv
    have hlt := (List.getElem?_eq_some_iff.mp ht).1
    rw [hs]
    refine ⟨hinv, fun t htm => ?_, fun hd => ?_⟩
    · rcases List.mem_or_eq_of_mem_set htm with h' | rfl
      · exact h.incurs t h'
      · exact hk
    · rcases hdue hd with hold | hnew
      · obtain ⟨j', t, hj', hh⟩ := h.debt hold
        by_cases hj : j = j'
        · subst hj
          obtain rfl := Option.some.inj (ht.symm.trans hj')
          obtain ⟨-, -, hh'⟩ := hh p.state (D.refl _) h.inv i ho
          exact ⟨j, _, List.getElem?_set_self hlt, hh'⟩
        · refine ⟨j', t, ?_, hh.stable (hrely _ _ _ _ hg)⟩
          rw [List.getElem?_set_ne hj, hj']
      · exact ⟨j, _, List.getElem?_set_self hlt, hnew⟩
  · obtain ⟨hc, hk⟩ := h.incurs _ (List.mem_of_getElem? ht)
    have hlt := (List.getElem?_eq_some_iff.mp ht).1
    rw [hs]
    refine ⟨h.inv, fun t htm => ?_, fun hd => ?_⟩
    · rcases List.mem_append.mp htm with htm | htm
      · rcases List.mem_or_eq_of_mem_set htm with h' | rfl
        · exact h.incurs t h'
        · exact hk
      · rw [List.mem_singleton.mp htm]
        exact hc
    · obtain ⟨j', t, hj', hh⟩ := h.debt hd
      by_cases hj : j = j'
      · subst hj
        obtain rfl := Option.some.inj (ht.symm.trans hj')
        refine ⟨j, k, ?_, (hh p.state (D.refl _) h.inv).2⟩
        rw [List.getElem?_append_left (by simpa using hlt), List.getElem?_set_self hlt]
      · have hlt' := (List.getElem?_eq_some_iff.mp hj').1
        refine ⟨j', t, ?_, hh⟩
        rw [List.getElem?_append_left (by simpa using hlt'), List.getElem?_set_ne hj, hj']
  · rw [hs]
    exact h

theorem Answerable.run (hrely : ∀ l i s s', D.guar l i s s' → D.rely s s')
    {sched : List (ℕ × ι)} (h : p.Answerable W D Due goal) (ha : p.Admits W.ok sched) :
    (p.run sched).Answerable W D Due goal := by
  induction sched generalizing p with
  | nil => exact h
  | cons a rest ih => exact ih (h.step hrely ha.1) ha.2

theorem Answerable.settled (h : p.Answerable W D Due goal) (hend : p.ended = true)
    (hd : Due p.state) : goal p.state := by
  obtain ⟨j, t, hj, hh⟩ := h.debt hd
  have hdone := List.all_eq_true.mp hend t (List.mem_of_getElem? hj)
  cases t with
  | done r => exact hh p.state (D.refl _) h.inv
  | _ => cases hdone

end Pool

end Interleaving
