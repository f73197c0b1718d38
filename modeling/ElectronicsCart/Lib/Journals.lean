import ElectronicsCart.Lib.Histories

/-!
# Journals

A journal beside the state records every call that was made: its caller, its label, the input it
read and the state it was made in, newest first.  A condition on the order of the calls is then a
condition on the state before a call.  Without the journal the runs of a pool are the same
(`Pool.journaled_run`).
-/

namespace Interleaving

variable {L ι σ ε α β : Type}

structure Entry (L ι σ : Type) where
  caller : ℕ
  label : L
  input : ι
  before : σ

structure Journaled (L ι σ : Type) where
  state : σ
  journal : List (Entry L ι σ) := []

namespace Journaled

def record (t : Journaled L ι σ) (caller : ℕ) (l : L) (i : ι) (s : σ) : Journaled L ι σ :=
  ⟨s, ⟨caller, l, i, t.state⟩ :: t.journal⟩

def own (caller : ℕ) (t : Journaled L ι σ) : List (Entry L ι σ) :=
  t.journal.filter fun e => e.caller == caller

variable {t : Journaled L ι σ} {caller c : ℕ} {l : L} {i : ι} {s : σ}

@[simp] theorem state_record : (t.record caller l i s).state = s := rfl

@[simp] theorem journal_record :
    (t.record caller l i s).journal = ⟨caller, l, i, t.state⟩ :: t.journal := rfl

@[simp] theorem own_record_self :
    (t.record caller l i s).own caller = ⟨caller, l, i, t.state⟩ :: t.own caller := by
  simp [own]

theorem own_record_of_ne (h : c ≠ caller) : (t.record caller l i s).own c = t.own c := by
  simp [own, Ne.symm h]

theorem mem_own {e : Entry L ι σ} : e ∈ t.own c ↔ e ∈ t.journal ∧ e.caller = c := by
  simp [own]

/-- The entries with the states that the calls left, newest first. -/
def trace (t : Journaled L ι σ) : List (Entry L ι σ × σ) :=
  t.journal.zip (t.state :: t.journal.map Entry.before)

def turns (caller : ℕ) (t : Journaled L ι σ) : List (Entry L ι σ × σ) :=
  t.trace.filter fun x => x.1.caller == caller

@[simp] theorem trace_record :
    (t.record caller l i s).trace = (⟨caller, l, i, t.state⟩, s) :: t.trace := rfl

@[simp] theorem turns_record_self :
    (t.record caller l i s).turns caller = (⟨caller, l, i, t.state⟩, s) :: t.turns caller := by
  simp [turns]

theorem turns_record_of_ne (h : c ≠ caller) : (t.record caller l i s).turns c = t.turns c := by
  simp [turns, Ne.symm h]

theorem mem_turns {x : Entry L ι σ × σ} : x ∈ t.turns c ↔ x ∈ t.trace ∧ x.1.caller = c := by
  simp [turns]

end Journaled

namespace Prog

/-- The program with a journal of its calls; the programs it forks sign as it does. -/
def journaled (caller : ℕ) : Prog L ι σ ε α → Prog (ℕ × L) ι (Journaled L ι σ) ε α
  | .done r => .done r
  | .halt => .halt
  | .step l u k => .step (caller, l) (fun i t => t.record caller l i (u i t.state))
      fun i t => (k i t.state).journaled caller
  | .fork c k => .fork (c.journaled caller) (k.journaled caller)

variable {caller : ℕ}

theorem journaled_discard (p : Prog L ι σ ε α) :
    (p.discard : Prog L ι σ ε β).journaled caller = (p.journaled caller).discard := by
  induction p with
  | done r => rfl
  | halt => rfl
  | step l u k ih =>
    simp only [discard, journaled, step.injEq, true_and]
    funext i t
    exact ih i t.state
  | fork c k ihc ihk => simp only [discard, journaled, ihc, ihk]

theorem journaled_bind (p : Prog L ι σ ε α) (f : α → Prog L ι σ ε β) :
    (p.bind f).journaled caller = (p.journaled caller).bind fun a => (f a).journaled caller := by
  induction p with
  | done r => cases r <;> rfl
  | halt => rfl
  | step l u k ih =>
    simp only [bind, journaled, step.injEq, true_and]
    funext i t
    exact ih i t.state
  | fork c k _ ihk => simp only [bind, journaled, journaled_discard, ihk]

theorem journaled_attempt (p : Prog L ι σ ε α) :
    p.attempt.journaled caller = (p.journaled caller).attempt := by
  induction p with
  | done r => rfl
  | halt => rfl
  | step l u k ih =>
    simp only [attempt, journaled, step.injEq, true_and]
    funext i t
    exact ih i t.state
  | fork c k _ ihk => simp only [attempt, journaled, journaled_discard, ihk]

theorem journaled_orElse (h : ε → Prog L ι σ ε α) :
    (fun r => (orElse h r).journaled caller) = orElse fun e => (h e).journaled caller := by
  funext r
  cases r <;> rfl

theorem journaled_call (l : L) (f : ι → σ → Except ε α × σ) :
    (call l f).journaled caller =
      call (caller, l) fun i t => ((f i t.state).1, t.record caller l i (f i t.state).2) := rfl

theorem Every.journaled {ok : L → ι → σ → Prop} {ψ : L → ι → σ → σ → Prop} {p : Prog L ι σ ε α}
    (hp : p.Every ok ψ) : (p.journaled caller).Every (fun l i t => ok l.2 i t.state)
      fun l i t t' => ∃ s, l.1 = caller ∧ t' = t.record caller l.2 i s ∧ ψ l.2 i t.state s := by
  induction p with
  | done r => trivial
  | halt => trivial
  | step l u k ih =>
    intro i t ho
    obtain ⟨h, hk⟩ := hp i t.state ho
    exact ⟨⟨_, rfl, rfl, h⟩, ih i t.state hk⟩
  | fork c k ihc ihk => exact ⟨ihc hp.1, ihk hp.2⟩

end Prog

namespace Pool

def journaled (p : Pool L ι σ ε α) : Pool (ℕ × L) ι (Journaled L ι σ) ε α :=
  ⟨p.threads.mapIdx fun j t => t.journaled j, ⟨p.state, []⟩⟩

structure Keeps (p : Pool L ι σ ε α) (q : Pool (ℕ × L) ι (Journaled L ι σ) ε α) : Prop where
  state : q.state.state = p.state
  length : q.threads.length = p.threads.length
  threads : ∀ (j : ℕ) (t : Prog L ι σ ε α), p.threads[j]? = some t →
    ∃ c, q.threads[j]? = some (t.journaled c)

variable {p : Pool L ι σ ε α} {q : Pool (ℕ × L) ι (Journaled L ι σ) ε α}

theorem keeps_journaled (p : Pool L ι σ ε α) : p.Keeps p.journaled := by
  refine ⟨rfl, List.length_mapIdx, fun j t ht => ⟨j, ?_⟩⟩
  rw [journaled, List.getElem?_mapIdx, ht]
  rfl

theorem Keeps.set (h : p.Keeps q) {j : ℕ} {t : Prog L ι σ ε α} {c : ℕ} {s : σ}
    {u : Journaled L ι σ} (hs : u.state = s) :
    Keeps ⟨p.threads.set j t, s⟩ ⟨q.threads.set j (t.journaled c), u⟩ := by
  refine ⟨hs, by simpa using h.length, fun j' t' ht' => ?_⟩
  by_cases hj : j = j'
  · subst hj
    have hlt : j < p.threads.length := by
      simpa using (List.getElem?_eq_some_iff.mp ht').1
    rw [List.getElem?_set_self hlt] at ht'
    obtain rfl := Option.some.inj ht'
    exact ⟨c, List.getElem?_set_self (h.length ▸ hlt)⟩
  · rw [List.getElem?_set_ne hj] at ht'
    obtain ⟨c', hc'⟩ := h.threads j' t' ht'
    exact ⟨c', (List.getElem?_set_ne hj).trans hc'⟩

theorem Keeps.append (h : p.Keeps q) (t : Prog L ι σ ε α) (c : ℕ) :
    Keeps ⟨p.threads ++ [t], p.state⟩ ⟨q.threads ++ [t.journaled c], q.state⟩ := by
  refine ⟨h.state, by simp [h.length], fun j t' ht' => ?_⟩
  rcases Nat.lt_or_ge j p.threads.length with hj | hj
  · rw [List.getElem?_append_left hj] at ht'
    obtain ⟨c', hc'⟩ := h.threads j t' ht'
    exact ⟨c', (List.getElem?_append_left (h.length ▸ hj)).trans hc'⟩
  · rw [List.getElem?_append_right hj] at ht'
    obtain ⟨hlt, rfl⟩ := List.getElem?_eq_some_iff.mp ht'
    have hzero : j - p.threads.length = 0 := by simpa using hlt
    refine ⟨c, ?_⟩
    rw [List.getElem?_append_right (h.length ▸ hj), h.length]
    simp [hzero]

theorem Keeps.none (h : p.Keeps q) {j : ℕ} (hj : p.threads[j]? = none) : q.threads[j]? = none := by
  rw [List.getElem?_eq_none_iff] at hj ⊢
  exact h.length ▸ hj

theorem Keeps.step (h : p.Keeps q) (j : ℕ) (i : ι) : (p.step j i).Keeps (q.step j i) := by
  unfold Pool.step
  cases hj : p.threads[j]? with
  | none =>
    rw [h.none hj]
    exact h
  | some t =>
    obtain ⟨c, hc⟩ := h.threads j t hj
    rw [hc]
    cases t with
    | done r => exact h
    | halt => exact h
    | step l u k =>
      rw [← h.state]
      exact h.set rfl
    | fork child k =>
      have hset : Keeps ⟨p.threads.set j k, p.state⟩ ⟨q.threads.set j (k.journaled c), q.state⟩ :=
        h.set h.state
      exact hset.append child c

theorem Keeps.run (h : p.Keeps q) (sched : List (ℕ × ι)) : (p.run sched).Keeps (q.run sched) := by
  induction sched generalizing p q with
  | nil => exact h
  | cons a rest ih => exact ih (h.step a.1 a.2)

theorem journaled_run (p : Pool L ι σ ε α) (sched : List (ℕ × ι)) :
    (p.run sched).Keeps (p.journaled.run sched) :=
  p.keeps_journaled.run sched

theorem Keeps.done (h : p.Keeps q) {j : ℕ} {r : Except ε α} (hr : p.threads[j]? = some (.done r)) :
    q.threads[j]? = some (.done r) := by
  obtain ⟨c, hc⟩ := h.threads j _ hr
  exact hc

theorem Keeps.allows {ok : L → ι → σ → Prop} (h : p.Keeps q) {j : ℕ} {i : ι} (ha : p.Allows ok j i) :
    q.Allows (fun l i t => ok l.2 i t.state) j i := by
  unfold Allows label? at ha ⊢
  cases hj : p.threads[j]? with
  | none =>
    rw [h.none hj]
    trivial
  | some t =>
    obtain ⟨c, hc⟩ := h.threads j t hj
    rw [hj] at ha
    rw [hc]
    cases t with
    | step l u k =>
      show ok l i q.state.state
      rw [h.state]
      exact ha
    | done r => trivial
    | halt => trivial
    | fork child k => trivial

theorem Keeps.admits {ok : L → ι → σ → Prop} (h : p.Keeps q) {sched : List (ℕ × ι)}
    (ha : p.Admits ok sched) : q.Admits (fun l i t => ok l.2 i t.state) sched := by
  induction sched generalizing p q with
  | nil => trivial
  | cons a rest ih => exact ⟨h.allows ha.1, ih (h.step a.1 a.2) ha.2⟩

/-! ### A program by itself -/

/-- The calls that the program made, newest first. -/
def callsOf (q : Prog L ι σ ε α) (s : σ) (inputs : List ι) : List (Entry L ι σ) :=
  (solo (q.journaled 0) ⟨s, []⟩ inputs).state.journal

theorem keeps_solo (q : Prog L ι σ ε α) (s : σ) (inputs : List ι) :
    (solo q s inputs).Keeps (solo (q.journaled 0) ⟨s, []⟩ inputs) :=
  (⟨[q], s⟩ : Pool L ι σ ε α).journaled_run _

/-- A request with what its calls read, and the state before it. -/
structure Session (κ ι σ : Type) where
  request : κ
  inputs : List ι
  before : σ

section Sessions

variable {κ : Type}

def Session.after (prog : κ → Prog L ι σ ε α) (x : Session κ ι σ) : σ :=
  (solo (prog x.request) x.before x.inputs).state

def Session.calls (prog : κ → Prog L ι σ ε α) (x : Session κ ι σ) : List (Entry L ι σ) :=
  callsOf (prog x.request) x.before x.inputs

/-- Requests one after another, each of which ends before the next one starts. -/
inductive Sessions (prog : κ → Prog L ι σ ε α) (s : σ) : List (Session κ ι σ) → σ → Prop
  | nil : Sessions prog s [] s
  | snoc {xs : List (Session κ ι σ)} {t : σ} {q : κ} {inputs : List ι} {r : Except ε α} :
      Sessions prog s xs t → (solo (prog q) t inputs).result? = some r →
        Sessions prog s (xs ++ [⟨q, inputs, t⟩]) (solo (prog q) t inputs).state

theorem Sessions.ended {prog : κ → Prog L ι σ ε α} {s s' : σ} {xs : List (Session κ ι σ)}
    (h : Sessions prog s xs s') {x : Session κ ι σ} (hx : x ∈ xs) :
    ∃ r, (solo (prog x.request) x.before x.inputs).result? = some r := by
  induction h with
  | nil => cases hx
  | snoc _ hr ih =>
    rcases List.mem_append.mp hx with hx | hx
    · exact ih hx
    · obtain rfl := List.mem_singleton.mp hx
      exact ⟨_, hr⟩

theorem Sessions.invariant {prog : κ → Prog L ι σ ε α} {s s' : σ} {xs : List (Session κ ι σ)}
    {P : σ → Prop} (h : Sessions prog s xs s') (hs : P s)
    (hstep : ∀ q t inputs r, (solo (prog q) t inputs).result? = some r → P t →
      P (solo (prog q) t inputs).state) : P s' := by
  induction h with
  | nil => exact hs
  | snoc _ hr ih => exact hstep _ _ _ _ hr ih

end Sessions

end Pool

/-! ### Programs that fork nothing -/

/-- Nothing is left running beside the program. -/
def Prog.Sequential : Prog L ι σ ε α → Prop
  | .done _ => True
  | .halt => True
  | .step _ _ k => ∀ i s, Sequential (k i s)
  | .fork _ _ => False

namespace Prog

theorem Sequential.bind {p : Prog L ι σ ε α} {f : α → Prog L ι σ ε β} (hp : p.Sequential)
    (hf : ∀ a, (f a).Sequential) : (p.bind f).Sequential := by
  induction p with
  | done r =>
    cases r with
    | ok a => exact hf a
    | error e => trivial
  | halt => trivial
  | step l u k ih => exact fun i s => ih i s (hp i s)
  | fork c k => exact hp.elim

theorem Sequential.journaled {p : Prog L ι σ ε α} {caller : ℕ} (hp : p.Sequential) :
    (p.journaled caller).Sequential := by
  induction p with
  | done r => trivial
  | halt => trivial
  | step l u k ih => exact fun i t => ih i t.state (hp i t.state)
  | fork c k => exact hp.elim

theorem Sequential.attempt {p : Prog L ι σ ε α} (hp : p.Sequential) : p.attempt.Sequential := by
  induction p with
  | done r => trivial
  | halt => trivial
  | step l u k ih => exact fun i s => ih i s (hp i s)
  | fork c k => exact hp.elim

theorem Sequential.tryCatch {p : Prog L ι σ ε α} {h : ε → Prog L ι σ ε α} (hp : p.Sequential)
    (hh : ∀ e, (h e).Sequential) : (tryCatch p h).Sequential := by
  refine hp.attempt.bind fun r => ?_
  cases r with
  | ok a => trivial
  | error e => exact hh e

theorem Sequential.andFinally {p : Prog L ι σ ε α} {q : Prog L ι σ ε Unit} (hp : p.Sequential)
    (hq : q.Sequential) : (p.andFinally q).Sequential :=
  hp.attempt.bind fun _ => hq.bind fun _ => trivial

theorem sequential_call (l : L) (f : ι → σ → Except ε β × σ) :
    (call l f).Sequential := fun _ _ => trivial

theorem sequential_orThrow (e : ε) (o : Option α) :
    (orThrow e o : Prog L ι σ ε α).Sequential := by
  cases o <;> trivial

end Prog

theorem Holds.of_sequential {W : World L ι σ} {C D : Discipline L ι σ} {P : σ → Prop}
    {p : Prog L ι σ ε α} {s : σ} (hP : ∀ t t', D.rely t t' → P t → P t') (hseq : p.Sequential)
    (hp : p.Every (fun l i t => W.ok l i t ∧ W.inv t) fun l i t t' =>
      P t → W.inv t' ∧ D.guar l i t t' ∧ P t')
    (hs : P s) : Holds W C D (fun _ t => P t) p s := by
  induction p generalizing s with
  | done r => exact fun t ht _ => hP s t ht hs
  | halt => trivial
  | step l u k ih =>
    intro t ht hi i ho
    obtain ⟨hcall, hk⟩ := hp i t ⟨ho, hi⟩
    obtain ⟨hinv, hg, hPk⟩ := hcall (hP s t ht hs)
    exact ⟨hinv, hg, ih i t (hseq i t) hk hPk⟩
  | fork c k => exact hseq.elim

/-! ### Threads with disciplines of their own -/

def Discipline.silent : Discipline L ι σ where
  rely _ _ := True
  guar _ _ _ _ := False
  refl _ := trivial
  trans _ _ := trivial

theorem Holds.zoom_silent {M τ : Type} {W : World L ι σ} {D : Discipline L ι σ} {V : World M ι τ}
    {E : Discipline M ι τ} {label : L → M} {get : τ → σ} {set : σ → τ → τ}
    {Q : Except ε α → σ → Prop} {p : Prog L ι σ ε α} {t : τ} (hget : ∀ s t, get (set s t) = s)
    (hok : ∀ l i t, V.ok (label l) i t → W.ok l i (get t)) (hinv : ∀ t, V.inv t → W.inv (get t))
    (hrely : ∀ t t', E.rely t t' → D.rely (get t) (get t'))
    (hguar : ∀ l i t s', V.inv t → V.ok (label l) i t → W.inv s' → D.guar l i (get t) s' →
      V.inv (set s' t) ∧ E.guar (label l) i t (set s' t))
    (h : Holds W .silent D Q p (get t)) :
    Holds V .silent E (fun r t => Q r (get t)) (p.zoom label get set) t := by
  induction p generalizing D E Q t with
  | done r => exact fun t' ht hi => h (get t') (hrely t t' ht) (hinv t' hi)
  | halt => trivial
  | step l u k ih =>
    intro t' ht hi i ho
    obtain ⟨hinv', hg, hk⟩ := h (get t') (hrely t t' ht) (hinv t' hi) i (hok l i t' ho)
    obtain ⟨hi', hg'⟩ := hguar l i t' _ hi ho hinv' hg
    exact ⟨hi', hg', ih i (get t') hrely hguar ((hget _ t').symm ▸ hk)⟩
  | fork c k ihc ihk =>
    intro t' ht hi
    obtain ⟨hc, hk⟩ := h (get t') (hrely t t' ht) (hinv t' hi)
    have hchild := ihc (D := .silent) (E := .silent) (t := t') (fun _ _ _ => trivial)
      (fun _ _ _ _ _ _ _ hg => hg.elim) hc
    exact ⟨hchild, ihk hrely hguar hk⟩

theorem Holds.journaled {W : World L ι σ} {D : Discipline L ι σ}
    {V : World (ℕ × L) ι (Journaled L ι σ)} {E : Discipline (ℕ × L) ι (Journaled L ι σ)}
    {P : Journaled L ι σ → Prop} {Q : Except ε α → σ → Prop} {p : Prog L ι σ ε α} {c : ℕ}
    {t : Journaled L ι σ} (hok : ∀ l i t, V.ok (c, l) i t → W.ok l i t.state)
    (hinv : ∀ t, V.inv t → W.inv t.state)
    (hrely : ∀ t t', E.rely t t' → D.rely t.state t'.state)
    (hP : ∀ t t', E.rely t t' → P t → P t')
    (hguar : ∀ l i t s', V.inv t → V.ok (c, l) i t → W.inv s' → P t → D.guar l i t.state s' →
      V.inv (t.record c l i s') ∧ E.guar (c, l) i t (t.record c l i s') ∧ P (t.record c l i s'))
    (h : Holds W .silent D Q p t.state) (ht : P t) :
    Holds V .silent E (fun r t => Q r t.state ∧ P t) (p.journaled c) t := by
  induction p generalizing D E P Q t with
  | done r => exact fun t' hr hi => ⟨h t'.state (hrely t t' hr) (hinv t' hi), hP t t' hr ht⟩
  | halt => trivial
  | step l u k ih =>
    intro t' hr hi i ho
    obtain ⟨hinv', hg, hk⟩ := h t'.state (hrely t t' hr) (hinv t' hi) i (hok l i t' ho)
    obtain ⟨hi', hg', hP'⟩ := hguar l i t' _ hi ho hinv' (hP t t' hr ht) hg
    exact ⟨hi', hg', ih i t'.state hrely hP hguar hk hP'⟩
  | fork child k ihc ihk =>
    intro t' hr hi
    obtain ⟨hc, hk⟩ := h t'.state (hrely t t' hr) (hinv t' hi)
    have hchild := ihc (D := .silent) (E := .silent) (P := fun _ => True) (t := t') (fun _ _ _ => trivial)
      (fun _ _ _ h => h) (fun _ _ _ _ _ _ _ _ hg => hg.elim) hc trivial
    exact ⟨hchild.mono fun _ _ _ _ => trivial, ihk hrely hP hguar hk (hP t t' hr ht)⟩

theorem Pool.run_each {W : World L ι σ} {D : ℕ → Discipline L ι σ}
    {Q : ℕ → Except ε α → σ → Prop} {p : Pool L ι σ ε α} {sched : List (ℕ × ι)}
    (hrely : ∀ {j j' l i s s'}, j ≠ j' → W.inv s → W.ok l i s → W.inv s' →
      (D j).guar l i s s' → (D j').rely s s')
    (hp : ∀ j t, p.threads[j]? = some t → Holds W .silent (D j) (Q j) t p.state)
    (hi : W.inv p.state) (ha : p.Admits W.ok sched) :
    W.inv (p.run sched).state ∧ ∀ j r, j < p.threads.length →
      (p.run sched).threads[j]? = some (.done r) → Q j r (p.run sched).state := by
  let n := p.threads.length
  let D' : ℕ → Discipline L ι σ := fun j => if j < n then D j else .silent
  have hc : Pool.Compatible W .silent D' (fun j r t => j < n → Q j r t) n := by
    refine ⟨fun {j j' l i s s'} hne hi ho hi' hg => ?_, fun {j} hj => if_neg (Nat.not_lt.mpr hj), ?_⟩
    · by_cases hj' : j' < n
      · by_cases hj : j < n
        · simp only [D', if_pos hj] at hg
          simp only [D', if_pos hj']
          exact hrely hne hi ho hi' hg
        · simp only [D', if_neg hj] at hg
          exact hg.elim
      · simp only [D', if_neg hj']
        trivial
    · exact fun r s hj hlt => absurd hlt (Nat.not_lt.mpr hj)
  have hsafe : p.Safe W .silent D' fun j r t => j < n → Q j r t := by
    refine ⟨hi, fun j t ht => ?_⟩
    have hlt : j < n := (List.getElem?_eq_some_iff.mp ht).1
    simp only [D', if_pos hlt]
    exact (hp j t ht).mono fun r t _ hQ _ => hQ
  have hend := hsafe.run hc (Nat.le_refl _) ha
  exact ⟨hend.inv, fun j r hlt hr => hend.post hr hlt⟩

end Interleaving
