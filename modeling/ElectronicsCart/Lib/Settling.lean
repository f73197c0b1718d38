import ElectronicsCart.Lib.Histories

/-!
# How a program settles

The turns of one thread are the inputs of its calls, each with the state that the call found.
Between two turns the others may do anything to the state, so that the turns are arbitrary.
-/

namespace Interleaving

variable {L ι σ ε α β : Type}

namespace Prog

/-- The program takes just these turns and ends with `r`. -/
def Settles : Prog L ι σ ε α → List (ι × σ) → Except ε α → Prop
  | .done r', turns, r => turns = [] ∧ r' = r
  | .halt, _, _ => False
  | .step _ _ _, [], _ => False
  | .step _ _ k, turn :: turns, r => (k turn.1 turn.2).Settles turns r
  | .fork _ _, [], _ => False
  | .fork _ k, _ :: turns, r => k.Settles turns r

@[simp] theorem settles_done {r r' : Except ε α} {turns : List (ι × σ)} :
    (Prog.done r' : Prog L ι σ ε α).Settles turns r ↔ turns = [] ∧ r' = r := Iff.rfl

theorem Settles.unique {p : Prog L ι σ ε α} {turns : List (ι × σ)} {r r' : Except ε α}
    (h : p.Settles turns r) (h' : p.Settles turns r') : r = r' := by
  induction p generalizing turns with
  | done r₀ => exact h.2.symm.trans h'.2
  | halt => exact h.elim
  | step l u k ih =>
    cases turns with
    | nil => exact h.elim
    | cons turn turns => exact ih turn.1 turn.2 h h'
  | fork c k ihc ihk =>
    cases turns with
    | nil => exact h.elim
    | cons turn turns => exact ihk h h'

def Continues (k : α → Prog L ι σ ε β) (turns : List (ι × σ)) (r : Except ε β) : Except ε α → Prop
  | .ok a => (k a).Settles turns r
  | .error e => turns = [] ∧ r = .error e

theorem settles_none {S : List (ι × σ) → Except ε α → Prop} {k : α → Prog L ι σ ε β} {r : Except ε β}
    {P : Prop} (hS : ∀ {r'}, ¬ S [] r') (hP : ¬ P) : (∃ first rest r', [] = first ++ rest ∧
      S first r' ∧ Continues k rest r r') ↔ P := by
  refine ⟨?_, fun h => absurd h hP⟩
  rintro ⟨first, rest, r', hturns, h, -⟩
  rw [(List.append_eq_nil_iff.mp hturns.symm).1] at h
  exact absurd h hS

theorem split_cons {S S' : List (ι × σ) → Except ε α → Prop} {k : α → Prog L ι σ ε β}
    {turn : ι × σ} {turns : List (ι × σ)} {r : Except ε β} (hnil : ∀ r', ¬ S [] r')
    (hcons : ∀ first r', S (turn :: first) r' ↔ S' first r') :
    (∃ first rest r', turn :: turns = first ++ rest ∧ S first r' ∧ Continues k rest r r') ↔
      ∃ first rest r', turns = first ++ rest ∧ S' first r' ∧ Continues k rest r r' := by
  constructor
  · rintro ⟨first, rest, r', hturns, hfirst, hrest⟩
    cases first with
    | nil => exact absurd hfirst (hnil r')
    | cons turn' first =>
      obtain ⟨rfl, rfl⟩ := List.cons.inj hturns
      exact ⟨first, rest, r', rfl, (hcons first r').mp hfirst, hrest⟩
  · rintro ⟨first, rest, r', rfl, hfirst, hrest⟩
    exact ⟨turn :: first, rest, r', rfl, (hcons first r').mpr hfirst, hrest⟩

theorem settles_bind {p : Prog L ι σ ε α} {k : α → Prog L ι σ ε β} {turns : List (ι × σ)}
    {r : Except ε β} : (p.bind k).Settles turns r ↔
      ∃ first rest r', turns = first ++ rest ∧ p.Settles first r' ∧ Continues k rest r r' := by
  induction p generalizing turns with
  | done r₀ =>
    constructor
    · intro h
      refine ⟨[], turns, r₀, rfl, ⟨rfl, rfl⟩, ?_⟩
      cases r₀ with
      | ok a => exact h
      | error e => exact ⟨h.1, h.2.symm⟩
    · rintro ⟨first, rest, r', rfl, ⟨rfl, rfl⟩, h⟩
      cases r₀ with
      | ok a => exact h
      | error e => exact ⟨h.1, h.2.symm⟩
  | halt =>
    constructor
    · intro h
      exact h.elim
    · rintro ⟨first, rest, r', -, h, -⟩
      exact h.elim
  | step l u q ih =>
    cases turns with
    | nil => exact (settles_none (fun h => h) (fun h => h)).symm
    | cons turn turns =>
      refine (ih turn.1 turn.2).trans (Iff.symm ?_)
      exact split_cons (S := (step l u q).Settles) (fun _ h => h) fun _ _ => Iff.rfl
  | fork c q ihc ihq =>
    cases turns with
    | nil => exact (settles_none (fun h => h) (fun h => h)).symm
    | cons turn turns =>
      refine ihq.trans (Iff.symm ?_)
      exact split_cons (S := (fork c q).Settles) (fun _ h => h) fun _ _ => Iff.rfl

theorem settles_attempt {p : Prog L ι σ ε α} {turns : List (ι × σ)} {r : Except ε (Except ε α)} :
    p.attempt.Settles turns r ↔ ∃ r', r = .ok r' ∧ p.Settles turns r' := by
  induction p generalizing turns with
  | done r₀ =>
    constructor
    · rintro ⟨rfl, rfl⟩
      exact ⟨r₀, rfl, rfl, rfl⟩
    · rintro ⟨r', rfl, rfl, rfl⟩
      exact ⟨rfl, rfl⟩
  | halt =>
    constructor
    · intro h
      exact h.elim
    · rintro ⟨r', -, h⟩
      exact h.elim
  | step l u q ih =>
    cases turns with
    | nil =>
      constructor
      · intro h
        exact h.elim
      · rintro ⟨r', -, h⟩
        exact h.elim
    | cons turn turns => exact ih turn.1 turn.2
  | fork c q ihc ihq =>
    cases turns with
    | nil =>
      constructor
      · intro h
        exact h.elim
      · rintro ⟨r', -, h⟩
        exact h.elim
    | cons turn turns => exact ihq

/-- The outcome of a `try { … } finally { … }`: an error of the second block wins. -/
def finalOutcome (r : Except ε α) : Except ε Unit → Except ε α
  | .ok _ => r
  | .error e => .error e

theorem settles_andFinally {p : Prog L ι σ ε α} {q : Prog L ι σ ε Unit} {turns : List (ι × σ)}
    {r : Except ε α} : (p.andFinally q).Settles turns r ↔
      ∃ body last r₁ r₂, turns = body ++ last ∧ p.Settles body r₁ ∧ q.Settles last r₂ ∧
        r = finalOutcome r₁ r₂ := by
  unfold andFinally
  rw [settles_bind]
  constructor
  · rintro ⟨body, rest, r', rfl, hbody, hrest⟩
    obtain ⟨r₁, rfl, hfirst⟩ := settles_attempt.mp hbody
    obtain ⟨last, none, r₂, rfl, hlast, hdone⟩ := settles_bind.mp hrest
    cases r₂ with
    | ok u =>
      obtain ⟨rfl, rfl⟩ := hdone
      exact ⟨body, last, r₁, .ok u, by rw [List.append_nil], hfirst, hlast, rfl⟩
    | error e =>
      obtain ⟨rfl, rfl⟩ := hdone
      exact ⟨body, last, r₁, .error e, by rw [List.append_nil], hfirst, hlast, rfl⟩
  · rintro ⟨body, last, r₁, r₂, rfl, hbody, hlast, rfl⟩
    refine ⟨body, last, .ok r₁, rfl, settles_attempt.mpr ⟨r₁, rfl, hbody⟩, ?_⟩
    refine settles_bind.mpr ⟨last, [], r₂, (List.append_nil last).symm, hlast, ?_⟩
    cases r₂ with
    | ok u => exact ⟨rfl, rfl⟩
    | error e => exact ⟨rfl, rfl⟩

/-- The block keeps its own outcome exactly when the second one does not reject, or rejects with the
very error that the first one rejected with. -/
theorem finalOutcome_eq_iff {r₁ : Except ε α} {r₂ : Except ε Unit} :
    finalOutcome r₁ r₂ = r₁ ↔ ∀ e, r₂ = .error e → r₁ = .error e := by
  cases r₂ with
  | ok u =>
    constructor
    · intro _ e h
      cases h
    · exact fun _ => rfl
  | error e =>
    constructor
    · intro h e' he
      obtain rfl := Except.error.inj he
      exact h.symm
    · exact fun h => (h e rfl).symm

theorem settles_call {l : L} {f : ι → σ → Except ε β × σ} {turns : List (ι × σ)} {r : Except ε β} :
    (call l f).Settles turns r ↔ ∃ i s, turns = [(i, s)] ∧ r = (f i s).1 := by
  cases turns with
  | nil =>
    constructor
    · intro h
      exact h.elim
    · rintro ⟨i, s, h, -⟩
      cases h
  | cons turn turns =>
    constructor
    · rintro ⟨rfl, rfl⟩
      exact ⟨turn.1, turn.2, rfl, rfl⟩
    · rintro ⟨i, s, h, rfl⟩
      obtain ⟨rfl, rfl⟩ := List.cons.inj h
      exact ⟨rfl, rfl⟩

/-! ### Programs that always settle -/

def Finishes : Prog L ι σ ε α → Prop
  | .done _ => True
  | .halt => False
  | .step _ _ k => ∀ i s, (k i s).Finishes
  | .fork _ _ => False

@[simp] theorem finishes_done (r : Except ε α) : (done r : Prog L ι σ ε α).Finishes := trivial

theorem finishes_call (l : L) (f : ι → σ → Except ε β × σ) : (call l f).Finishes :=
  fun _ _ => trivial

theorem finishes_orThrow (e : ε) (o : Option α) : (orThrow e o : Prog L ι σ ε α).Finishes := by
  cases o with
  | none => trivial
  | some a => trivial

theorem Finishes.bind {p : Prog L ι σ ε α} {k : α → Prog L ι σ ε β} (hp : p.Finishes)
    (hk : ∀ a, (k a).Finishes) : (p.bind k).Finishes := by
  induction p with
  | done r =>
    cases r with
    | ok a => exact hk a
    | error e => trivial
  | halt => exact hp.elim
  | step l u q ih => exact fun i s => ih i s (hp i s)
  | fork c q ihc ihq => exact hp.elim

theorem Finishes.attempt {p : Prog L ι σ ε α} (hp : p.Finishes) : p.attempt.Finishes := by
  induction p with
  | done r => trivial
  | halt => exact hp.elim
  | step l u q ih => exact fun i s => ih i s (hp i s)
  | fork c q ihc ihq => exact hp.elim

theorem Finishes.andFinally {p : Prog L ι σ ε α} {q : Prog L ι σ ε Unit} (hp : p.Finishes)
    (hq : q.Finishes) : (p.andFinally q).Finishes :=
  hp.attempt.bind fun _ => hq.bind fun _ => trivial

end Prog

namespace Pool

theorem exists_ran {ok : L → ι → σ → Prop} {q : Prog L ι σ ε α} {i : ι} (hq : q.Finishes)
    (hok : ∀ l t, ok l i t) (s : σ) : ∃ r s', Ran ok q s r s' := by
  suffices hend : ∃ n r, (solo q s (List.replicate n i)).result? = some r by
    obtain ⟨n, r, hr⟩ := hend
    refine ⟨r, _, List.replicate n i, soloAdmits_of_forall fun i' hi' l t => ?_, hr, rfl⟩
    rw [List.eq_of_mem_replicate hi']
    exact hok l t
  induction q generalizing s with
  | done r => exact ⟨0, r, rfl⟩
  | halt => exact hq.elim
  | step l u k ih =>
    obtain ⟨n, r, hr⟩ := ih i s (hq i s) (u i s)
    refine ⟨n + 1, r, ?_⟩
    rw [List.replicate_succ, solo_cons]
    exact hr
  | fork c k ihc ihk => exact hq.elim

theorem settles_of_run {p : Pool L ι σ ε α} {j : ℕ} {t : Prog L ι σ ε α} {r : Except ε α}
    {sched : List (ℕ × ι)} (ht : p.threads[j]? = some t)
    (hr : (p.run sched).threads[j]? = some (.done r)) : ∃ turns, t.Settles turns r := by
  induction sched generalizing p t with
  | nil =>
    obtain rfl := Option.some.inj (ht.symm.trans hr)
    exact ⟨[], rfl, rfl⟩
  | cons a rest ih =>
    have hlt := (List.getElem?_eq_some_iff.mp ht).1
    rcases p.step_cases a.1 a.2 with ⟨l, u, k, hj, -, hs⟩ | ⟨c, k, hj, hs⟩ | ⟨-, hs⟩
    · by_cases ha : a.1 = j
      · subst ha
        obtain rfl := Option.some.inj (ht.symm.trans hj)
        have hnext : (p.step a.1 a.2).threads[a.1]? = some (k a.2 p.state) := by
          rw [hs]
          exact List.getElem?_set_self hlt
        obtain ⟨turns, hturns⟩ := ih hnext hr
        exact ⟨(a.2, p.state) :: turns, hturns⟩
      · have hnext : (p.step a.1 a.2).threads[j]? = some t := by
          rw [hs]
          exact (List.getElem?_set_ne ha).trans ht
        exact ih hnext hr
    · by_cases ha : a.1 = j
      · subst ha
        obtain rfl := Option.some.inj (ht.symm.trans hj)
        have hnext : (p.step a.1 a.2).threads[a.1]? = some k := by
          rw [hs, List.getElem?_append_left (by simpa using hlt)]
          exact List.getElem?_set_self hlt
        obtain ⟨turns, hturns⟩ := ih hnext hr
        exact ⟨(a.2, p.state) :: turns, hturns⟩
      · have hnext : (p.step a.1 a.2).threads[j]? = some t := by
          rw [hs, List.getElem?_append_left (by simpa using hlt)]
          exact (List.getElem?_set_ne ha).trans ht
        exact ih hnext hr
    · exact ih (by rw [hs]; exact ht) hr

end Pool

end Interleaving
