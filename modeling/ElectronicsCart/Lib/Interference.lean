import ElectronicsCart.Lib.Prog
import Mathlib.Data.List.Basic
import Mathlib.Tactic.Common

/-!
# Pools of programs and rely-guarantee reasoning

A pool runs any number of programs on one state, one call at a time, in the
order a schedule gives.  A discipline says what a program relies on between two
of its calls and what it guarantees at each of them; `Holds` is the resulting
judgement on the remaining program at a state.  If the guarantee of every thread
implies what the other threads rely on, the judgements of all threads survive
every schedule (`Pool.Safe.run`).
-/

namespace Interleaving

variable {L ι σ ε α β : Type}

/-! ### Pools -/

structure Pool (L ι σ ε α : Type) where
  threads : List (Prog L ι σ ε α)
  state : σ

namespace Pool

/-- Thread `j` makes its next call with input `i`. -/
def step (p : Pool L ι σ ε α) (j : ℕ) (i : ι) : Pool L ι σ ε α :=
  match p.threads[j]? with
  | some (.step _ u k) => ⟨p.threads.set j (k i p.state), u i p.state⟩
  | some (.fork c k) => ⟨p.threads.set j k ++ [c], p.state⟩
  | _ => p

def run (p : Pool L ι σ ε α) : List (ℕ × ι) → Pool L ι σ ε α
  | [] => p
  | a :: rest => (p.step a.1 a.2).run rest

/-- The label of the call thread `j` makes next. -/
def label? (p : Pool L ι σ ε α) (j : ℕ) : Option L :=
  match p.threads[j]? with
  | some (.step l _ _) => some l
  | _ => none

/-- The next call of thread `j`, if it makes one, meets the condition. -/
def Allows (ok : L → ι → σ → Prop) (p : Pool L ι σ ε α) (j : ℕ) (i : ι) : Prop :=
  match p.label? j with
  | some l => ok l i p.state
  | none => True

/-- Every call made along the schedule meets the condition. -/
def Admits (ok : L → ι → σ → Prop) (p : Pool L ι σ ε α) : List (ℕ × ι) → Prop
  | [] => True
  | a :: rest => p.Allows ok a.1 a.2 ∧ (p.step a.1 a.2).Admits ok rest

instance decidableAllows (ok : L → ι → σ → Prop) [∀ l i s, Decidable (ok l i s)]
    (p : Pool L ι σ ε α) (j : ℕ) (i : ι) : Decidable (p.Allows ok j i) :=
  match h : p.label? j with
  | some l => decidable_of_iff (ok l i p.state) (by simp [Allows, h])
  | none => isTrue (by simp [Allows, h])

instance decidableAdmits (ok : L → ι → σ → Prop) [∀ l i s, Decidable (ok l i s)] :
    (p : Pool L ι σ ε α) → (sched : List (ℕ × ι)) → Decidable (p.Admits ok sched)
  | _, [] => isTrue trivial
  | p, a :: rest =>
    have := decidableAdmits ok (p.step a.1 a.2) rest
    inferInstanceAs (Decidable (p.Allows ok a.1 a.2 ∧ (p.step a.1 a.2).Admits ok rest))

def quiescent (p : Pool L ι σ ε α) : Bool := p.threads.all Prog.isFinished

theorem run_append (p : Pool L ι σ ε α) (xs ys : List (ℕ × ι)) :
    p.run (xs ++ ys) = (p.run xs).run ys := by
  induction xs generalizing p with
  | nil => rfl
  | cons a xs ih => exact ih (p.step a.1 a.2)

theorem admits_append {ok : L → ι → σ → Prop} {p : Pool L ι σ ε α} {xs ys : List (ℕ × ι)} :
    p.Admits ok (xs ++ ys) ↔ p.Admits ok xs ∧ (p.run xs).Admits ok ys := by
  induction xs generalizing p with
  | nil => simp [Admits, run]
  | cons a xs ih =>
    simp only [List.cons_append, Admits, run, ih]
    exact and_assoc.symm

theorem allows_of_forall {ok : L → ι → σ → Prop} (h : ∀ l i s, ok l i s) (p : Pool L ι σ ε α)
    (j : ℕ) (i : ι) : p.Allows ok j i := by
  unfold Allows
  split
  · exact h _ _ _
  · trivial

theorem Allows.mono {ok ok' : L → ι → σ → Prop} {p : Pool L ι σ ε α} {j : ℕ} {i : ι}
    (h : ∀ l, ok l i p.state → ok' l i p.state) (ha : p.Allows ok j i) : p.Allows ok' j i := by
  unfold Allows at ha ⊢
  split
  next l hl =>
    rw [hl] at ha
    exact h l ha
  next => trivial

theorem admits_of_forall {ok : L → ι → σ → Prop} (h : ∀ l i s, ok l i s) (p : Pool L ι σ ε α)
    (sched : List (ℕ × ι)) : p.Admits ok sched := by
  induction sched generalizing p with
  | nil => trivial
  | cons a rest ih => exact ⟨allows_of_forall h p a.1 a.2, ih _⟩

theorem step_cases (p : Pool L ι σ ε α) (j : ℕ) (i : ι) :
    (∃ l u k, p.threads[j]? = some (.step l u k) ∧ p.label? j = some l ∧
        p.step j i = ⟨p.threads.set j (k i p.state), u i p.state⟩) ∨
      (∃ c k, p.threads[j]? = some (.fork c k) ∧
        p.step j i = ⟨p.threads.set j k ++ [c], p.state⟩) ∨
      (p.label? j = none ∧ p.step j i = p) := by
  unfold step label?
  rcases h : p.threads[j]? with _ | (r | _ | ⟨l, u, k⟩ | ⟨c, k⟩)
  · exact .inr (.inr ⟨rfl, rfl⟩)
  · exact .inr (.inr ⟨rfl, rfl⟩)
  · exact .inr (.inr ⟨rfl, rfl⟩)
  · exact .inl ⟨l, u, k, rfl, rfl, rfl⟩
  · exact .inr (.inl ⟨c, k, rfl, rfl⟩)

theorem allows_label {ok : L → ι → σ → Prop} {p : Pool L ι σ ε α} {j : ℕ} {i : ι} {l : L}
    (h : p.Allows ok j i) (hl : p.label? j = some l) : ok l i p.state := by
  simpa only [Allows, hl] using h

end Pool

/-! ### Disciplines -/

/-- What is assumed of every call, and what is kept true of every state. -/
structure World (L ι σ : Type) where
  ok : L → ι → σ → Prop
  inv : σ → Prop

/-- What a thread relies on while it waits and guarantees when it calls. -/
structure Discipline (L ι σ : Type) where
  rely : σ → σ → Prop
  guar : L → ι → σ → σ → Prop
  refl : ∀ s, rely s s
  trans : ∀ {a b c}, rely a b → rely b c → rely a c

/-- The discipline of a thread that relies on nothing. -/
def Discipline.free (guar : L → ι → σ → σ → Prop) : Discipline L ι σ where
  rely _ _ := True
  guar := guar
  refl _ := trivial
  trans _ _ := trivial

def Discipline.alone (guar : L → ι → σ → σ → Prop) : Discipline L ι σ where
  rely s s' := s = s'
  guar := guar
  refl _ := rfl
  trans h h' := h.trans h'

/-- From state `s` on, whatever the others do within `D.rely`, every admitted call
of the program keeps the invariant and the guarantee, forked programs follow the
discipline `C`, and the result satisfies `Q`. -/
def Holds (W : World L ι σ) (C : Discipline L ι σ) :
    Discipline L ι σ → (Except ε α → σ → Prop) → Prog L ι σ ε α → σ → Prop
  | D, Q, .done r, s => ∀ s', D.rely s s' → W.inv s' → Q r s'
  | _, _, .halt, _ => True
  | D, Q, .step l u k, s => ∀ s', D.rely s s' → W.inv s' → ∀ i, W.ok l i s' →
      W.inv (u i s') ∧ D.guar l i s' (u i s') ∧ Holds W C D Q (k i s') (u i s')
  | D, Q, .fork c k, s => ∀ s', D.rely s s' → W.inv s' →
      Holds W C C (fun _ _ => True) c s' ∧ Holds W C D Q k s'

namespace Holds

variable {W : World L ι σ} {C D : Discipline L ι σ} {s s' : σ}

theorem stable {Q : Except ε α → σ → Prop} {p : Prog L ι σ ε α} (h : Holds W C D Q p s)
    (hr : D.rely s s') : Holds W C D Q p s' := by
  cases p with
  | done r => exact fun t ht => h t (D.trans hr ht)
  | halt => trivial
  | step l u k => exact fun t ht => h t (D.trans hr ht)
  | fork c k => exact fun t ht => h t (D.trans hr ht)

theorem mono {Q Q' : Except ε α → σ → Prop} {p : Prog L ι σ ε α}
    (hQ : ∀ r t, W.inv t → Q r t → Q' r t) (h : Holds W C D Q p s) : Holds W C D Q' p s := by
  induction p generalizing s with
  | done r => exact fun t ht hi => hQ r t hi (h t ht hi)
  | halt => trivial
  | step l u k ih =>
    intro t ht hi i ho
    obtain ⟨hinv, hg, hk⟩ := h t ht hi i ho
    exact ⟨hinv, hg, ih i t hk⟩
  | fork c k ihc ihk =>
    intro t ht hi
    obtain ⟨hc, hk⟩ := h t ht hi
    exact ⟨hc, ihk hk⟩

theorem and {Q Q' : Except ε α → σ → Prop} {p : Prog L ι σ ε α} (h : Holds W C D Q p s)
    (h' : Holds W C D Q' p s) : Holds W C D (fun r t => Q r t ∧ Q' r t) p s := by
  induction p generalizing s with
  | done r => exact fun t ht hi => ⟨h t ht hi, h' t ht hi⟩
  | halt => trivial
  | step l u k ih =>
    intro t ht hi i ho
    obtain ⟨hinv, hg, hk⟩ := h t ht hi i ho
    exact ⟨hinv, hg, ih i t hk (h' t ht hi i ho).2.2⟩
  | fork c k ihc ihk =>
    intro t ht hi
    obtain ⟨hc, hk⟩ := h t ht hi
    exact ⟨hc, ihk hk (h' t ht hi).2⟩

theorem yields {Q : Except ε α → σ → Prop} {G : α → Prop} {p : Prog L ι σ ε α}
    (hG : p.Yields G) (h : Holds W C D Q p s) :
    Holds W C D (fun r t => (∀ a, r = .ok a → G a) ∧ Q r t) p s := by
  induction p generalizing s with
  | done r =>
    refine fun t ht hi => ⟨fun a ha => ?_, h t ht hi⟩
    subst ha
    exact hG
  | halt => trivial
  | step l u k ih =>
    intro t ht hi i ho
    obtain ⟨hinv, hg, hk⟩ := h t ht hi i ho
    exact ⟨hinv, hg, ih i t (hG i t) hk⟩
  | fork c k _ ihk =>
    intro t ht hi
    obtain ⟨hc, hk⟩ := h t ht hi
    exact ⟨hc, ihk hG hk⟩

theorem discard {Q : Except ε α → σ → Prop} {Q' : Except ε β → σ → Prop} {p : Prog L ι σ ε α}
    (h : Holds W C D Q p s) : Holds W C D Q' (p.discard : Prog L ι σ ε β) s := by
  induction p generalizing D Q Q' s with
  | done r => trivial
  | halt => trivial
  | step l u k ih =>
    intro t ht hi i ho
    obtain ⟨hinv, hg, hk⟩ := h t ht hi i ho
    exact ⟨hinv, hg, ih i t hk⟩
  | fork c k ihc ihk =>
    intro t ht hi
    obtain ⟨hc, hk⟩ := h t ht hi
    exact ⟨ihc hc, ihk hk⟩

/-- The postcondition under which `p.bind f` is left to its continuation. -/
def Then (W : World L ι σ) (C D : Discipline L ι σ) (Q : Except ε β → σ → Prop)
    (f : α → Prog L ι σ ε β) : Except ε α → σ → Prop
  | .ok a, s => Holds W C D Q (f a) s
  | .error e, s => Q (.error e) s

theorem bind {Q : Except ε β → σ → Prop} {p : Prog L ι σ ε α} {f : α → Prog L ι σ ε β}
    (h : Holds W C D (Then W C D Q f) p s) (hinv : W.inv s) : Holds W C D Q (p.bind f) s := by
  induction p generalizing s with
  | done r =>
    cases r with
    | ok a => exact h s (D.refl s) hinv
    | error e => exact h
  | halt => trivial
  | step l u k ih =>
    intro t ht hi i ho
    obtain ⟨hinv', hg, hk⟩ := h t ht hi i ho
    exact ⟨hinv', hg, ih i t hk hinv'⟩
  | fork c k ihc ihk =>
    intro t ht hi
    obtain ⟨hc, hk⟩ := h t ht hi
    exact ⟨hc.discard, ihk hk hi⟩

theorem attempt {Q : Except ε (Except ε α) → σ → Prop} {p : Prog L ι σ ε α}
    (h : Holds W C D (fun r t => Q (.ok r) t) p s) : Holds W C D Q p.attempt s := by
  induction p generalizing s with
  | done r => exact h
  | halt => trivial
  | step l u k ih =>
    intro t ht hi i ho
    obtain ⟨hinv', hg, hk⟩ := h t ht hi i ho
    exact ⟨hinv', hg, ih i t hk⟩
  | fork c k ihc ihk =>
    intro t ht hi
    obtain ⟨hc, hk⟩ := h t ht hi
    exact ⟨hc.discard, ihk hk⟩

theorem done {Q : Except ε α → σ → Prop} {r : Except ε α}
    (h : ∀ t, D.rely s t → W.inv t → Q r t) : Holds W C D Q (.done r) s := h

/-- The postcondition under which a `try` block is left to its handler. -/
def Catch (W : World L ι σ) (C D : Discipline L ι σ) (Q : Except ε α → σ → Prop)
    (h : ε → Prog L ι σ ε α) : Except ε α → σ → Prop
  | .ok a, s => ∀ t, D.rely s t → W.inv t → Q (.ok a) t
  | .error e, s => Holds W C D Q (h e) s

theorem tryCatch {Q : Except ε α → σ → Prop} {p : Prog L ι σ ε α} {h : ε → Prog L ι σ ε α}
    (hp : Holds W C D (Catch W C D Q h) p s) (hinv : W.inv s) :
    Holds W C D Q (p.attempt.bind (Prog.orElse h)) s := by
  refine bind (attempt (mono ?_ hp)) hinv
  rintro (e | a) t - hc
  · exact hc
  · exact hc

/-- The postcondition under which a `finally` block ends a program with result `r`. -/
def Ends (W : World L ι σ) (D : Discipline L ι σ) (Q : Except ε α → σ → Prop)
    (r : Except ε α) : Except ε Unit → σ → Prop
  | .ok _, s => ∀ t, D.rely s t → W.inv t → Q r t
  | .error e, s => Q (.error e) s

theorem andFinally {Q : Except ε α → σ → Prop} {p : Prog L ι σ ε α} {q : Prog L ι σ ε Unit}
    (hp : Holds W C D (fun r t => Holds W C D (Ends W D Q r) q t) p s)
    (hinv : W.inv s) : Holds W C D Q (p.andFinally q) s := by
  refine bind (attempt (mono ?_ hp)) hinv
  intro r t hi hq
  refine bind (mono ?_ hq) hi
  rintro (e | a) t' - hQ
  · exact hQ
  · exact hQ

theorem call {Q : Except ε β → σ → Prop} {l : L} {f : ι → σ → Except ε β × σ}
    (h : ∀ t, D.rely s t → W.inv t → ∀ i, W.ok l i t →
      W.inv (f i t).2 ∧ D.guar l i t (f i t).2 ∧
        ∀ t', D.rely (f i t).2 t' → W.inv t' → Q (f i t).1 t') :
    Holds W C D Q (Prog.call l f) s := h

theorem callBind {Q : Except ε α → σ → Prop} {l : L} {f : ι → σ → Except ε β × σ}
    {k : β → Prog L ι σ ε α}
    (h : ∀ t, D.rely s t → W.inv t → ∀ i, W.ok l i t →
      W.inv (f i t).2 ∧ D.guar l i t (f i t).2 ∧
        match (f i t).1 with
        | .ok b => Holds W C D Q (k b) (f i t).2
        | .error e => ∀ t', D.rely (f i t).2 t' → W.inv t' → Q (.error e) t') :
    Holds W C D Q ((Prog.call l f).bind k) s := by
  intro t ht hi i ho
  obtain ⟨hinv, hg, hk⟩ := h t ht hi i ho
  refine ⟨hinv, hg, ?_⟩
  change Holds W C D Q ((Prog.done (f i t).1).bind k) (f i t).2
  cases hf : (f i t).1 with
  | ok b => rwa [hf] at hk
  | error e => rwa [hf] at hk

theorem ensureBind {Q : Except ε α → σ → Prop} {c : Prop} [Decidable c] {e : ε}
    {k : Unit → Prog L ι σ ε α} (hpos : c → Holds W C D Q (k ()) s)
    (hneg : ¬ c → ∀ t, D.rely s t → W.inv t → Q (.error e) t) :
    Holds W C D Q ((Prog.ensure c e).bind k) s := by
  by_cases hc : c
  · rw [Prog.ensure, if_pos hc]
    exact hpos hc
  · rw [Prog.ensure, if_neg hc]
    exact hneg hc

theorem orThrowBind {Q : Except ε α → σ → Prop} {o : Option β} {e : ε}
    {k : β → Prog L ι σ ε α} (hsome : ∀ b, o = some b → Holds W C D Q (k b) s)
    (hnone : o = none → ∀ t, D.rely s t → W.inv t → Q (.error e) t) :
    Holds W C D Q ((Prog.orThrow e o).bind k) s := by
  cases o with
  | some b => exact hsome b rfl
  | none => exact hnone rfl

/-- A program all of whose calls keep the invariant and the guarantee holds of itself
as a forked program. -/
theorem of_every_forked {p : Prog L ι σ ε α}
    (hp : p.Every (fun l i t => W.ok l i t ∧ W.inv t) fun l i t t' => W.inv t' ∧ C.guar l i t t')
    (t : σ) : Holds W C C (fun _ _ => True) p t := by
  induction p generalizing t with
  | done r => exact fun _ _ _ => trivial
  | halt => trivial
  | step l u k ih =>
    intro t' _ hi i ho
    obtain ⟨h, hk⟩ := hp i t' ⟨ho, hi⟩
    exact ⟨h.1, h.2, ih i t' hk _⟩
  | fork c k ihc ihk => exact fun t' _ _ => ⟨ihc hp.1 t', ihk hp.2 t'⟩

theorem alone_mono {G G' : L → ι → σ → σ → Prop} {Q : Except ε α → σ → Prop} {p : Prog L ι σ ε α}
    (hG : ∀ l i t t', G l i t t' → G' l i t t') (h : Holds W (.alone G) (.alone G) Q p s) :
    Holds W (.alone G') (.alone G') Q p s := by
  induction p generalizing s Q with
  | done r => exact h
  | halt => trivial
  | step l u k ih =>
    intro t ht hi i ho
    obtain ⟨hinv, hg, hk⟩ := h t ht hi i ho
    exact ⟨hinv, hG _ _ _ _ hg, ih i t hk⟩
  | fork c k ihc ihk =>
    intro t ht hi
    obtain ⟨hc, hk⟩ := h t ht hi
    exact ⟨ihc hc, ihk hk⟩

/-- A program all of whose calls keep the guarantees and a property that the other
threads keep as well. -/
theorem of_every {P : σ → Prop} {p : Prog L ι σ ε α} (hP : ∀ t t', D.rely t t' → P t → P t')
    (hp : p.Every (fun l i t => W.ok l i t ∧ W.inv t) fun l i t t' =>
      W.inv t' ∧ D.guar l i t t' ∧ C.guar l i t t' ∧ (P t → P t'))
    (hs : P s) : Holds W C D (fun _ t => P t) p s := by
  induction p generalizing s with
  | done r => exact fun t ht _ => hP s t ht hs
  | halt => trivial
  | step l u k ih =>
    intro t ht hi i ho
    obtain ⟨⟨hinv, hg, -, hPk⟩, hk⟩ := hp i t ⟨ho, hi⟩
    exact ⟨hinv, hg, ih i t hk (hPk (hP s t ht hs))⟩
  | fork c k ihc ihk =>
    intro t ht _
    have hc : c.Every (fun l i t => W.ok l i t ∧ W.inv t) fun l i t t' =>
        W.inv t' ∧ C.guar l i t t' := hp.1.mono fun _ _ _ _ _ h => ⟨h.1, h.2.2.1⟩
    exact ⟨of_every_forked hc t, ihk hp.2 (hP s t ht hs)⟩

theorem callAll {P : σ → Prop} {ps : List (Prog L ι σ ε α)}
    (hP : ∀ t t', D.rely t t' → P t → P t')
    (h : ∀ p ∈ ps, ∀ t, W.inv t → P t → Holds W C D (fun _ t' => P t') p t)
    (hinv : W.inv s) (hs : P s) : Holds W C D (fun _ t => P t) (Prog.callAll ps) s := by
  induction ps generalizing s with
  | nil => exact fun t ht _ => hP s t ht hs
  | cons p ps ih =>
    have hp := h p (List.mem_cons_self ..) s hinv hs
    refine bind (attempt (mono ?_ hp)) hinv
    intro r t hi ht
    exact ih (fun q hq => h q (List.mem_cons_of_mem p hq)) hi ht

theorem callAll_gains {P G : σ → Prop} {ps : List (Prog L ι σ ε α)}
    (hG : ∀ t t', D.rely t t' → G t → G t')
    (hkeep : ∀ p ∈ ps, ∀ t, W.inv t → P t → Holds W C D (fun _ t' => P t') p t)
    (hkeepG : ∀ p ∈ ps, ∀ t, W.inv t → G t → Holds W C D (fun _ t' => G t') p t)
    (hgain : ∃ p ∈ ps, ∀ t, W.inv t → P t → Holds W C D (fun _ t' => G t') p t)
    (hinv : W.inv s) (hs : P s) : Holds W C D (fun _ t => G t) (Prog.callAll ps) s := by
  induction ps generalizing s with
  | nil =>
    obtain ⟨p, hp, -⟩ := hgain
    exact (List.not_mem_nil hp).elim
  | cons p ps ih =>
    obtain ⟨q, hq, hgq⟩ := hgain
    rcases List.mem_cons.mp hq with rfl | hq
    · refine bind (attempt (mono ?_ (hgq s hinv hs))) hinv
      intro r t hi ht
      exact callAll hG (fun q' hq' => hkeepG q' (List.mem_cons_of_mem q hq')) hi ht
    · refine bind (attempt (mono ?_ (hkeep p (List.mem_cons_self ..) s hinv hs))) hinv
      intro r t hi ht
      exact ih (fun q' hq' => hkeep q' (List.mem_cons_of_mem p hq'))
        (fun q' hq' => hkeepG q' (List.mem_cons_of_mem p hq')) ⟨q, hq, hgq⟩ hi ht

theorem race {Q : Except ε α → σ → Prop} {tick : L} {fired : ι → Bool} {e : ε}
    {p : Prog L ι σ ε α}
    (htick : ∀ t i, W.inv t → W.ok tick i t → D.guar tick i t t)
    (htimeout : ∀ t i t', W.inv t → W.ok tick i t → fired i → D.rely t t' → W.inv t' →
      Q (.error e) t')
    (hchild : p.Every (fun l i t => W.ok l i t ∧ W.inv t) fun l i t t' =>
      W.inv t' ∧ C.guar l i t t')
    (h : Holds W C D Q p s) : Holds W C D Q (p.race tick fired e) s := by
  induction p generalizing s with
  | done r => exact h
  | halt => trivial
  | step l u k ih =>
    intro t ht hi i ho
    refine ⟨hi, htick t i hi ho, ?_⟩
    dsimp only
    split
    next hf =>
      intro t' ht' hi'
      have hd : ((Prog.step l u k).discard : Prog L ι σ ε α).Every
          (fun l i t => W.ok l i t ∧ W.inv t) (fun l i t t' => W.inv t' ∧ C.guar l i t t') :=
        hchild.discard
      exact ⟨of_every_forked hd t', fun t'' ht'' => htimeout t i t'' hi ho hf (D.trans ht' ht'')⟩
    next =>
      intro t' ht' hi' i' ho'
      obtain ⟨hinv, hg, hk⟩ := h t' (D.trans ht ht') hi' i' ho'
      exact ⟨hinv, hg, ih i' t' (hchild i' t' ⟨ho', hi'⟩).2 hk⟩
  | fork c k ihc ihk =>
    intro t ht hi
    obtain ⟨hc, hk⟩ := h t ht hi
    exact ⟨hc, ihk hchild.2 hk⟩

theorem race_unfired {Q : Except ε α → σ → Prop} {tick : L} {fired : ι → Bool} {e : ε}
    {p : Prog L ι σ ε α}
    (htick : ∀ t i, W.inv t → W.ok tick i t → D.guar tick i t t ∧ fired i = false)
    (h : Holds W C D Q p s) : Holds W C D Q (p.race tick fired e) s := by
  induction p generalizing s with
  | done r => exact h
  | halt => trivial
  | step l u k ih =>
    intro t ht hi i ho
    obtain ⟨hg, hf⟩ := htick t i hi ho
    refine ⟨hi, hg, ?_⟩
    dsimp only
    rw [hf, if_neg Bool.false_ne_true]
    intro t' ht' hi' i' ho'
    obtain ⟨hinv, hg', hk⟩ := h t' (D.trans ht ht') hi' i' ho'
    exact ⟨hinv, hg', ih i' t' hk⟩
  | fork c k ihc ihk =>
    intro t ht hi
    obtain ⟨hc, hk⟩ := h t ht hi
    exact ⟨hc, ihk hk⟩

theorem race_call {Q : Except ε α → σ → Prop} {tick l : L} {fired : ι → Bool} {e : ε}
    {f : ι → σ → Except ε α × σ} (htick : ∀ t i, W.inv t → W.ok tick i t → D.guar tick i t t)
    (htimeout : ∀ t, D.rely s t → W.inv t → Q (.error e) t)
    (hchild : ∀ t i, W.inv t → W.ok l i t → W.inv (f i t).2 ∧ C.guar l i t (f i t).2)
    (h : Holds W C D Q (Prog.call l f) s) :
    Holds W C D Q ((Prog.call l f).race tick fired e) s := by
  intro t ht hi i ho
  refine ⟨hi, htick t i hi ho, ?_⟩
  dsimp only
  split
  · intro t' ht' _
    refine ⟨fun u _ hiu i' ho' => ?_, fun u hu hiu => htimeout u (D.trans ht (D.trans ht' hu)) hiu⟩
    obtain ⟨hinv, hg⟩ := hchild u i' hiu ho'
    exact ⟨hinv, hg, trivial⟩
  · exact h.stable ht

theorem persist {Q : Except ε α → σ → Prop} {P : σ → Prop} {p : Prog L ι σ ε α}
    (hguar : ∀ l i t t', D.guar l i t t' → D.rely t t') (hP : ∀ t t', D.rely t t' → P t → P t')
    (h : Holds W C D Q p s) (hs : P s) : Holds W C D (fun r t => Q r t ∧ P t) p s := by
  induction p generalizing s with
  | done r => exact fun t ht hi => ⟨h t ht hi, hP s t ht hs⟩
  | halt => trivial
  | step l u k ih =>
    intro t ht hi i ho
    obtain ⟨hinv, hg, hk⟩ := h t ht hi i ho
    exact ⟨hinv, hg, ih i t hk (hP _ _ (hguar _ _ _ _ hg) (hP s t ht hs))⟩
  | fork c k ihc ihk =>
    intro t ht hi
    obtain ⟨hc, hk⟩ := h t ht hi
    exact ⟨hc, ihk hk (hP s t ht hs)⟩

theorem race_persist {Q : Except ε α → σ → Prop} {P : σ → Prop} {tick : L} {fired : ι → Bool}
    {e : ε} {p : Prog L ι σ ε α} (hguar : ∀ l i t t', D.guar l i t t' → D.rely t t')
    (hP : ∀ t t', D.rely t t' → P t → P t')
    (htick : ∀ t i, W.inv t → W.ok tick i t → D.guar tick i t t)
    (htimeout : ∀ t, W.inv t → P t → Q (.error e) t) (h : Holds W D D Q p s) (hs : P s) :
    Holds W D D Q (p.race tick fired e) s := by
  induction p generalizing s with
  | done r => exact h
  | halt => trivial
  | step l u k ih =>
    intro t ht hi i ho
    have hPt : P t := hP s t ht hs
    refine ⟨hi, htick t i hi ho, ?_⟩
    dsimp only
    split
    · intro t' ht' hi'
      have hd : Holds W D D (fun _ _ => True) ((Prog.step l u k).discard : Prog L ι σ ε α) t' :=
        (h.stable (D.trans ht ht')).discard
      exact ⟨hd, fun t'' ht'' hi'' => htimeout t'' hi'' (hP _ _ (D.trans ht' ht'') hPt)⟩
    · intro t' ht' hi' i' ho'
      obtain ⟨hinv, hg, hk⟩ := h t' (D.trans ht ht') hi' i' ho'
      exact ⟨hinv, hg, ih i' t' hk (hP _ _ (D.trans ht' (hguar _ _ _ _ hg)) hPt)⟩
  | fork c k ihc ihk =>
    intro t ht hi
    obtain ⟨hc, hk⟩ := h t ht hi
    exact ⟨hc, ihk hk (hP s t ht hs)⟩

theorem race_keep {Q : Except ε α → σ → Prop} {P : σ → Prop} {tick : L} {fired : ι → Bool}
    {e : ε} {p : Prog L ι σ ε α} (hP : ∀ t t', D.rely t t' → P t → P t')
    (htick : ∀ t i, W.inv t → W.ok tick i t → D.guar tick i t t)
    (htimeout : ∀ t, W.inv t → P t → Q (.error e) t)
    (hchild : p.Every (fun l i t => W.ok l i t ∧ W.inv t) fun l i t t' =>
      W.inv t' ∧ C.guar l i t t' ∧ (P t → P t'))
    (h : Holds W C D Q p s) (hs : P s) : Holds W C D Q (p.race tick fired e) s := by
  induction p generalizing s with
  | done r => exact h
  | halt => trivial
  | step l u k ih =>
    intro t ht hi i ho
    have hPt : P t := hP s t ht hs
    refine ⟨hi, htick t i hi ho, ?_⟩
    dsimp only
    split
    · intro t' ht' _
      have hd : ((Prog.step l u k).discard : Prog L ι σ ε α).Every
          (fun l i t => W.ok l i t ∧ W.inv t) (fun l i t t' => W.inv t' ∧ C.guar l i t t') :=
        Prog.Every.discard (hchild.mono fun _ _ _ _ _ h => ⟨h.1, h.2.1⟩)
      exact ⟨of_every_forked hd t', fun t'' ht'' hi'' => htimeout t'' hi'' (hP _ _ (D.trans ht' ht'') hPt)⟩
    · intro t' ht' hi' i' ho'
      obtain ⟨hinv, hg, hk⟩ := h t' (D.trans ht ht') hi' i' ho'
      obtain ⟨⟨-, -, hPk⟩, hrest⟩ := hchild i' t' ⟨ho', hi'⟩
      exact ⟨hinv, hg, ih i' t' hrest hk (hPk (hP t t' ht' hPt))⟩
  | fork c k ihc ihk =>
    intro t ht hi
    obtain ⟨hc, hk⟩ := h t ht hi
    exact ⟨hc, ihk hchild.2 hk (hP s t ht hs)⟩

theorem zoom {M τ : Type} {W' : World M ι τ} {D' : Discipline M ι τ} {label : L → M} {get : τ → σ}
    {set : σ → τ → τ} {Q : Except ε α → σ → Prop} {p : Prog L ι σ ε α} {t : τ}
    (hget : ∀ s t, get (set s t) = s)
    (hok : ∀ l i t, W'.ok (label l) i t → W.ok l i (get t))
    (hinv : ∀ t, W'.inv t → W.inv (get t))
    (hrely : ∀ t t', D'.rely t t' → D.rely (get t) (get t'))
    (hguar : ∀ l i t s', W'.inv t → W.inv s' → D.guar l i (get t) s' →
      W'.inv (set s' t) ∧ D'.guar (label l) i t (set s' t))
    (h : Holds W D D Q p (get t)) :
    Holds W' D' D' (fun r t => Q r (get t)) (p.zoom label get set) t := by
  induction p generalizing Q t with
  | done r => exact fun t' ht hi => h (get t') (hrely t t' ht) (hinv t' hi)
  | halt => trivial
  | step l u k ih =>
    intro t' ht hi i ho
    obtain ⟨hinv', hg, hk⟩ := h (get t') (hrely t t' ht) (hinv t' hi) i (hok l i t' ho)
    obtain ⟨hi', hg'⟩ := hguar l i t' _ hi hinv' hg
    exact ⟨hi', hg', ih i (get t') ((hget _ t').symm ▸ hk)⟩
  | fork c k ihc ihk =>
    intro t' ht hi
    obtain ⟨hc, hk⟩ := h (get t') (hrely t t' ht) (hinv t' hi)
    exact ⟨ihc hc, ihk hk⟩

end Holds

/-! ### Whole runs -/

namespace Pool

variable {W : World L ι σ} {C : Discipline L ι σ} {D : ℕ → Discipline L ι σ}
  {Q : ℕ → Except ε α → σ → Prop} {p : Pool L ι σ ε α}

/-- The disciplines of the threads fit together: what one guarantees, every other
relies on, and threads beyond the first `n` are forked ones. -/
structure Compatible (W : World L ι σ) (C : Discipline L ι σ) (D : ℕ → Discipline L ι σ)
    (Q : ℕ → Except ε α → σ → Prop) (n : ℕ) : Prop where
  rely : ∀ {j j' l i s s'}, j ≠ j' → W.inv s → W.ok l i s → W.inv s' → (D j).guar l i s s' →
    (D j').rely s s'
  forked : ∀ {j}, n ≤ j → D j = C
  post : ∀ {j} r s, n ≤ j → Q j r s

/-- The invariant holds and every thread is at a point of its judgement. -/
structure Safe (W : World L ι σ) (C : Discipline L ι σ) (D : ℕ → Discipline L ι σ)
    (Q : ℕ → Except ε α → σ → Prop) (p : Pool L ι σ ε α) : Prop where
  inv : W.inv p.state
  holds : ∀ j t, p.threads[j]? = some t → Holds W C (D j) (Q j) t p.state

theorem Safe.step {n : ℕ} (hc : Compatible W C D Q n) (h : p.Safe W C D Q)
    (hn : n ≤ p.threads.length) {j : ℕ} {i : ι} (ha : p.Allows W.ok j i) :
    (p.step j i).Safe W C D Q := by
  rcases p.step_cases j i with ⟨l, u, k, ht, hl, hs⟩ | ⟨c, k, ht, hs⟩ | ⟨-, hs⟩
  · have ho : W.ok l i p.state := allows_label ha hl
    obtain ⟨hinv, hg, hk⟩ := h.holds j _ ht p.state ((D j).refl _) h.inv i ho
    rw [hs]
    refine ⟨hinv, ?_⟩
    intro j' t ht'
    by_cases hj : j = j'
    · subst hj
      have hlt := (List.getElem?_eq_some_iff.mp ht).1
      rw [List.getElem?_set_self hlt] at ht'
      cases ht'
      exact hk
    · rw [List.getElem?_set_ne hj] at ht'
      exact (h.holds j' t ht').stable (hc.rely hj h.inv ho hinv hg)
  · obtain ⟨hchild, hk⟩ := h.holds j _ ht p.state ((D j).refl _) h.inv
    rw [hs]
    refine ⟨h.inv, ?_⟩
    intro j' t ht'
    have hlt := (List.getElem?_eq_some_iff.mp ht).1
    rcases Nat.lt_or_ge j' (p.threads.set j k).length with hj' | hj'
    · rw [List.getElem?_append_left hj'] at ht'
      by_cases hj : j = j'
      · subst hj
        rw [List.getElem?_set_self hlt] at ht'
        cases ht'
        exact hk
      · rw [List.getElem?_set_ne hj] at ht'
        exact h.holds j' t ht'
    · rw [List.getElem?_append_right hj'] at ht'
      obtain rfl : t = c := List.mem_singleton.mp (List.mem_of_getElem? ht')
      have hge : n ≤ j' := by
        rw [List.length_set] at hj'
        omega
      rw [hc.forked hge]
      exact hchild.mono fun r s _ _ => hc.post r s hge
  · rw [hs]
    exact h

theorem length_step_ge (j : ℕ) (i : ι) : p.threads.length ≤ (p.step j i).threads.length := by
  rcases p.step_cases j i with ⟨l, u, k, -, -, hs⟩ | ⟨c, k, -, hs⟩ | ⟨-, hs⟩ <;> simp [hs]

theorem length_run_ge (sched : List (ℕ × ι)) : p.threads.length ≤ (p.run sched).threads.length := by
  induction sched generalizing p with
  | nil => exact Nat.le_refl _
  | cons a rest ih => exact Nat.le_trans (length_step_ge a.1 a.2) ih

theorem Safe.run {n : ℕ} (hc : Compatible W C D Q n) {sched : List (ℕ × ι)}
    (h : p.Safe W C D Q) (hn : n ≤ p.threads.length) (ha : p.Admits W.ok sched) :
    (p.run sched).Safe W C D Q := by
  induction sched generalizing p with
  | nil => exact h
  | cons a rest ih =>
    exact ih (h.step hc hn ha.1) (Nat.le_trans hn (length_step_ge a.1 a.2)) ha.2

theorem Safe.step_guar (h : p.Safe W C D Q) {j : ℕ} {i : ι} (ha : p.Allows W.ok j i) :
    (∃ l, p.label? j = some l ∧ (D j).guar l i p.state (p.step j i).state) ∨
      (p.step j i).state = p.state := by
  rcases p.step_cases j i with ⟨l, u, k, ht, hl, hs⟩ | ⟨c, k, ht, hs⟩ | ⟨-, hs⟩
  · have ho : W.ok l i p.state := allows_label ha hl
    obtain ⟨-, hg, -⟩ := h.holds j _ ht p.state ((D j).refl _) h.inv i ho
    exact .inl ⟨l, hl, by rwa [hs]⟩
  · exact .inr (by rw [hs])
  · exact .inr (by rw [hs])

theorem Safe.run_step {n : ℕ} {R : σ → σ → Prop} (hc : Compatible W C D Q n)
    (hrefl : ∀ s, R s s) (hguar : ∀ j l i s s', (D j).guar l i s s' → R s s')
    {sched : List (ℕ × ι)} (h : p.Safe W C D Q) (hn : n ≤ p.threads.length)
    (ha : p.Admits W.ok sched) (k : ℕ) :
    R (p.run (sched.take k)).state (p.run (sched.take (k + 1))).state := by
  rcases Nat.lt_or_ge k sched.length with hk | hk
  · have hsplit : sched = sched.take k ++ (sched[k] :: sched.drop (k + 1)) := by
      rw [List.getElem_cons_drop hk, List.take_append_drop]
    rw [hsplit, admits_append] at ha
    have hstep : p.run (sched.take (k + 1)) = (p.run (sched.take k)).step sched[k].1 sched[k].2 := by
      rw [List.take_succ_eq_append_getElem hk, run_append]
      rfl
    rw [hstep]
    rcases (h.run hc hn ha.1).step_guar ha.2.1 with ⟨l, -, hg⟩ | heq
    · exact hguar _ _ _ _ _ hg
    · rw [heq]
      exact hrefl _
  · rw [List.take_of_length_le hk, List.take_of_length_le (Nat.le_succ_of_le hk)]
    exact hrefl _

/-- What every admitted call of a safe pool does relates the ends of a run, also when only some of
the calls are admitted. -/
theorem Safe.related {n : ℕ} {ok : L → ι → σ → Prop} {R : σ → σ → Prop} (hc : Compatible W C D Q n)
    (hok : ∀ l i s, ok l i s → W.ok l i s) (hrefl : ∀ s, R s s)
    (htrans : ∀ {a b c}, R a b → R b c → R a c)
    (hguar : ∀ j l i s s', ok l i s → (D j).guar l i s s' → R s s') {sched : List (ℕ × ι)}
    (h : p.Safe W C D Q) (hn : n ≤ p.threads.length) (ha : p.Admits ok sched) :
    R p.state (p.run sched).state := by
  induction sched generalizing p with
  | nil => exact hrefl _
  | cons a rest ih =>
    have hallows : p.Allows W.ok a.1 a.2 := Allows.mono (fun l => hok l _ _) ha.1
    refine htrans ?_ (ih (h.step hc hn hallows) (Nat.le_trans hn (length_step_ge a.1 a.2)) ha.2)
    rcases h.step_guar hallows with ⟨l, hl, hg⟩ | heq
    · exact hguar _ _ _ _ _ (allows_label ha.1 hl) hg
    · rw [heq]
      exact hrefl _

theorem Safe.rest {R : σ → σ → Prop} (hc : Compatible W C D Q 1)
    (hrefl : ∀ s, R s s) (htrans : ∀ {a b c}, R a b → R b c → R a c)
    (hguar : ∀ l i s s', C.guar l i s s' → R s s') {sched : List (ℕ × ι)} {r : Except ε α}
    (h : p.Safe W C D Q) (hend : p.threads[0]? = some (.done r)) (ha : p.Admits W.ok sched) :
    R p.state (p.run sched).state := by
  induction sched generalizing p with
  | nil => exact hrefl _
  | cons a rest ih =>
    have hlen : 1 ≤ p.threads.length := (List.getElem?_eq_some_iff.mp hend).1
    have hfirst : R p.state (p.step a.1 a.2).state := by
      rcases h.step_guar ha.1 with ⟨l, hl, hg⟩ | heq
      · have hne : 1 ≤ a.1 := by
          refine Nat.one_le_iff_ne_zero.mpr fun h0 => ?_
          simp [label?, h0, hend] at hl
        rw [hc.forked hne] at hg
        exact hguar _ _ _ _ hg
      · rw [heq]
        exact hrefl _
    have hend' : (p.step a.1 a.2).threads[0]? = some (.done r) := by
      rcases p.step_cases a.1 a.2 with ⟨l, u, k, ht, -, hs⟩ | ⟨c, k, ht, hs⟩ | ⟨-, hs⟩
      · have hne : a.1 ≠ 0 := by
          intro h0
          rw [h0, hend] at ht
          cases ht
        rw [hs]
        exact (List.getElem?_set_ne hne).trans hend
      · have hne : a.1 ≠ 0 := by
          intro h0
          rw [h0, hend] at ht
          cases ht
        rw [hs]
        refine (List.getElem?_append_left ?_).trans ((List.getElem?_set_ne hne).trans hend)
        rw [List.length_set]
        exact hlen
      · rw [hs]
        exact hend
    exact htrans hfirst (ih (h.step hc hlen ha.1) hend' ha.2)

theorem Safe.post (h : p.Safe W C D Q) {j : ℕ} {r : Except ε α}
    (ht : p.threads[j]? = some (.done r)) : Q j r p.state :=
  h.holds j _ ht p.state ((D j).refl _) h.inv

/-- One program with the discipline `D`, and the programs it forks. -/
def mainAnd (C D : Discipline L ι σ) (j : ℕ) : Discipline L ι σ := if j = 0 then D else C

theorem compatible_forked {D : Discipline L ι σ} {Q : Except ε α → σ → Prop}
    (hmain : ∀ l i t t', D.guar l i t t' → C.rely t t')
    (hchild : ∀ l i t t', C.guar l i t t' → D.rely t t' ∧ C.rely t t') :
    Compatible W C (mainAnd C D) (fun j r t => j = 0 → Q r t) 1 := by
  refine ⟨fun {j j' l i t t'} hne _ _ _ hg => ?_, fun {j} hj => if_neg (by omega), fun r t hj h => ?_⟩
  · by_cases hj : j = 0
    · have hj' : j' ≠ 0 := fun h => hne (hj.trans h.symm)
      simp only [mainAnd, if_pos hj] at hg
      simp only [mainAnd, if_neg hj']
      exact hmain l i t t' hg
    · simp only [mainAnd, if_neg hj] at hg
      by_cases hj' : j' = 0
      · simp only [mainAnd, if_pos hj']
        exact (hchild l i t t' hg).1
      · simp only [mainAnd, if_neg hj']
        exact (hchild l i t t' hg).2
  · omega

theorem safe_forked {D : Discipline L ι σ} {Q : Except ε α → σ → Prop} {q : Prog L ι σ ε α} {s : σ}
    {sched : List (ℕ × ι)} (hmain : ∀ l i t t', D.guar l i t t' → C.rely t t')
    (hchild : ∀ l i t t', C.guar l i t t' → D.rely t t' ∧ C.rely t t') (hi : W.inv s)
    (h : Holds W C D Q q s) (ha : (⟨[q], s⟩ : Pool L ι σ ε α).Admits W.ok sched) :
    ((⟨[q], s⟩ : Pool L ι σ ε α).run sched).Safe W C (mainAnd C D) fun j r t => j = 0 → Q r t := by
  refine Safe.run (compatible_forked hmain hchild) ⟨hi, fun j t ht => ?_⟩ (Nat.le_refl 1) ha
  have hj : j = 0 := by
    have hlt := (List.getElem?_eq_some_iff.mp ht).1
    simpa using hlt
  subst hj
  have ht' : q = t := Option.some.inj ht
  subst ht'
  exact Holds.mono (fun r t _ h _ => h) h

theorem run_forked {D : Discipline L ι σ} {Q : Except ε α → σ → Prop} {q : Prog L ι σ ε α} {s : σ}
    {sched : List (ℕ × ι)} (hmain : ∀ l i t t', D.guar l i t t' → C.rely t t')
    (hchild : ∀ l i t t', C.guar l i t t' → D.rely t t' ∧ C.rely t t') (hi : W.inv s)
    (h : Holds W C D Q q s) (ha : (⟨[q], s⟩ : Pool L ι σ ε α).Admits W.ok sched) :
    W.inv ((⟨[q], s⟩ : Pool L ι σ ε α).run sched).state ∧
      ∀ r, ((⟨[q], s⟩ : Pool L ι σ ε α).run sched).threads[0]? = some (.done r) →
        Q r ((⟨[q], s⟩ : Pool L ι σ ε α).run sched).state := by
  have hend := safe_forked hmain hchild hi h ha
  exact ⟨hend.inv, fun r hr => hend.post hr rfl⟩

theorem forked_rest {D : Discipline L ι σ} {Q : Except ε α → σ → Prop} {q : Prog L ι σ ε α} {s : σ}
    {R : σ → σ → Prop} {xs ys : List (ℕ × ι)} {r : Except ε α}
    (hmain : ∀ l i t t', D.guar l i t t' → C.rely t t')
    (hchild : ∀ l i t t', C.guar l i t t' → D.rely t t' ∧ C.rely t t') (hrefl : ∀ s, R s s)
    (htrans : ∀ {a b c}, R a b → R b c → R a c) (hguar : ∀ l i s s', C.guar l i s s' → R s s')
    (hi : W.inv s) (h : Holds W C D Q q s)
    (ha : (⟨[q], s⟩ : Pool L ι σ ε α).Admits W.ok (xs ++ ys))
    (hr : ((⟨[q], s⟩ : Pool L ι σ ε α).run xs).threads[0]? = some (.done r)) :
    R ((⟨[q], s⟩ : Pool L ι σ ε α).run xs).state ((⟨[q], s⟩ : Pool L ι σ ε α).run (xs ++ ys)).state := by
  obtain ⟨hxs, hys⟩ := admits_append.mp ha
  rw [run_append]
  exact (safe_forked hmain hchild hi h hxs).rest (compatible_forked hmain hchild) hrefl htrans hguar
    hr hys

/-- One program by itself: the inputs of its calls, one after another. -/
def solo (p : Prog L ι σ ε α) (s : σ) (inputs : List ι) : Pool L ι σ ε α :=
  (⟨[p], s⟩ : Pool L ι σ ε α).run (inputs.map fun i => (0, i))

/-- Every call of a program by itself meets the condition. -/
def SoloAdmits (ok : L → ι → σ → Prop) (p : Prog L ι σ ε α) (s : σ) (inputs : List ι) : Prop :=
  (⟨[p], s⟩ : Pool L ι σ ε α).Admits ok (inputs.map fun i => (0, i))

instance (ok : L → ι → σ → Prop) [∀ l i s, Decidable (ok l i s)] (p : Prog L ι σ ε α) (s : σ)
    (inputs : List ι) : Decidable (SoloAdmits ok p s inputs) :=
  decidableAdmits ok _ _

theorem first_step {C D : Discipline L ι σ} {Q : Except ε α → σ → Prop} {t : Prog L ι σ ε α}
    (ht : p.threads[0]? = some t) (hi : W.inv p.state) (h : Holds W C D Q t p.state) {i : ι}
    (ha : p.Allows W.ok 0 i) :
    W.inv (p.step 0 i).state ∧
      ∃ t', (p.step 0 i).threads[0]? = some t' ∧ Holds W C D Q t' (p.step 0 i).state := by
  have hlt := (List.getElem?_eq_some_iff.mp ht).1
  rcases p.step_cases 0 i with ⟨l, u, k, ht', hl, hs⟩ | ⟨c, k, ht', hs⟩ | ⟨-, hs⟩
  · obtain rfl := Option.some.inj (ht.symm.trans ht')
    obtain ⟨hinv, -, hk⟩ := h p.state (D.refl _) hi i (allows_label ha hl)
    rw [hs]
    exact ⟨hinv, _, List.getElem?_set_self hlt, hk⟩
  · obtain rfl := Option.some.inj (ht.symm.trans ht')
    obtain ⟨-, hk⟩ := h p.state (D.refl _) hi
    rw [hs]
    refine ⟨hi, k, ?_, hk⟩
    rw [List.getElem?_append_left (by simpa using hlt), List.getElem?_set_self hlt]
  · rw [hs]
    exact ⟨hi, t, ht, h⟩

theorem solo_holds {C D : Discipline L ι σ} {Q : Except ε α → σ → Prop} {q : Prog L ι σ ε α} {s : σ}
    {inputs : List ι} (hi : W.inv s) (h : Holds W C D Q q s) (ha : SoloAdmits W.ok q s inputs) :
    W.inv (solo q s inputs).state ∧ ∃ t, (solo q s inputs).threads[0]? = some t ∧
      Holds W C D Q t (solo q s inputs).state := by
  suffices hgen : ∀ p : Pool L ι σ ε α, W.inv p.state →
      (∃ t, p.threads[0]? = some t ∧ Holds W C D Q t p.state) →
      p.Admits W.ok (inputs.map fun i => (0, i)) →
      W.inv (p.run (inputs.map fun i => (0, i))).state ∧
        ∃ t, (p.run (inputs.map fun i => (0, i))).threads[0]? = some t ∧
          Holds W C D Q t (p.run (inputs.map fun i => (0, i))).state by
    exact hgen _ hi ⟨q, rfl, h⟩ ha
  clear ha
  induction inputs with
  | nil => exact fun p hi h _ => ⟨hi, h⟩
  | cons i rest ih =>
    rintro p hi ⟨t, ht, h⟩ ha
    obtain ⟨hi', h'⟩ := first_step ht hi h ha.1
    exact ih _ hi' h' ha.2

theorem solo_post {C D : Discipline L ι σ} {Q : Except ε α → σ → Prop} {q : Prog L ι σ ε α} {s : σ}
    {inputs : List ι} {r : Except ε α} (hi : W.inv s) (h : Holds W C D Q q s)
    (ha : SoloAdmits W.ok q s inputs) (hr : (solo q s inputs).threads[0]? = some (.done r)) :
    Q r (solo q s inputs).state := by
  obtain ⟨hi', t, ht, h'⟩ := solo_holds hi h ha
  obtain rfl := Option.some.inj (ht.symm.trans hr)
  exact h' _ (D.refl _) hi'

theorem solo_guar {C D : Discipline L ι σ} {Q : Except ε α → σ → Prop} {q : Prog L ι σ ε α} {s : σ}
    {inputs : List ι} {l : L} {i : ι} (hi : W.inv s) (h : Holds W C D Q q s)
    (ha : SoloAdmits W.ok q s inputs) (hl : (solo q s inputs).label? 0 = some l)
    (ho : W.ok l i (solo q s inputs).state) :
    D.guar l i (solo q s inputs).state ((solo q s inputs).step 0 i).state := by
  obtain ⟨hi', t, ht, h'⟩ := solo_holds hi h ha
  rcases (solo q s inputs).step_cases 0 i with ⟨l', u, k, ht', hl', hs⟩ | ⟨c, k, ht', -⟩ | ⟨hn, -⟩
  · obtain rfl := Option.some.inj (ht.symm.trans ht')
    obtain rfl := Option.some.inj (hl.symm.trans hl')
    rw [hs]
    exact (h' _ (D.refl _) hi' i ho).2.1
  · simp [label?, ht'] at hl
  · simp [hn] at hl

theorem solo_step {C D : Discipline L ι σ} {Q : Except ε α → σ → Prop} {q : Prog L ι σ ε α} {s : σ}
    {R : σ → σ → Prop} (hrefl : ∀ s, R s s) (hguar : ∀ l i s s', D.guar l i s s' → R s s')
    (hi : W.inv s) (h : Holds W C D Q q s) {inputs : List ι} (ha : SoloAdmits W.ok q s inputs)
    (n : ℕ) : R (solo q s (inputs.take n)).state (solo q s (inputs.take (n + 1))).state := by
  rcases Nat.lt_or_ge n inputs.length with hn | hn
  · have hsplit : inputs = inputs.take n ++ (inputs[n] :: inputs.drop (n + 1)) := by
      rw [List.getElem_cons_drop hn, List.take_append_drop]
    rw [SoloAdmits, hsplit, List.map_append, admits_append] at ha
    have hstep : solo q s (inputs.take (n + 1)) = (solo q s (inputs.take n)).step 0 inputs[n] := by
      rw [solo, List.take_succ_eq_append_getElem hn, List.map_append, run_append]
      rfl
    rw [hstep]
    rcases (solo q s (inputs.take n)).step_cases 0 inputs[n] with
      ⟨l, u, k, -, hl, -⟩ | ⟨c, k, -, hs⟩ | ⟨-, hs⟩
    · exact hguar _ _ _ _ (solo_guar hi h ha.1 hl (allows_label ha.2.1 hl))
    · rw [hs]
      exact hrefl _
    · rw [hs]
      exact hrefl _
  · rw [List.take_of_length_le hn, List.take_of_length_le (Nat.le_succ_of_le hn)]
    exact hrefl _

theorem solo_related {C D : Discipline L ι σ} {Q : Except ε α → σ → Prop} {q : Prog L ι σ ε α} {s : σ}
    {R : σ → σ → Prop} (hrefl : ∀ s, R s s) (htrans : ∀ {a b c}, R a b → R b c → R a c)
    (hguar : ∀ l i s s', D.guar l i s s' → R s s') (hi : W.inv s) (h : Holds W C D Q q s)
    {inputs : List ι} (ha : SoloAdmits W.ok q s inputs) : R s (solo q s inputs).state := by
  have hprefix : ∀ n, R s (solo q s (inputs.take n)).state := by
    intro n
    induction n with
    | zero => exact hrefl s
    | succ n ih => exact htrans ih (solo_step hrefl hguar hi h ha n)
  simpa using hprefix inputs.length

theorem inv_run {ok : L → ι → σ → Prop} {inv : σ → Prop} {sched : List (ℕ × ι)}
    (hp : ∀ t ∈ p.threads, t.Every (fun l i s => ok l i s ∧ inv s) fun _ _ _ s' => inv s')
    (hs : inv p.state) (ha : p.Admits ok sched) : inv (p.run sched).state := by
  let C : Discipline L ι σ := Discipline.free fun _ _ _ _ => True
  have hc : Compatible ⟨ok, inv⟩ C (fun _ => C) (fun _ (_ : Except ε α) _ => True) 0 :=
    ⟨fun _ _ _ _ _ => trivial, fun _ => rfl, fun _ _ _ => trivial⟩
  have hsafe : p.Safe ⟨ok, inv⟩ C (fun _ => C) fun _ _ _ => True := by
    refine ⟨hs, fun j t ht => Holds.of_every_forked ?_ p.state⟩
    exact (hp t (List.mem_of_getElem? ht)).mono fun _ _ _ _ _ h => ⟨h, trivial⟩
  exact (hsafe.run hc (Nat.zero_le _) ha).inv

theorem every_run {ok : L → ι → σ → Prop} {ψ : L → ι → σ → σ → Prop} {sched : List (ℕ × ι)}
    (hp : ∀ t ∈ p.threads, t.Every ok ψ) (ha : p.Admits ok sched) :
    ∀ t ∈ (p.run sched).threads, t.Every ok ψ := by
  induction sched generalizing p with
  | nil => exact hp
  | cons a rest ih =>
    refine ih (fun t ht => ?_) ha.2
    rcases p.step_cases a.1 a.2 with ⟨l, u, k, hj, hl, hs⟩ | ⟨c, k, hj, hs⟩ | ⟨-, hs⟩
    · have hall := hp _ (List.mem_of_getElem? hj) a.2 p.state (allows_label ha.1 hl)
      rw [hs] at ht
      rcases List.mem_or_eq_of_mem_set ht with ht | rfl
      · exact hp t ht
      · exact hall.2
    · have hall := hp _ (List.mem_of_getElem? hj)
      rw [hs] at ht
      rcases List.mem_append.mp ht with ht | ht
      · rcases List.mem_or_eq_of_mem_set ht with ht | rfl
        · exact hp t ht
        · exact hall.2
      · rw [List.mem_singleton.mp ht]
        exact hall.1
    · exact hp t (hs ▸ ht)

theorem related_run {ok : L → ι → σ → Prop} {R : σ → σ → Prop} {xs ys : List (ℕ × ι)}
    (hrefl : ∀ s, R s s) (htrans : ∀ {a b c}, R a b → R b c → R a c)
    (hp : ∀ t ∈ p.threads, t.Every ok fun _ _ s s' => R s s') (ha : p.Admits ok (xs ++ ys)) :
    R (p.run xs).state (p.run (xs ++ ys)).state := by
  obtain ⟨hxs, hys⟩ := admits_append.mp ha
  rw [run_append]
  refine inv_run (fun t ht => ?_) (hrefl _) hys
  exact Prog.Every.imp (fun _ _ _ h => h.1) (fun _ _ _ _ h h' => htrans h.2 h')
    (every_run hp hxs t ht)

theorem step_run {ok : L → ι → σ → Prop} {R : σ → σ → Prop} {sched : List (ℕ × ι)}
    (hrefl : ∀ s, R s s) (hp : ∀ t ∈ p.threads, t.Every ok fun _ _ s s' => R s s')
    (ha : p.Admits ok sched) (n : ℕ) :
    R (p.run (sched.take n)).state (p.run (sched.take (n + 1))).state := by
  let C : Discipline L ι σ := Discipline.free fun _ _ s s' => R s s'
  have hc : Compatible ⟨ok, fun _ => True⟩ C (fun _ => C) (fun _ (_ : Except ε α) _ => True) 0 :=
    ⟨fun _ _ _ _ _ => trivial, fun _ => rfl, fun _ _ _ => trivial⟩
  have hsafe : p.Safe ⟨ok, fun _ => True⟩ C (fun _ => C) fun _ _ _ => True := by
    refine ⟨trivial, fun j t ht => Holds.of_every_forked ?_ p.state⟩
    refine Prog.Every.imp (fun _ _ _ h => h.1) (fun _ _ _ _ _ h => ⟨trivial, h⟩) ?_
    exact hp t (List.mem_of_getElem? ht)
  exact hsafe.run_step hc hrefl (fun _ _ _ _ _ h => h) (Nat.zero_le _) ha n

end Pool

end Interleaving
