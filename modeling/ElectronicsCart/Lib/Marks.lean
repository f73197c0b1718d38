import ElectronicsCart.Lib.Interference

/-!
# The next call of each thread

Some invariants of a pool speak of what a thread is about to do: a write that is
still owed, a call that may be made only once.  `Follow` describes every call of a
program together with the label of the call after it; `Gated` says that a program
can only succeed through a marked call.
-/

namespace Interleaving

variable {L ι σ ε α β : Type}

namespace Prog

def label? : Prog L ι σ ε α → Option L
  | .step l _ _ => some l
  | _ => none

/-- Every call satisfies `ψ`, which also sees the label of the next call.  Programs
that fork are not described. -/
def Follow (ok : L → ι → σ → Prop) (ψ : L → ι → σ → σ → Option L → Prop) :
    Prog L ι σ ε α → Prop
  | .done _ => True
  | .halt => True
  | .step l u k => ∀ i s, ok l i s → ψ l i s (u i s) (k i s).label? ∧ Follow ok ψ (k i s)
  | .fork _ _ => False

/-- Every success comes after a marked call that left the state `spent`. -/
def Gated (ok : L → ι → σ → Prop) (mark : L → Prop) (spent : σ → Prop) : Prog L ι σ ε α → Prop
  | .done (.ok _) => False
  | .done (.error _) => True
  | .halt => True
  | .step l u k => ∀ i s, ok l i s → Gated ok mark spent (k i s) ∨ mark l ∧ spent (u i s)
  | .fork _ _ => False

variable {ok : L → ι → σ → Prop} {ψ : L → ι → σ → σ → Option L → Prop} {mark : L → Prop}
  {spent : σ → Prop}

theorem Follow.every {ψ : L → ι → σ → σ → Prop} {p : Prog L ι σ ε α}
    (hp : p.Follow ok fun l i s s' _ => ψ l i s s') : p.Every ok ψ := by
  induction p with
  | done r => trivial
  | halt => trivial
  | step l u k ih => exact fun i s ho => ⟨(hp i s ho).1, ih i s (hp i s ho).2⟩
  | fork c k => exact hp.elim

theorem Follow.mono {ok' : L → ι → σ → Prop} {ψ' : L → ι → σ → σ → Option L → Prop}
    {p : Prog L ι σ ε α} (hok : ∀ l i s, ok' l i s → ok l i s)
    (hψ : ∀ l i s s' n, ok' l i s → ψ l i s s' n → ψ' l i s s' n)
    (hp : p.Follow ok ψ) : p.Follow ok' ψ' := by
  induction p with
  | done r => trivial
  | halt => trivial
  | step l u k ih =>
    intro i s ho
    obtain ⟨h, hk⟩ := hp i s (hok l i s ho)
    exact ⟨hψ l i s _ _ ho h, ih i s hk⟩
  | fork c k => exact hp

theorem Follow.callBind {l : L} {f : ι → σ → Except ε β × σ} {k : β → Prog L ι σ ε α}
    (h : ∀ i s, ok l i s → match (f i s).1 with
      | .ok b => ψ l i s (f i s).2 (k b).label? ∧ (k b).Follow ok ψ
      | .error _ => ψ l i s (f i s).2 none) :
    ((call l f).bind k).Follow ok ψ := by
  intro i s ho
  have hk := h i s ho
  change ψ l i s (f i s).2 ((Prog.done (f i s).1).bind k).label? ∧
    ((Prog.done (f i s).1).bind k).Follow ok ψ
  cases hf : (f i s).1 with
  | ok b => rwa [hf] at hk
  | error e =>
    rw [hf] at hk
    exact ⟨hk, trivial⟩

theorem Follow.ensureBind {c : Prop} [Decidable c] {e : ε} {k : Unit → Prog L ι σ ε α}
    (h : c → (k ()).Follow ok ψ) : ((ensure c e).bind k).Follow ok ψ := by
  by_cases hc : c
  · rw [ensure, if_pos hc]
    exact h hc
  · rw [ensure, if_neg hc]
    trivial

theorem Follow.orThrowBind {o : Option β} {e : ε} {k : β → Prog L ι σ ε α}
    (h : ∀ b, o = some b → (k b).Follow ok ψ) : ((orThrow e o).bind k).Follow ok ψ := by
  cases o with
  | some b => exact h b rfl
  | none => trivial

theorem Follow.attempt {p : Prog L ι σ ε α} (hp : p.Follow ok ψ) : p.attempt.Follow ok ψ := by
  have hlabel : ∀ q : Prog L ι σ ε α, q.Follow ok ψ → q.attempt.label? = q.label? := by
    intro q hq
    cases q with
    | fork c k => exact hq.elim
    | _ => rfl
  induction p with
  | done r => trivial
  | halt => trivial
  | step l u k ih =>
    intro i s ho
    obtain ⟨hψ, hk⟩ := hp i s ho
    refine ⟨?_, ih i s hk⟩
    rw [← hlabel _ hk] at hψ
    exact hψ
  | fork c k => exact hp.elim

theorem Follow.bind {p : Prog L ι σ ε α} {f : α → Prog L ι σ ε β} (hp : p.Follow ok ψ)
    (hf : ∀ a, (f a).Follow ok ψ)
    (hn : ∀ l i s s' a, ψ l i s s' none → ψ l i s s' (f a).label?) : (p.bind f).Follow ok ψ := by
  have hlabel : ∀ l i s s' (q : Prog L ι σ ε α), q.Follow ok ψ → ψ l i s s' q.label? →
      ψ l i s s' (q.bind f).label? := by
    intro l i s s' q hq hψ
    cases q with
    | done r =>
      cases r with
      | ok a => exact hn l i s s' a hψ
      | error e => exact hψ
    | halt => exact hψ
    | step l' u k => exact hψ
    | fork c k => exact hq.elim
  induction p with
  | done r =>
    cases r with
    | ok a => exact hf a
    | error e => trivial
  | halt => trivial
  | step l u k ih =>
    intro i s ho
    obtain ⟨hψ, hk⟩ := hp i s ho
    exact ⟨hlabel l i s _ _ hk hψ, ih i s hk⟩
  | fork c k => exact hp.elim

theorem Follow.recover {p : Prog L ι σ ε α} {h : ε → Prog L ι σ ε α}
    (hh : ∀ e, ∃ r, h e = .done r) (hp : p.Follow ok ψ) :
    (p.attempt.bind (orElse h)).Follow ok ψ := by
  have hdone : ∀ r, ∃ r', orElse h r = .done r' := by
    intro r
    cases r with
    | ok a => exact ⟨_, rfl⟩
    | error e => exact hh e
  refine hp.attempt.bind (fun r => ?_) fun l i s s' r hψ => ?_
  · obtain ⟨r', hr⟩ := hdone r
    rw [hr]
    trivial
  · obtain ⟨r', hr⟩ := hdone r
    rw [hr]
    exact hψ

theorem Follow.andFinally {p : Prog L ι σ ε α} {q : Prog L ι σ ε Unit} (hp : p.Follow ok ψ)
    (hq : q.Follow ok ψ) (hn : ∀ l i s s', ψ l i s s' none → ψ l i s s' q.label?) :
    (p.andFinally q).Follow ok ψ := by
  refine hp.attempt.bind (fun r => hq.bind (fun _ => trivial) fun _ _ _ _ _ h => h) ?_
  intro l i s s' r hψ
  have hlabel : (q.bind fun _ => (Prog.done r : Prog L ι σ ε α)).label? = q.label? := by
    cases q with
    | done r' => cases r' <;> rfl
    | fork c k => exact hq.elim
    | _ => rfl
  rw [hlabel]
  exact hn l i s s' hψ

theorem Gated.callBind {l : L} {f : ι → σ → Except ε β × σ} {k : β → Prog L ι σ ε α}
    (h : ∀ i s b, ok l i s → (f i s).1 = .ok b →
      (k b).Gated ok mark spent ∨ mark l ∧ spent (f i s).2) :
    ((call l f).bind k).Gated ok mark spent := by
  intro i s ho
  change ((Prog.done (f i s).1).bind k).Gated ok mark spent ∨ mark l ∧ spent (f i s).2
  cases hf : (f i s).1 with
  | ok b => exact h i s b ho hf
  | error e => exact .inl trivial

theorem Gated.ensureBind {c : Prop} [Decidable c] {e : ε} {k : Unit → Prog L ι σ ε α}
    (h : c → (k ()).Gated ok mark spent) : ((ensure c e).bind k).Gated ok mark spent := by
  by_cases hc : c
  · rw [ensure, if_pos hc]
    exact h hc
  · rw [ensure, if_neg hc]
    trivial

theorem Gated.orThrowBind {o : Option β} {e : ε} {k : β → Prog L ι σ ε α}
    (h : ∀ b, o = some b → (k b).Gated ok mark spent) :
    ((orThrow e o).bind k).Gated ok mark spent := by
  cases o with
  | some b => exact h b rfl
  | none => trivial

end Prog

namespace Pool

variable {ok : L → ι → σ → Prop} {ψ : L → ι → σ → σ → Option L → Prop} {p : Pool L ι σ ε α}

theorem label?_eq (p : Pool L ι σ ε α) (j : ℕ) :
    p.label? j = (p.threads[j]?).bind Prog.label? := by
  unfold label?
  rcases p.threads[j]? with _ | (r | _ | ⟨l, u, k⟩ | ⟨c, k⟩) <;> rfl

theorem label?_of_quiescent (h : p.quiescent = true) (j : ℕ) : p.label? j = none := by
  rw [label?_eq]
  cases ht : p.threads[j]? with
  | none => rfl
  | some t =>
    have hf := List.all_eq_true.mp h t (List.mem_of_getElem? ht)
    cases t with
    | step l u k => cases hf
    | _ => rfl

theorem follow_step (hp : ∀ t ∈ p.threads, t.Follow ok ψ) {j : ℕ} {i : ι}
    (ha : p.Allows ok j i) :
    (∃ l n, p.label? j = some l ∧ ok l i p.state ∧ ψ l i p.state (p.step j i).state n ∧
        (p.step j i).label? = Function.update p.label? j n ∧
        ∀ t ∈ (p.step j i).threads, t.Follow ok ψ) ∨
      (p.label? j = none ∧ p.step j i = p) := by
  rcases p.step_cases j i with ⟨l, u, k, ht, hl, hs⟩ | ⟨c, k, ht, hs⟩ | hs
  · have ho : ok l i p.state := allows_label ha hl
    obtain ⟨hψ, hk⟩ := hp _ (List.mem_of_getElem? ht) i p.state ho
    refine .inl ⟨l, _, hl, ho, by rw [hs]; exact hψ, ?_, ?_⟩
    · funext j'
      rw [hs, label?_eq]
      by_cases hj : j' = j
      · subst hj
        have hlt := (List.getElem?_eq_some_iff.mp ht).1
        rw [Function.update_self, List.getElem?_set_self hlt]
        rfl
      · rw [Function.update_of_ne hj, List.getElem?_set_ne (Ne.symm hj), label?_eq]
    · rw [hs]
      intro t htm
      rcases List.mem_or_eq_of_mem_set htm with h | rfl
      · exact hp t h
      · exact hk
  · exact (hp _ (List.mem_of_getElem? ht)).elim
  · exact .inr hs

theorem countP_replace {τ : Type} {ts : List τ} {c : τ → Bool} {t t' : τ} {j : ℕ}
    (hj : ts[j]? = some t) :
    (ts.set j t').countP c + (if c t then 1 else 0) = ts.countP c + if c t' then 1 else 0 := by
  induction ts generalizing j with
  | nil => cases hj
  | cons a rest ih =>
    cases j with
    | zero =>
      obtain rfl : a = t := Option.some.inj hj
      simp only [List.set_cons_zero, List.countP_cons]
      omega
    | succ j =>
      have hrest := ih hj
      simp only [List.set_cons_succ, List.countP_cons]
      omega

/-- How many threads are about to make a call of a kind. -/
def awaiting (c : L → Bool) (p : Pool L ι σ ε α) : ℕ :=
  p.threads.countP fun t => t.label?.any c

theorem awaiting_step {c : L → Bool} {j : ℕ} {i : ι} {l : L} (hl : p.label? j = some l) :
    (p.step j i).awaiting c + (if c l then 1 else 0) =
      p.awaiting c + if ((p.step j i).label? j).any c then 1 else 0 := by
  rcases p.step_cases j i with ⟨l', u, k, ht, hl', hs⟩ | ⟨child, k, ht, -⟩ | ⟨hnone, -⟩
  · obtain rfl : l' = l := Option.some.inj (hl'.symm.trans hl)
    have hlt := (List.getElem?_eq_some_iff.mp ht).1
    have hnext : (p.step j i).label? j = (k i p.state).label? := by
      rw [label?_eq, hs, List.getElem?_set_self hlt]
      rfl
    have hcount : ((p.threads.set j (k i p.state)).countP fun t => t.label?.any c) +
        (if (Prog.step _ u k : Prog L ι σ ε α).label?.any c then 1 else 0) =
        (p.threads.countP fun t => t.label?.any c) + if (k i p.state).label?.any c then 1 else 0 :=
      countP_replace ht
    rw [hnext, awaiting, awaiting, hs]
    exact hcount
  · rw [label?_eq, ht] at hl
    cases hl
  · rw [hnone] at hl
    cases hl

theorem follow_run (inv : σ → (ℕ → Option L) → Prop) {sched : List (ℕ × ι)}
    (hstep : ∀ {s s' lab j l i n}, inv s lab → lab j = some l → ok l i s → ψ l i s s' n →
      inv s' (Function.update lab j n))
    (hp : ∀ t ∈ p.threads, t.Follow ok ψ) (hs : inv p.state p.label?) (ha : p.Admits ok sched) :
    inv (p.run sched).state (p.run sched).label? ∧ ∀ t ∈ (p.run sched).threads, t.Follow ok ψ := by
  induction sched generalizing p with
  | nil => exact ⟨hs, hp⟩
  | cons a rest ih =>
    rcases follow_step hp ha.1 with ⟨l, n, hl, ho, hψ, hlab, hp'⟩ | ⟨-, heq⟩
    · refine ih hp' ?_ ha.2
      rw [hlab]
      exact hstep hs hl ho hψ
    · have ha' := ha.2
      rw [heq] at ha'
      change inv ((p.step a.1 a.2).run rest).state _ ∧ _
      rw [run, heq]
      exact ih hp hs ha'

def Heeds (g : Pool L ι σ ε α → ℕ → ι → Prop) : Pool L ι σ ε α → List (ℕ × ι) → Prop
  | _, [] => True
  | p, (j, i) :: rest => g p j i ∧ Heeds g (p.step j i) rest

instance decidableHeeds {g : Pool L ι σ ε α → ℕ → ι → Prop} [∀ p j i, Decidable (g p j i)] :
    (p : Pool L ι σ ε α) → (sched : List (ℕ × ι)) → Decidable (p.Heeds g sched)
  | _, [] => .isTrue trivial
  | p, (j, i) :: rest =>
    have := decidableHeeds (g := g) (p.step j i) rest
    inferInstanceAs (Decidable (g p j i ∧ Heeds g (p.step j i) rest))

theorem heeds_run {g : Pool L ι σ ε α → ℕ → ι → Prop} {inv : Pool L ι σ ε α → Prop}
    {sched : List (ℕ × ι)} (hstep : ∀ p j i, inv p → g p j i → inv (p.step j i)) (hp : inv p)
    (hs : p.Heeds g sched) : inv (p.run sched) := by
  induction sched generalizing p with
  | nil => exact hp
  | cons a rest ih => exact ih (hstep p a.1 a.2 hp hs.1) hs.2

/-- Of the threads in `J`, at most one gets past its marked call: that call needs a
state that is not spent, and the first one to succeed leaves it spent for good. -/
structure OnceOnly (ok : L → ι → σ → Prop) (mark : L → Prop) (spent : σ → Prop) (J : ℕ → Prop)
    (p : Pool L ι σ ε α) : Prop where
  excl : ∀ j j' t t', J j → J j' → j ≠ j' → p.threads[j]? = some t → p.threads[j']? = some t' →
    t.Gated ok mark spent ∨ t'.Gated ok mark spent
  spent : ∀ j t, J j → p.threads[j]? = some t → t.Gated ok mark spent ∨ spent p.state

theorem OnceOnly.step {mark : L → Prop} {spent : σ → Prop} {J : ℕ → Prop}
    (h : p.OnceOnly ok mark spent J) {j : ℕ} {i : ι} (ha : p.Allows ok j i)
    (hfork : ∀ t ∈ p.threads, t.Follow ok ψ)
    (hmark : ∀ l, p.label? j = some l → mark l → ¬ spent p.state)
    (hkeep : spent p.state → spent (p.step j i).state) :
    (p.step j i).OnceOnly ok mark spent J := by
  rcases p.step_cases j i with ⟨l, u, k, ht, hl, hs⟩ | ⟨c, k, ht, -⟩ | ⟨-, hs⟩
  · have ho : ok l i p.state := allows_label ha hl
    have hlt := (List.getElem?_eq_some_iff.mp ht).1
    -- the thread that moves is still gated, or it made its marked call just now
    have hself : J j → (k i p.state).Gated ok mark spent ∨
        (spent p.state ∧ ¬ (Prog.step l u k).Gated ok mark spent) ∨
        (¬ spent p.state ∧ spent (u i p.state)) := by
      intro hJ
      by_cases hg : (Prog.step l u k).Gated ok mark spent
      · rcases hg i p.state ho with hk | ⟨hm, hsp⟩
        · exact .inl hk
        · exact .inr (.inr ⟨hmark l hl hm, hsp⟩)
      · exact .inr (.inl ⟨(h.spent j _ hJ ht).resolve_left hg, hg⟩)
    rw [hs] at hkeep ⊢
    have hother : ∀ j', J j → J j' → j ≠ j' → ∀ t', p.threads[j']? = some t' →
        (k i p.state).Gated ok mark spent ∨ t'.Gated ok mark spent := by
      intro j' hJ hJ' hne t' ht'
      rcases hself hJ with hk | ⟨-, hng⟩ | ⟨hns, -⟩
      · exact .inl hk
      · exact .inr ((h.excl j j' _ t' hJ hJ' hne ht ht').resolve_left hng)
      · exact .inr ((h.spent j' t' hJ' ht').resolve_right hns)
    refine ⟨?_, ?_⟩
    · intro a b t t' hJa hJb hab hta htb
      by_cases haj : j = a
      · subst haj
        rw [List.getElem?_set_self hlt] at hta
        rw [List.getElem?_set_ne hab] at htb
        cases hta
        exact hother b hJa hJb hab t' htb
      · rw [List.getElem?_set_ne haj] at hta
        by_cases hbj : j = b
        · subst hbj
          rw [List.getElem?_set_self hlt] at htb
          cases htb
          exact (hother a hJb hJa haj t hta).symm
        · rw [List.getElem?_set_ne hbj] at htb
          exact h.excl a b t t' hJa hJb hab hta htb
    · intro a t hJa hta
      by_cases haj : j = a
      · subst haj
        rw [List.getElem?_set_self hlt] at hta
        cases hta
        rcases hself hJa with hk | ⟨hsp, -⟩ | ⟨-, hsp⟩
        · exact .inl hk
        · exact .inr (hkeep hsp)
        · exact .inr hsp
      · rw [List.getElem?_set_ne haj] at hta
        exact (h.spent a t hJa hta).imp_right hkeep
  · exact (hfork _ (List.mem_of_getElem? ht)).elim
  · rw [hs]
    exact h

end Pool

end Interleaving
