import ElectronicsCart.Lib.Interference

/-!
# Programs one after another

`Pool.Ran` says that a program by itself went from one state to another and how it ended;
`Pool.History` is a sequence of such runs, each from where the last one stopped.
-/

namespace Interleaving

variable {L ι σ ε α β κ : Type}

namespace Prog

/-- After a bad call nothing is left but to end, as `G` says. -/
def Exits (bad : L → ι → σ → Prop) (G : Except ε α → σ → Prop) : Prog L ι σ ε α → Prop
  | .done _ => True
  | .halt => True
  | .step l u k => ∀ i s, (bad l i s → ∃ r, k i s = .done r ∧ G r (u i s)) ∧ Exits bad G (k i s)
  | .fork _ k => Exits bad G k

variable {bad : L → ι → σ → Prop} {G : Except ε α → σ → Prop}

theorem Exits.bind {p : Prog L ι σ ε β} {k : β → Prog L ι σ ε α}
    (hp : p.Every (fun _ _ _ => True) fun l i s _ => ¬ bad l i s) (hk : ∀ b, (k b).Exits bad G) :
    (p.bind k).Exits bad G := by
  induction p with
  | done r =>
    cases r with
    | ok b => exact hk b
    | error e => trivial
  | halt => trivial
  | step l u c ih =>
    intro i s
    obtain ⟨hgood, hc⟩ := hp i s trivial
    exact ⟨fun h => absurd h hgood, ih i s hc⟩
  | fork c q _ ihq => exact ihq hp.2

theorem Exits.callBind {l : L} {f : ι → σ → Except ε β × σ} {k : β → Prog L ι σ ε α}
    (h : ∀ i s, bad l i s → ∃ e, (f i s).1 = .error e ∧ G (.error e) (f i s).2)
    (hk : ∀ b, (k b).Exits bad G) : ((call l f).bind k).Exits bad G := by
  intro i s
  change (bad l i s → ∃ r, (Prog.done (f i s).1).bind k = .done r ∧ G r (f i s).2) ∧
    ((Prog.done (f i s).1).bind k).Exits bad G
  cases hf : (f i s).1 with
  | ok b =>
    refine ⟨fun hb => ?_, hk b⟩
    obtain ⟨e, he, -⟩ := h i s hb
    rw [hf] at he
    cases he
  | error e =>
    refine ⟨fun hb => ?_, trivial⟩
    obtain ⟨e', he, hG⟩ := h i s hb
    rw [hf] at he
    cases he
    exact ⟨_, rfl, hG⟩

end Prog

namespace Pool

def result? (p : Pool L ι σ ε α) : Option (Except ε α) :=
  match p.threads with
  | .done r :: _ => some r
  | _ => none

theorem threads_of_result {p : Pool L ι σ ε α} {r : Except ε α} (h : p.result? = some r) :
    p.threads[0]? = some (.done r) := by
  unfold result? at h
  split at h
  next hd =>
    rw [hd, Option.some.inj h]
    rfl
  next => cases h

theorem run_done {p : Pool L ι σ ε α} {r : Except ε α} (hr : p.threads[0]? = some (.done r))
    (inputs : List ι) : p.run (inputs.map fun i => (0, i)) = p := by
  induction inputs with
  | nil => rfl
  | cons i rest ih =>
    have hstep : p.step 0 i = p := by simp [step, hr]
    simp only [List.map_cons, run, hstep, ih]

theorem solo_done {r : Except ε α} {s : σ} (inputs : List ι) :
    solo (.done r) s inputs = (⟨[.done r], s⟩ : Pool L ι σ ε α) := run_done rfl inputs

theorem solo_cons {l : L} {u : ι → σ → σ} {k : ι → σ → Prog L ι σ ε α} {s : σ} {i : ι}
    {rest : List ι} : solo (.step l u k) s (i :: rest) = solo (k i s) (u i s) rest := rfl

theorem solo_exits {bad : L → ι → σ → Prop} {G : Except ε α → σ → Prop} {q : Prog L ι σ ε α} {s : σ}
    {inputs : List ι} (hq : q.Exits bad G) (ha : ¬ SoloAdmits (fun l i s => ¬ bad l i s) q s inputs) :
    ∃ r, (solo q s inputs).threads[0]? = some (.done r) ∧ G r (solo q s inputs).state := by
  suffices hgen : ∀ p : Pool L ι σ ε α, (∃ t, p.threads[0]? = some t ∧ t.Exits bad G) →
      ¬ p.Admits (fun l i s => ¬ bad l i s) (inputs.map fun i => (0, i)) →
      ∃ r, (p.run (inputs.map fun i => (0, i))).threads[0]? = some (.done r) ∧
        G r (p.run (inputs.map fun i => (0, i))).state from hgen _ ⟨q, rfl, hq⟩ ha
  clear ha
  induction inputs with
  | nil => exact fun p _ ha => absurd trivial ha
  | cons i rest ih =>
    rintro p ⟨t, ht, hexits⟩ ha
    have hlt := (List.getElem?_eq_some_iff.mp ht).1
    simp only [List.map_cons, run]
    by_cases hfirst : p.Allows (fun l i s => ¬ bad l i s) 0 i
    · refine ih _ ?_ fun hrest => ha ⟨hfirst, hrest⟩
      rcases p.step_cases 0 i with ⟨l, u, k, ht', -, hs⟩ | ⟨c, k, ht', hs⟩ | ⟨-, hs⟩
      · obtain rfl := Option.some.inj (ht.symm.trans ht')
        rw [hs]
        exact ⟨_, List.getElem?_set_self hlt, (hexits i p.state).2⟩
      · obtain rfl := Option.some.inj (ht.symm.trans ht')
        rw [hs]
        refine ⟨k, ?_, hexits⟩
        rw [List.getElem?_append_left (by simpa using hlt), List.getElem?_set_self hlt]
      · rw [hs]
        exact ⟨t, ht, hexits⟩
    · -- the call is bad, and the program has ended
      rcases p.step_cases 0 i with ⟨l, u, k, ht', hl, hs⟩ | ⟨c, k, ht', -⟩ | ⟨hl, -⟩
      · obtain rfl := Option.some.inj (ht.symm.trans ht')
        have hbad : bad l i p.state := by
          by_contra hgood
          exact hfirst (by simpa only [Allows, hl] using hgood)
        obtain ⟨r, hr, hG⟩ := (hexits i p.state).1 hbad
        have hend : (p.step 0 i).threads[0]? = some (.done r) := by
          rw [hs, ← hr]
          exact List.getElem?_set_self hlt
        rw [run_done hend]
        exact ⟨r, hend, by rw [hs]; exact hG⟩
      · exact absurd (by simp [Allows, label?, ht']) hfirst
      · exact absurd (by simp [Allows, hl]) hfirst

theorem soloAdmits_imp {ok ok' : L → ι → σ → Prop} {q : Prog L ι σ ε α} {s : σ} {inputs : List ι}
    (h : ∀ i ∈ inputs, ∀ l t, ok' l i t → ok l i t) (ha : SoloAdmits ok' q s inputs) :
    SoloAdmits ok q s inputs := by
  suffices hgen : ∀ p : Pool L ι σ ε α, p.Admits ok' (inputs.map fun i => (0, i)) →
      p.Admits ok (inputs.map fun i => (0, i)) from hgen _ ha
  clear ha
  induction inputs with
  | nil => exact fun _ _ => trivial
  | cons i rest ih =>
    intro p ha
    refine ⟨?_, ih (fun i hi => h i (List.mem_cons_of_mem _ hi)) _ ha.2⟩
    exact Allows.mono (fun l => h i List.mem_cons_self l p.state) ha.1

theorem soloAdmits_of_forall {ok : L → ι → σ → Prop} {q : Prog L ι σ ε α} {s : σ} {inputs : List ι}
    (h : ∀ i ∈ inputs, ∀ l t, ok l i t) : SoloAdmits ok q s inputs := by
  have hany : SoloAdmits (fun _ _ _ => True) q s inputs :=
    admits_of_forall (fun _ _ _ => trivial) _ _
  exact soloAdmits_imp (fun i hi l t _ => h i hi l t) hany

/-- The program by itself ended with `r` in state `s'`. -/
def Ran (ok : L → ι → σ → Prop) (q : Prog L ι σ ε α) (s : σ) (r : Except ε α) (s' : σ) : Prop :=
  ∃ inputs, SoloAdmits ok q s inputs ∧ (solo q s inputs).result? = some r ∧
    (solo q s inputs).state = s'

theorem admits_mono {ok ok' : L → ι → σ → Prop} (h : ∀ l i t, ok l i t → ok' l i t)
    {p : Pool L ι σ ε α} {sched : List (ℕ × ι)} (ha : p.Admits ok sched) : p.Admits ok' sched := by
  induction sched generalizing p with
  | nil => trivial
  | cons a rest ih => exact ⟨Allows.mono (fun l => h l a.2 p.state) ha.1, ih ha.2⟩

theorem Ran.mono {ok ok' : L → ι → σ → Prop} {q : Prog L ι σ ε α} {s s' : σ} {r : Except ε α}
    (h : ∀ l i t, ok l i t → ok' l i t) (hr : Ran ok q s r s') : Ran ok' q s r s' := by
  obtain ⟨inputs, ha, hres⟩ := hr
  exact ⟨inputs, admits_mono h ha, hres⟩

theorem Ran.post {W : World L ι σ} {C D : Discipline L ι σ} {Q : Except ε α → σ → Prop}
    {q : Prog L ι σ ε α} {s s' : σ} {r : Except ε α} (hi : W.inv s) (h : Holds W C D Q q s)
    (hr : Ran W.ok q s r s') : Q r s' := by
  obtain ⟨inputs, ha, hres, rfl⟩ := hr
  exact solo_post hi h ha (threads_of_result hres)

/-- The requests that were made, with their results, from one state to another. -/
inductive History (ok : L → ι → σ → Prop) (prog : κ → Prog L ι σ ε α) (s : σ) :
    List (κ × Except ε α) → σ → Prop
  | nil : History ok prog s [] s
  | snoc {calls : List (κ × Except ε α)} {t u : σ} {q : κ} {r : Except ε α} :
      History ok prog s calls t → Ran ok (prog q) t r u → History ok prog s (calls ++ [(q, r)]) u

theorem History.invariant {ok : L → ι → σ → Prop} {prog : κ → Prog L ι σ ε α} {s s' : σ}
    {calls : List (κ × Except ε α)} {P : List (κ × Except ε α) → σ → Prop}
    (h : History ok prog s calls s') (hnil : P [] s)
    (hsnoc : ∀ calls t q r u, P calls t → Ran ok (prog q) t r u → P (calls ++ [(q, r)]) u) :
    P calls s' := by
  induction h with
  | nil => exact hnil
  | snoc _ hr ih => exact hsnoc _ _ _ _ _ ih hr

/-- A request with how it ended, and the states between which it ran. -/
structure Turn (κ ε α σ : Type) where
  request : κ
  result : Except ε α
  before : σ
  after : σ

inductive Chain (ok : L → ι → σ → Prop) (prog : κ → Prog L ι σ ε α) (s : σ) :
    List (Turn κ ε α σ) → σ → Prop
  | nil : Chain ok prog s [] s
  | snoc {turns : List (Turn κ ε α σ)} {t u : σ} {q : κ} {r : Except ε α} :
      Chain ok prog s turns t → Ran ok (prog q) t r u → Chain ok prog s (turns ++ [⟨q, r, t, u⟩]) u

theorem Chain.invariant {ok : L → ι → σ → Prop} {prog : κ → Prog L ι σ ε α} {s s' : σ}
    {turns : List (Turn κ ε α σ)} {good : Turn κ ε α σ → Prop} {P : List (Turn κ ε α σ) → σ → Prop}
    (h : Chain ok prog s turns s') (hgood : ∀ turn ∈ turns, good turn) (hnil : P [] s)
    (hsnoc : ∀ turns t q r u, P turns t → good ⟨q, r, t, u⟩ → Ran ok (prog q) t r u →
      P (turns ++ [⟨q, r, t, u⟩]) u) : P turns s' := by
  induction h with
  | nil => exact hnil
  | snoc _ hr ih =>
    have hlast := hgood _ (List.mem_append_right _ List.mem_cons_self)
    exact hsnoc _ _ _ _ _ (ih fun turn hm => hgood turn (List.mem_append_left _ hm)) hlast hr

end Pool

end Interleaving
