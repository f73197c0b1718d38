import ElectronicsCart.Lib.Histories
import Mathlib.Data.List.Nodup

/-!
# Programs that run one at a time

A program `Enters` a region that is `shut` while somebody is inside: its first call turns it away then,
and otherwise the region stays shut until the program has ended.  However the calls of such programs
come, the state is the one that the programs that went in leave when they run one after another.
-/

namespace Interleaving

variable {L ι σ ε α β : Type}

namespace Prog

variable {ok : L → ι → σ → Prop} {shut : σ → Prop}

/-- Nothing is left running behind the program. -/
def Sole : Prog L ι σ ε α → Prop
  | .done _ => True
  | .halt => False
  | .step _ _ k => ∀ i s, (k i s).Sole
  | .fork _ _ => False

/-- The region stays shut until the program has ended. -/
def Inside (ok : L → ι → σ → Prop) (shut : σ → Prop) : Prog L ι σ ε α → σ → Prop
  | .done _, _ => True
  | .halt, _ => False
  | .step l u k, s => shut s ∧ ∀ i, ok l i s → (k i s).Inside ok shut (u i s)
  | .fork _ _, _ => False

/-- The first call goes in, or is turned away from a region that is shut. -/
def Enters (ok : L → ι → σ → Prop) (shut : σ → Prop) : Prog L ι σ ε α → Prop
  | .step l u k => ∀ i s, ok l i s →
      (shut s → u i s = s ∧ ∃ r, k i s = .done r) ∧ (¬ shut s → (k i s).Inside ok shut (u i s))
  | _ => False

/-- The program can be turned away with that result. -/
def Refuses (ok : L → ι → σ → Prop) (shut : σ → Prop) : Prog L ι σ ε α → Except ε α → Prop
  | .step l _ k, r => ∃ i s, ok l i s ∧ shut s ∧ k i s = .done r
  | _, _ => False

theorem Sole.bind {p : Prog L ι σ ε β} {k : β → Prog L ι σ ε α} (hp : p.Sole) (hk : ∀ b, (k b).Sole) :
    (p.bind k).Sole := by
  induction p with
  | done r =>
    cases r with
    | ok b => exact hk b
    | error e => trivial
  | halt => exact hp.elim
  | step l u c ih => exact fun i s => ih i s (hp i s)
  | fork c q => exact hp.elim

theorem Sole.attempt {p : Prog L ι σ ε α} (hp : p.Sole) : p.attempt.Sole := by
  induction p with
  | done r => trivial
  | halt => exact hp.elim
  | step l u c ih => exact fun i s => ih i s (hp i s)
  | fork c q => exact hp.elim

theorem Sole.tryCatch {p : Prog L ι σ ε α} {h : ε → Prog L ι σ ε α} (hp : p.Sole) (hh : ∀ e, (h e).Sole) :
    (p.attempt.bind (orElse h)).Sole := by
  refine hp.attempt.bind ?_
  rintro (e | a)
  · exact hh e
  · trivial

theorem sole_call (l : L) (f : ι → σ → Except ε α × σ) : (call l f).Sole := fun _ _ => trivial

theorem Inside.attemptBind {p : Prog L ι σ ε β} {k : Except ε β → Prog L ι σ ε α} {s : σ} (hsole : p.Sole)
    (hp : p.Every ok fun _ _ s s' => shut s → shut s') (hk : ∀ r t, shut t → (k r).Inside ok shut t)
    (hs : shut s) : (p.attempt.bind k).Inside ok shut s := by
  induction p generalizing s with
  | done r => exact hk r s hs
  | halt => exact hsole.elim
  | step l u c ih =>
    refine ⟨hs, ?_⟩
    intro i ho
    obtain ⟨hstep, hrest⟩ := hp i s ho
    exact ih i s (hsole i s) hrest (hstep hs)
  | fork c q => exact hsole.elim

theorem Inside.shut_of_not_done {p : Prog L ι σ ε α} {s : σ} (h : p.Inside ok shut s)
    (hp : p.isDone = false) : shut s := by
  cases p with
  | done r => cases hp
  | halt => exact h.elim
  | step l u k => exact h.1
  | fork c k => exact h.elim

end Prog

namespace Pool

variable {ok : L → ι → σ → Prop} {shut : σ → Prop} {progs : List (Prog L ι σ ε α)} {s t : σ}
  {p : Pool L ι σ ε α} {j : Fin progs.length} {i : ι} {calls : List (Fin progs.length × Except ε α)}

/-- A program that has not gone in: it waits at its first call, or was turned away. -/
def Outside (ok : L → ι → σ → Prop) (shut : σ → Prop) (p : Pool L ι σ ε α) (j : ℕ)
    (q : Prog L ι σ ε α) : Prop :=
  p.threads[j]? = some q ∨ ∃ r, p.threads[j]? = some (.done r) ∧ q.Refuses ok shut r

/-- Those that have ended did so one after another from `s` to `t`. -/
structure Ended (ok : L → ι → σ → Prop) (progs : List (Prog L ι σ ε α)) (s : σ) (p : Pool L ι σ ε α)
    (calls : List (Fin progs.length × Except ε α)) (t : σ) : Prop where
  history : History ok progs.get s calls t
  nodup : (calls.map Prod.fst).Nodup
  done : ∀ c ∈ calls, p.threads[c.1.val]? = some (.done c.2)

/-- Program `j` is inside, where it went from `t`, and has come as far as `q`. -/
def Busy (ok : L → ι → σ → Prop) (shut : σ → Prop) (progs : List (Prog L ι σ ε α))
    (p : Pool L ι σ ε α) (t : σ) (j : Fin progs.length) : Prop :=
  ∃ inputs q, SoloAdmits ok (progs.get j) t inputs ∧ solo (progs.get j) t inputs = ⟨[q], p.state⟩ ∧
    p.threads[j.val]? = some q ∧ q.isDone = false ∧ q.Inside ok shut p.state

/-- How far a pool of such programs has come; `holder` is the one that is inside. -/
structure Serial (ok : L → ι → σ → Prop) (shut : σ → Prop) (progs : List (Prog L ι σ ε α)) (s : σ)
    (p : Pool L ι σ ε α) (calls : List (Fin progs.length × Except ε α)) (t : σ)
    (holder : Option (Fin progs.length)) : Prop where
  ended : Ended ok progs s p calls t
  length : p.threads.length = progs.length
  busy : ∀ j, holder = some j → j ∉ calls.map Prod.fst ∧ Busy ok shut progs p t j
  idle : holder = none → p.state = t
  outside : ∀ j, j ∉ calls.map Prod.fst → holder ≠ some j → Outside ok shut p j (progs.get j)

theorem Serial.start : Serial ok shut progs s ⟨progs, s⟩ [] s none where
  ended := ⟨.nil, List.nodup_nil, fun _ hc => (List.not_mem_nil hc).elim⟩
  length := rfl
  busy _ h := by cases h
  idle _ := rfl
  outside j _ _ := .inl (List.getElem?_eq_getElem j.isLt)

theorem History.map {κ κ' : Type} (f : κ' → κ) {prog : κ → Prog L ι σ ε α}
    {calls : List (κ' × Except ε α)} (h : History ok (fun q => prog (f q)) s calls t) :
    History ok prog s (calls.map (Prod.map f id)) t := by
  induction h with
  | nil => exact .nil
  | snoc _ hr ih =>
    rw [List.map_append]
    exact ih.snoc hr

theorem soloAdmits_snoc {q : Prog L ι σ ε α} {inputs : List ι} :
    SoloAdmits ok q t (inputs ++ [i]) ↔ SoloAdmits ok q t inputs ∧ (solo q t inputs).Allows ok 0 i := by
  unfold SoloAdmits solo
  rw [List.map_append, admits_append]
  exact and_congr_right fun _ => ⟨fun h => h.1, fun h => ⟨h, trivial⟩⟩

theorem solo_snoc {q : Prog L ι σ ε α} {inputs : List ι} :
    solo q t (inputs ++ [i]) = (solo q t inputs).step 0 i := by
  unfold solo
  rw [List.map_append, run_append]
  rfl

theorem Outside.set {n j : ℕ} {q q' : Prog L ι σ ε α} {s' : σ} (h : Outside ok shut p j q) (hne : n ≠ j) :
    Outside ok shut ⟨p.threads.set n q', s'⟩ j q := by
  unfold Outside at h ⊢
  rwa [List.getElem?_set_ne hne]

theorem Ended.set {q : Prog L ι σ ε α} {s' : σ} (h : Ended ok progs s p calls t)
    (hj : j ∉ calls.map Prod.fst) : Ended ok progs s ⟨p.threads.set j q, s'⟩ calls t := by
  refine ⟨h.history, h.nodup, ?_⟩
  intro c hc
  have hne : j.val ≠ c.1.val := by
    intro he
    exact hj (Fin.ext he ▸ List.mem_map_of_mem hc)
  rw [List.getElem?_set_ne hne]
  exact h.done c hc

theorem Serial.advance (inputs : List ι) {q : Prog L ι σ ε α} {s' : σ} (he : Ended ok progs s p calls t)
    (hlen : p.threads.length = progs.length) (hj : j ∉ calls.map Prod.fst)
    (hout : ∀ j', j' ∉ calls.map Prod.fst → j' ≠ j → Outside ok shut p j' (progs.get j'))
    (ha : SoloAdmits ok (progs.get j) t inputs) (hsolo : solo (progs.get j) t inputs = ⟨[q], s'⟩)
    (hq : q.Inside ok shut s') :
    ∃ calls' t' holder, Serial ok shut progs s ⟨p.threads.set j q, s'⟩ calls' t' holder := by
  have hlt : j.val < p.threads.length := by
    rw [hlen]
    exact j.isLt
  have hset : (p.threads.set j q)[j.val]? = some q := List.getElem?_set_self hlt
  have hlen' : (p.threads.set j q).length = progs.length := (List.length_set ..).trans hlen
  have hothers : ∀ j', j' ∉ calls.map Prod.fst → j' ≠ j →
      Outside ok shut ⟨p.threads.set j q, s'⟩ j' (progs.get j') := by
    intro j' hj' hne
    exact (hout j' hj' hne).set fun he => hne (Fin.ext he.symm)
  cases hdone : q.isDone with
  | false =>
    refine ⟨calls, t, some j, he.set hj, hlen', ?_, ?_, ?_⟩
    · intro j' hj'
      obtain rfl := Option.some.inj hj'
      exact ⟨hj, inputs, q, ha, hsolo, hset, hdone, hq⟩
    · intro h
      cases h
    · exact fun j' hj' hne => hothers j' hj' fun heq => hne (congrArg some heq.symm)
  | true =>
    obtain ⟨r, rfl⟩ : ∃ r, q = .done r := by
      cases q with
      | done r => exact ⟨r, rfl⟩
      | halt => cases hdone
      | step l u k => cases hdone
      | fork c k => cases hdone
    have hran : Ran ok (progs.get j) t r s' := ⟨inputs, ha, by rw [hsolo]; rfl, by rw [hsolo]⟩
    refine ⟨calls ++ [(j, r)], s', none, ⟨he.history.snoc hran, ?_, ?_⟩, hlen', ?_, fun _ => rfl, ?_⟩
    · rw [List.map_append, List.map_singleton, List.nodup_append]
      refine ⟨he.nodup, by simp, ?_⟩
      intro a ha' b hb hab
      rw [hab, List.mem_singleton.mp hb] at ha'
      exact hj ha'
    · intro c hc
      rcases List.mem_append.mp hc with hc | hc
      · exact (he.set hj).done c hc
      · obtain rfl := List.mem_singleton.mp hc
        exact hset
    · intro j' h
      cases h
    · intro j' hj' _
      rw [List.map_append, List.mem_append, not_or] at hj'
      exact hothers j' hj'.1 fun heq => hj'.2 (List.mem_singleton.mpr heq)

theorem Serial.refused {holder : Option (Fin progs.length)} {r : Except ε α}
    (h : Serial ok shut progs s p calls t holder) (hj : j ∉ calls.map Prod.fst) (hholder : holder ≠ some j)
    (hr : (progs.get j).Refuses ok shut r) :
    Serial ok shut progs s ⟨p.threads.set j (.done r), p.state⟩ calls t holder where
  ended := h.ended.set hj
  length := (List.length_set ..).trans h.length
  busy j' hj' := by
    obtain ⟨hfresh, inputs, q, ha, hsolo, hq, hdone, hin⟩ := h.busy j' hj'
    have hne : j.val ≠ j'.val := fun heq => hholder (hj'.trans (congrArg some (Fin.ext heq.symm)))
    exact ⟨hfresh, inputs, q, ha, hsolo, (List.getElem?_set_ne hne).trans hq, hdone, hin⟩
  idle := h.idle
  outside j' hj' hne := by
    by_cases heq : j = j'
    · subst heq
      have hlt : j.val < p.threads.length := by
        rw [h.length]
        exact j.isLt
      exact .inr ⟨r, List.getElem?_set_self hlt, hr⟩
    · exact (h.outside j' hj' hne).set fun hval => heq (Fin.ext hval)

theorem Serial.step (hp : ∀ q ∈ progs, q.Enters ok shut) {holder : Option (Fin progs.length)}
    (h : Serial ok shut progs s p calls t holder) {n : ℕ} (ha : p.Allows ok n i) :
    ∃ calls' t' holder', Serial ok shut progs s (p.step n i) calls' t' holder' := by
  rcases p.step_cases n i with ⟨l, u, k, ht, hl, hs⟩ | ⟨c, k, ht, hs⟩ | ⟨-, hs⟩
  · have hok : ok l i p.state := allows_label ha hl
    have hlt : n < progs.length := h.length ▸ (List.getElem?_eq_some_iff.mp ht).1
    obtain ⟨j, rfl⟩ : ∃ j : Fin progs.length, j.val = n := ⟨⟨n, hlt⟩, rfl⟩
    have hj : j ∉ calls.map Prod.fst := by
      intro hm
      obtain ⟨c, hc, rfl⟩ := List.mem_map.mp hm
      rw [h.ended.done c hc] at ht
      cases Option.some.inj ht
    rw [hs]
    by_cases hholder : holder = some j
    · obtain ⟨-, inputs, q, hadm, hsolo, hq, -, hin⟩ := h.busy j hholder
      obtain rfl := Option.some.inj (hq.symm.trans ht)
      have hstep : solo (progs.get j) t (inputs ++ [i]) = ⟨[k i p.state], u i p.state⟩ := by
        rw [solo_snoc, hsolo]
        rfl
      refine Serial.advance (inputs ++ [i]) h.ended h.length hj ?_
        (soloAdmits_snoc.mpr ⟨hadm, ?_⟩) hstep (hin.2 i hok)
      · exact fun j' hj' hne => h.outside j' hj' fun heq => hne (Option.some.inj (heq.symm.trans hholder))
      · rw [hsolo]
        exact hok
    · have henters := hp _ (List.get_mem progs j)
      rcases h.outside j hj hholder with hq | ⟨r, hr, -⟩
      · have hget : progs.get j = .step l u k := Option.some.inj (hq.symm.trans ht)
        rw [hget] at henters
        obtain ⟨hrefused, hin⟩ := henters i p.state hok
        by_cases hshut : shut p.state
        · -- somebody is inside
          obtain ⟨hu, r, hr⟩ := hrefused hshut
          rw [hu, hr]
          refine ⟨calls, t, holder, h.refused hj hholder ?_⟩
          rw [hget]
          exact ⟨i, p.state, hok, hshut, hr⟩
        · have hnone : holder = none := by
            cases hh : holder with
            | none => rfl
            | some j' =>
              obtain ⟨-, -, q, -, -, -, hdone, hin'⟩ := h.busy j' hh
              exact absurd (hin'.shut_of_not_done hdone) hshut
          obtain rfl := h.idle hnone
          refine Serial.advance [i] h.ended h.length hj ?_ ?_ ?_ (hin hshut)
          · exact fun j' hj' _ => h.outside j' hj' (by simp [hnone])
          · rw [hget]
            exact ⟨hok, trivial⟩
          · rw [hget]
            rfl
      · rw [hr] at ht
        cases Option.some.inj ht
  · -- no thread forks
    have hlt : n < progs.length := h.length ▸ (List.getElem?_eq_some_iff.mp ht).1
    obtain ⟨j, rfl⟩ : ∃ j : Fin progs.length, j.val = n := ⟨⟨n, hlt⟩, rfl⟩
    by_cases hj : j ∈ calls.map Prod.fst
    · obtain ⟨c', hc, rfl⟩ := List.mem_map.mp hj
      rw [h.ended.done c' hc] at ht
      cases Option.some.inj ht
    by_cases hholder : holder = some j
    · obtain ⟨-, inputs, q, -, -, hq, -, hin⟩ := h.busy j hholder
      obtain rfl := Option.some.inj (hq.symm.trans ht)
      exact hin.elim
    · rcases h.outside j hj hholder with hq | ⟨r, hr, -⟩
      · have hget := hp _ (List.get_mem progs j)
        rw [Option.some.inj (hq.symm.trans ht)] at hget
        exact hget.elim
      · rw [hr] at ht
        cases Option.some.inj ht
  · rw [hs]
    exact ⟨calls, t, holder, h⟩

theorem Serial.run (hp : ∀ q ∈ progs, q.Enters ok shut) {holder : Option (Fin progs.length)}
    (h : Serial ok shut progs s p calls t holder) {sched : List (ℕ × ι)} (ha : p.Admits ok sched) :
    ∃ calls' t' holder', Serial ok shut progs s (p.run sched) calls' t' holder' := by
  induction sched generalizing p calls t holder with
  | nil => exact ⟨calls, t, holder, h⟩
  | cons a rest ih =>
    obtain ⟨calls', t', holder', h'⟩ := h.step hp ha.1
    exact ih h' ha.2

/-- Requests whose programs enter the region, all at once. -/
structure Serialized {κ : Type} (ok : L → ι → σ → Prop) (shut : σ → Prop) (prog : κ → Prog L ι σ ε α)
    (requests : List κ) (s : σ) (p : Pool L ι σ ε α)
    (calls : List (Fin requests.length × Except ε α)) : Prop where
  history : History ok (fun j => prog (requests.get j)) s calls p.state
  nodup : (calls.map Prod.fst).Nodup
  done : ∀ c ∈ calls, p.threads[c.1.val]? = some (.done c.2)
  outside : ∀ j, j ∉ calls.map Prod.fst → Outside ok shut p j (prog (requests.get j))

/-- Whenever nobody is inside, the programs that went in have run one after another; the others wait at
their first call or were turned away. -/
theorem serialized {κ : Type} {prog : κ → Prog L ι σ ε α} {requests : List κ}
    (hp : ∀ q ∈ requests, (prog q).Enters ok shut) {sched : List (ℕ × ι)}
    (ha : (⟨requests.map prog, s⟩ : Pool L ι σ ε α).Admits ok sched)
    (hopen : ¬ shut ((⟨requests.map prog, s⟩ : Pool L ι σ ε α).run sched).state) :
    ∃ calls, Serialized ok shut prog requests s
      ((⟨requests.map prog, s⟩ : Pool L ι σ ε α).run sched) calls := by
  have hall : ∀ q ∈ requests.map prog, q.Enters ok shut := List.forall_mem_map.mpr hp
  obtain ⟨calls, t, holder, h⟩ := Serial.run hall Serial.start ha
  have hnone : holder = none := by
    cases hholder : holder with
    | none => rfl
    | some j =>
      obtain ⟨-, -, q, -, -, -, hdone, hin⟩ := h.busy j hholder
      exact absurd (hin.shut_of_not_done hdone) hopen
  obtain rfl := h.idle hnone
  obtain ⟨hhistory, hnodup, hdone⟩ := h.ended
  have hout := fun j hj => h.outside j hj (by simp [hnone])
  have hlen : (requests.map prog).length = requests.length := List.length_map ..
  have hget : ∀ j, (requests.map prog).get j = prog (requests.get (j.cast hlen)) := by
    intro j
    simp only [List.get_eq_getElem, List.getElem_map, Fin.val_cast]
  refine ⟨calls.map (Prod.map (Fin.cast hlen) id), ?_, ?_, ?_, ?_⟩
  · have hprog : (requests.map prog).get = fun j => prog (requests.get (j.cast hlen)) := funext hget
    rw [hprog] at hhistory
    refine History.map (Fin.cast hlen) ?_
    exact hhistory
  · rw [List.map_map]
    have hfst : Prod.fst ∘ Prod.map (Fin.cast hlen) id =
        fun c : Fin (requests.map prog).length × Except ε α => Fin.cast hlen c.1 := rfl
    rw [hfst, ← Function.comp_def, ← List.map_map]
    refine List.Nodup.map ?_ hnodup
    intro a b hab
    have hval : a.val = b.val := congrArg (fun c : Fin requests.length => c.val) hab
    exact Fin.ext hval
  · intro c hc
    obtain ⟨c', hc', rfl⟩ := List.mem_map.mp hc
    exact hdone c' hc'
  · intro j hj
    have h' := hout (j.cast hlen.symm) fun hm => hj ?_
    · rw [hget] at h'
      exact h'
    · obtain ⟨c, hc, hcj⟩ := List.mem_map.mp hm
      refine List.mem_map.mpr ⟨_, List.mem_map_of_mem hc, ?_⟩
      rw [Prod.map_fst, hcj]
      rfl

end Pool

end Interleaving
