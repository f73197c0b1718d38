import ElectronicsCart.Core.Alone
import ElectronicsCart.Lib.Journals

/-!
# Database calls with a journal

The rules of `query` and `atomic` for programs that keep a journal of their calls.
-/

namespace ElectronicsCart

open Interleaving

variable {L γ σ α β : Type} {W : World (ℕ × L) (Input γ) (Journaled L (Input γ) σ)}
  {C D : Discipline (ℕ × L) (Input γ) (Journaled L (Input γ) σ)}
  {t : Journaled L (Input γ) σ} {Q : Except Failure α → Journaled L (Input γ) σ → Prop} {c : ℕ}

theorem sequential_atomic {L γ σ β : Type} (l : L) (f : Input γ → σ → Except Failure (β × σ)) :
    (atomic l f).Sequential :=
  Prog.sequential_call _ _

theorem LockService.sequential_withLock {κ : Type} [DecidableEq κ] [Lockable L σ κ] (key : κ)
    (token : ℕ) {fn : Prog L (Input γ) σ Failure α} (hfn : fn.Sequential) :
    (LockService.withLock key token fn).Sequential :=
  (sequential_atomic _ _).bind fun _ => Prog.Sequential.bind trivial fun _ =>
    hfn.andFinally (sequential_atomic _ _)

theorem holds_journaledQuery {l : L} {f : Input γ → σ → β} {k : β → Prog L (Input γ) σ Failure α}
    (h : ∀ u, D.rely t u → W.inv u → ∀ i, W.ok (c, l) i u →
      let u' := u.record c l i u.state
      W.inv u' ∧ D.guar (c, l) i u u' ∧
        (i.fails = true → ∀ v, D.rely u' v → W.inv v → Q (.error .database) v) ∧
        (i.fails = false → Holds W C D Q ((k (f i u.state)).journaled c) u')) :
    Holds W C D Q (((query l f).bind k).journaled c) t := by
  rw [Prog.journaled_bind, query, Prog.journaled_call]
  refine Holds.callBind fun u hu hi i ho => ?_
  obtain ⟨hinv, hg, herr, hk⟩ := h u hu hi i ho
  refine ⟨hinv, hg, ?_⟩
  cases hf : i.fails with
  | true => simpa [hf] using herr hf
  | false => simpa [hf] using hk hf

theorem holds_journaledAtomic {l : L} {f : Input γ → σ → Except Failure (β × σ)}
    {k : β → Prog L (Input γ) σ Failure α}
    (h : ∀ u, D.rely t u → W.inv u → ∀ i, W.ok (c, l) i u →
      (∀ e, i.fails = true ∨ f i u.state = .error e →
        let u' := u.record c l i u.state
        W.inv u' ∧ D.guar (c, l) i u u' ∧ ∀ v, D.rely u' v → W.inv v → Q (.error e) v) ∧
      ∀ b s', i.fails = false → f i u.state = .ok (b, s') →
        let u' := u.record c l i s'
        W.inv u' ∧ D.guar (c, l) i u u' ∧ Holds W C D Q ((k b).journaled c) u') :
    Holds W C D Q (((atomic l f).bind k).journaled c) t := by
  rw [Prog.journaled_bind, atomic, Prog.journaled_call]
  refine Holds.callBind fun u hu hi i ho => ?_
  obtain ⟨herr, hk⟩ := h u hu hi i ho
  cases hf : i.fails with
  | true =>
    obtain ⟨hinv, hg, hQ⟩ := herr .database (.inl hf)
    exact ⟨by simpa [hf] using hinv, by simpa [hf] using hg, by simpa [hf] using hQ⟩
  | false =>
    cases hr : f i u.state with
    | error e =>
      obtain ⟨hinv, hg, hQ⟩ := herr e (.inr hr)
      exact ⟨by simpa [hf, hr, settle] using hinv, by simpa [hf, hr, settle] using hg,
        by simpa [hf, hr, settle] using hQ⟩
    | ok r =>
      obtain ⟨hinv, hg, hrest⟩ := hk r.1 r.2 hf hr
      exact ⟨by simpa [hf, hr, settle] using hinv, by simpa [hf, hr, settle] using hg,
        by simpa [hf, hr, settle] using hrest⟩

theorem holds_journaledEnsure {p : Prop} [Decidable p] {e : Failure}
    {k : Unit → Prog L (Input γ) σ Failure α} (hpos : p → Holds W C D Q ((k ()).journaled c) t)
    (hneg : ¬ p → ∀ v, D.rely t v → W.inv v → Q (.error e) v) :
    Holds W C D Q (((Prog.ensure p e).bind k).journaled c) t := by
  rw [Prog.journaled_bind]
  exact Holds.ensureBind hpos hneg

theorem holds_journaledOrThrow {o : Option β} {e : Failure} {k : β → Prog L (Input γ) σ Failure α}
    (hsome : ∀ b, o = some b → Holds W C D Q ((k b).journaled c) t)
    (hnone : o = none → ∀ v, D.rely t v → W.inv v → Q (.error e) v) :
    Holds W C D Q (((Prog.orThrow e o).bind k).journaled c) t := by
  cases o with
  | some b => exact hsome b rfl
  | none => exact hnone rfl

theorem holds_journaledRead {l : L} {f : Input γ → σ → α}
    (h : ∀ u, D.rely t u → W.inv u → ∀ i, W.ok (c, l) i u →
      let u' := u.record c l i u.state
      W.inv u' ∧ D.guar (c, l) i u u' ∧
        (∀ v, D.rely u' v → W.inv v → Q (.error .database) v) ∧
        ∀ v, D.rely u' v → W.inv v → Q (.ok (f i u.state)) v) :
    Holds W C D Q ((query l f).journaled c) t := by
  rw [query, Prog.journaled_call]
  refine Holds.call fun u hu hi i ho => ?_
  obtain ⟨hinv, hg, herr, hok⟩ := h u hu hi i ho
  refine ⟨hinv, hg, ?_⟩
  cases hf : i.fails with
  | true => simpa [hf] using herr
  | false => simpa [hf] using hok

theorem holds_journaledWrite {l : L} {f : Input γ → σ → Except Failure (α × σ)}
    (h : ∀ u, D.rely t u → W.inv u → ∀ i, W.ok (c, l) i u →
      (∀ e, i.fails = true ∨ f i u.state = .error e →
        let u' := u.record c l i u.state
        W.inv u' ∧ D.guar (c, l) i u u' ∧ ∀ v, D.rely u' v → W.inv v → Q (.error e) v) ∧
      ∀ b s', i.fails = false → f i u.state = .ok (b, s') →
        let u' := u.record c l i s'
        W.inv u' ∧ D.guar (c, l) i u u' ∧ ∀ v, D.rely u' v → W.inv v → Q (.ok b) v) :
    Holds W C D Q ((atomic l f).journaled c) t := by
  rw [atomic, Prog.journaled_call]
  refine Holds.call fun u hu hi i ho => ?_
  obtain ⟨herr, hk⟩ := h u hu hi i ho
  cases hf : i.fails with
  | true =>
    obtain ⟨hinv, hg, hQ⟩ := herr .database (.inl hf)
    exact ⟨by simpa [hf] using hinv, by simpa [hf] using hg, by simpa [hf] using hQ⟩
  | false =>
    cases hr : f i u.state with
    | error e =>
      obtain ⟨hinv, hg, hQ⟩ := herr e (.inr hr)
      exact ⟨by simpa [hf, hr, settle] using hinv, by simpa [hf, hr, settle] using hg,
        by simpa [hf, hr, settle] using hQ⟩
    | ok r =>
      obtain ⟨hinv, hg, hQ⟩ := hk r.1 r.2 hf hr
      exact ⟨by simpa [hf, hr, settle] using hinv, by simpa [hf, hr, settle] using hg,
        by simpa [hf, hr, settle] using hQ⟩

/-! ### A program by itself -/

/-- `p` started in `t` runs alone, enters its calls in the journal, and ends with `Q`. -/
def Traced (ok : L → Input γ → σ → Prop) (Q : Except Failure α → Journaled L (Input γ) σ → Prop)
    (p : Prog L (Input γ) σ Failure α) (t : Journaled L (Input γ) σ) : Prop :=
  Alone (fun l i u => ok l.2 i u.state) Q (p.journaled 0) t

variable {ok : L → Input γ → σ → Prop}

theorem solo_traced {p : Prog L (Input γ) σ Failure α} {s : σ} {inputs : List (Input γ)}
    {r : Except Failure α} (h : Traced ok Q p ⟨s, []⟩) (ha : Pool.SoloAdmits ok p s inputs)
    (hr : (Pool.solo p s inputs).result? = some r) :
    Q r ⟨(Pool.solo p s inputs).state, Pool.callsOf p s inputs⟩ := by
  have hk := Pool.keeps_solo p s inputs
  have hdone := hk.done (Pool.threads_of_result hr)
  have ha' := (Pool.keeps_journaled (⟨[p], s⟩ : Pool L (Input γ) σ Failure α)).admits ha
  have hholds : Holds ⟨fun l i u => ok l.2 i u.state, fun _ => True⟩ undisturbed undisturbed Q
      (p.journaled 0) ⟨s, []⟩ := h
  have hpost := Pool.solo_post trivial hholds ha' hdone
  rw [← hk.state]
  exact hpost

namespace Traced

theorem done {r : Except Failure α} (h : Q r t) : Traced ok Q (.done r) t := Alone.done h

theorem mono {Q' : Except Failure α → Journaled L (Input γ) σ → Prop}
    {p : Prog L (Input γ) σ Failure α} (hQ : ∀ r u, Q r u → Q' r u) (h : Traced ok Q p t) :
    Traced ok Q' p t :=
  Alone.mono hQ h

theorem bind {R : Except Failure β → Journaled L (Input γ) σ → Prop}
    {p : Prog L (Input γ) σ Failure β} {k : β → Prog L (Input γ) σ Failure α}
    (hp : Traced ok R p t) (hk : ∀ b u, R (.ok b) u → Traced ok Q (k b) u)
    (herr : ∀ e u, R (.error e) u → Q (.error e) u) : Traced ok Q (p.bind k) t := by
  unfold Traced
  rw [Prog.journaled_bind]
  exact Alone.bind hp hk herr

theorem ensureBind {c : Prop} [Decidable c] {e : Failure} {k : Unit → Prog L (Input γ) σ Failure α}
    (hpos : c → Traced ok Q (k ()) t) (hneg : ¬ c → Q (.error e) t) :
    Traced ok Q ((Prog.ensure c e).bind k) t := by
  unfold Traced
  rw [Prog.journaled_bind]
  exact Alone.ensureBind hpos hneg

theorem orThrowBind {o : Option β} {e : Failure} {k : β → Prog L (Input γ) σ Failure α}
    (hsome : ∀ b, o = some b → Traced ok Q (k b) t) (hnone : o = none → Q (.error e) t) :
    Traced ok Q ((Prog.orThrow e o).bind k) t := by
  cases o with
  | some b => exact hsome b rfl
  | none => exact done (hnone rfl)

theorem attemptBind {R : Except Failure β → Journaled L (Input γ) σ → Prop}
    {p : Prog L (Input γ) σ Failure β} {k : Except Failure β → Prog L (Input γ) σ Failure α}
    (hp : Traced ok R p t) (hk : ∀ r u, R r u → Traced ok Q (k r) u) :
    Traced ok Q (p.attempt.bind k) t := by
  unfold Traced
  rw [Prog.journaled_bind, Prog.journaled_attempt]
  exact Alone.attemptBind hp hk

theorem call {l : L} {f : Input γ → σ → Except Failure α × σ}
    (h : ∀ i, ok l i t.state → Q (f i t.state).1 (t.record 0 l i (f i t.state).2)) :
    Traced ok Q (Prog.call l f) t := by
  unfold Traced
  rw [Prog.journaled_call]
  refine Holds.call ?_
  rintro u rfl - i ho
  refine ⟨trivial, trivial, ?_⟩
  rintro v rfl -
  exact h i ho

theorem queryBind {l : L} {f : Input γ → σ → β} {k : β → Prog L (Input γ) σ Failure α}
    (h : ∀ i, ok l i t.state → i.fails = false →
      Traced ok Q (k (f i t.state)) (t.record 0 l i t.state))
    (herr : ∀ i, ok l i t.state → i.fails = true → Q (.error .database) (t.record 0 l i t.state)) :
    Traced ok Q ((query l f).bind k) t := by
  refine holds_journaledQuery ?_
  rintro u rfl - i ho
  refine ⟨trivial, trivial, fun hf => ?_, fun hf => h i ho hf⟩
  rintro v rfl -
  exact herr i ho hf

theorem atomicBind {l : L} {f : Input γ → σ → Except Failure (β × σ)}
    {k : β → Prog L (Input γ) σ Failure α}
    (h : ∀ i b s, ok l i t.state → i.fails = false → f i t.state = .ok (b, s) →
      Traced ok Q (k b) (t.record 0 l i s))
    (herr : ∀ i e, ok l i t.state → i.fails = true ∨ f i t.state = .error e →
      Q (.error e) (t.record 0 l i t.state)) :
    Traced ok Q ((atomic l f).bind k) t := by
  refine holds_journaledAtomic ?_
  rintro u rfl - i ho
  refine ⟨fun e he => ⟨trivial, trivial, ?_⟩, fun b s hf hs => ⟨trivial, trivial, h i b s ho hf hs⟩⟩
  rintro v rfl -
  exact herr i e ho he

theorem atomic {l : L} {f : Input γ → σ → Except Failure (α × σ)}
    (h : ∀ i b s, ok l i t.state → i.fails = false → f i t.state = .ok (b, s) →
      Q (.ok b) (t.record 0 l i s))
    (herr : ∀ i e, ok l i t.state → i.fails = true ∨ f i t.state = .error e →
      Q (.error e) (t.record 0 l i t.state)) : Traced ok Q (ElectronicsCart.atomic l f) t := by
  refine holds_journaledWrite ?_
  rintro u rfl - i ho
  refine ⟨fun e he => ⟨trivial, trivial, ?_⟩, fun b s hf hs => ⟨trivial, trivial, ?_⟩⟩
  · rintro v rfl -
    exact herr i e ho he
  · rintro v rfl -
    exact h i b s ho hf hs

theorem of_every {P : Journaled L (Input γ) σ → Prop} {p : Prog L (Input γ) σ Failure α}
    {ψ : L → Input γ → σ → σ → Prop} (hp : p.Every (fun _ _ _ => True) ψ)
    (hP : ∀ l i u s, P u → ψ l i u.state s → P (u.record 0 l i s)) (ht : P t) :
    Traced ok (fun _ u => P u) p t := by
  refine Alone.of_every ((Prog.Every.journaled hp).imp (fun _ _ _ _ => trivial) ?_) ht
  rintro l i u u' - ⟨s, -, rfl, hs⟩ hu
  exact hP _ _ _ _ hu hs

theorem zoom {M τ : Type} {label : L → M} {get : τ → σ} {set : σ → τ → τ}
    {R : Journaled M (Input γ) τ → Journaled L (Input γ) σ → Prop} {p : Prog L (Input γ) σ Failure α}
    {v : Journaled M (Input γ) τ} (hget : ∀ v u, R v u → get v.state = u.state)
    (hcall : ∀ v u l i s, R v u → R (v.record 0 (label l) i (set s v.state)) (u.record 0 l i s))
    (hR : R v t) (h : Traced (fun _ _ _ => True) Q p t) :
    Traced (fun _ _ _ => True) (fun r v => ∃ u, R v u ∧ Q r u) (p.zoom label get set) v := by
  induction p generalizing v t Q with
  | done r => exact done ⟨t, hR, h t rfl trivial⟩
  | halt => trivial
  | step l f k ih =>
    rintro _ rfl - i -
    obtain ⟨-, -, hk⟩ := h t rfl trivial i trivial
    refine ⟨trivial, trivial, ?_⟩
    dsimp only
    rw [hget v t hR]
    refine ih i t.state ?_ hk
    have hstep := hcall v t l i (f i t.state) hR
    exact hstep
  | fork c k ihc ihk =>
    rintro _ rfl -
    obtain ⟨hc, hk⟩ := h t rfl trivial
    exact ⟨Alone.mono (fun _ _ _ => trivial) (ihc (Q := fun _ _ => True) hR hc), ihk hR hk⟩

theorem withLock_blind {κ : Type} [DecidableEq κ] [Lockable L σ κ] {key : κ} {token : ℕ}
    {fn : Prog L (Input γ) σ Failure α} {P : Journaled L (Input γ) σ → Prop}
    (hstart : ∀ u, P u → Traced ok Q fn u)
    (hP : ∀ i m, P (t.record 0 (Lockable.acquireCall σ key token) i (Lockable.setLocks L m t.state)))
    (hbusy : ∀ e i, Q (.error e) (t.record 0 (Lockable.acquireCall σ key token) i t.state))
    (hlocks : ∀ r i m u, Q r u →
      Q r (u.record 0 (Lockable.releaseCall σ key token) i (Lockable.setLocks L m u.state)))
    (hkeep : ∀ r i u, Q r u → Q r (u.record 0 (Lockable.releaseCall σ key token) i u.state))
    (hstuck : ∀ e r i u, Q r u →
      Q (.error e) (u.record 0 (Lockable.releaseCall σ key token) i u.state)) :
    Traced ok Q (LockService.withLock key token fn) t := by
  have hrelease : ∀ r u, Q r u →
      Traced ok Q ((LockService.release key token).bind fun _ => .done r) u := by
    intro r u hu
    refine atomicBind (fun i _ s _ _ hs => done ?_) fun i e _ _ => hstuck e r i u hu
    obtain ⟨-, rfl⟩ := Prod.mk.inj (Except.ok.inj hs)
    rcases LockService.drop_cases (L := L) key token u.state with ⟨-, hd⟩ | hd
    · rw [hd]
      exact hlocks r i _ u hu
    · rw [hd]
      exact hkeep r i u hu
  refine atomicBind (fun i got s _ _ hs => ?_) fun i e _ _ => hbusy e i
  rcases LockService.take_cases (Except.ok.inj hs) with ⟨rfl, -, rfl⟩ | ⟨rfl, rfl⟩
  · refine ensureBind (fun _ => ?_) fun h => (h rfl).elim
    exact attemptBind (hstart _ (hP i _)) fun r u hu => hrelease r u hu
  · exact ensureBind (fun h => nomatch h) fun _ => hbusy _ i

end Traced

end ElectronicsCart
