import ElectronicsCart.Core.Lock
import ElectronicsCart.Lib.Histories

/-!
# Requests that run alone

Rules for a program that nobody interferes with: every call sees the state that the call before it
left.  `Alone ok Q p s` says that `p` started in `s` ends with `Q`, if its calls meet `ok`.
-/

namespace ElectronicsCart

open Interleaving

variable {L γ σ ε α β : Type}

/-- Nobody else runs and nothing is said about the calls. -/
def undisturbed : Discipline L (Input γ) σ := Discipline.alone fun _ _ _ _ => True

def Alone (ok : L → Input γ → σ → Prop) (Q : Except ε α → σ → Prop)
    (p : Prog L (Input γ) σ ε α) (s : σ) : Prop :=
  Holds ⟨ok, fun _ => True⟩ undisturbed undisturbed Q p s

/-- The postcondition of a program of which only the success matters. -/
def Returns (R : α → σ → Prop) : Except ε α → σ → Prop
  | .ok a, t => R a t
  | .error _, _ => True

variable {ok : L → Input γ → σ → Prop} {Q : Except ε α → σ → Prop} {s : σ}

theorem ran_alone {p : Prog L (Input γ) σ ε α} {r : Except ε α} {s' : σ}
    (h : Alone ok Q p s) (hr : Pool.Ran ok p s r s') : Q r s' :=
  Pool.Ran.post (W := ⟨ok, fun _ => True⟩) trivial h hr

theorem solo_queryBind {l : L} {f : Input γ → σ → β} {k : β → Prog L (Input γ) σ Failure α}
    {i : Input γ} {rest : List (Input γ)} (hi : i.fails = false) :
    Pool.solo ((query l f).bind k) s (i :: rest) = Pool.solo (k (f i s)) s rest := by
  change Pool.solo ((Prog.done (if i.fails then .error .database else .ok (f i s))).bind k) s rest = _
  rw [hi]
  rfl

theorem solo_atomicBind {l : L} {f : Input γ → σ → Except Failure (β × σ)}
    {k : β → Prog L (Input γ) σ Failure α} {i : Input γ} {rest : List (Input γ)} {b : β} {s' : σ}
    (hi : i.fails = false) (hf : f i s = .ok (b, s')) :
    Pool.solo ((atomic l f).bind k) s (i :: rest) = Pool.solo (k b) s' rest := by
  change Pool.solo ((Prog.done (if i.fails then ((.error .database : Except Failure β), s) else
    settle s (f i s)).1).bind k) (if i.fails then (.error .database, s) else settle s (f i s)).2
      rest = _
  rw [hi, hf]
  rfl

theorem ok_of_solo_atomicBind {l : L} {f : Input γ → σ → Except Failure (β × σ)}
    {k : β → Prog L (Input γ) σ Failure α} {i : Input γ} {a : α}
    (h : (Pool.solo ((atomic l f).bind k) s [i]).result? = some (.ok a)) :
    i.fails = false ∧ ∃ r, f i s = .ok r := by
  have hstep : Pool.solo ((atomic l f).bind k) s [i] =
      Pool.solo ((Prog.done (if i.fails then ((.error .database : Except Failure β), s) else
        settle s (f i s)).1).bind k) (if i.fails then (.error .database, s) else settle s (f i s)).2 [] :=
    rfl
  rw [hstep] at h
  cases hf : i.fails with
  | true =>
    rw [hf] at h
    cases Option.some.inj h
  | false =>
    cases hr : f i s with
    | ok r => exact ⟨rfl, r, rfl⟩
    | error e =>
      rw [hf, hr] at h
      cases Option.some.inj h

namespace Alone

theorem done {r : Except ε α} (h : Q r s) : Alone ok Q (.done r) s := by
  rintro t rfl -
  exact h

theorem mono {Q' : Except ε α → σ → Prop} {p : Prog L (Input γ) σ ε α}
    (hQ : ∀ r t, Q r t → Q' r t) (h : Alone ok Q p s) : Alone ok Q' p s :=
  Holds.mono (fun r t _ => hQ r t) h

theorem bind {R : Except ε β → σ → Prop} {p : Prog L (Input γ) σ ε β}
    {k : β → Prog L (Input γ) σ ε α} (h : Alone ok R p s)
    (hk : ∀ b t, R (.ok b) t → Alone ok Q (k b) t)
    (herr : ∀ e t, R (.error e) t → Q (.error e) t) : Alone ok Q (p.bind k) s := by
  refine Holds.bind (Holds.mono ?_ h) trivial
  rintro (e | b) t - ht
  · exact herr e t ht
  · exact hk b t ht

theorem tryCatch {R : Except ε α → σ → Prop} {p : Prog L (Input γ) σ ε α}
    {h : ε → Prog L (Input γ) σ ε α} (hp : Alone ok R p s)
    (hok : ∀ a t, R (.ok a) t → Q (.ok a) t)
    (herr : ∀ e t, R (.error e) t → Alone ok Q (h e) t) :
    Alone ok Q (p.attempt.bind (Prog.orElse h)) s := by
  refine Holds.tryCatch (Holds.mono ?_ hp) trivial
  rintro (e | a) t - ht
  · exact herr e t ht
  · rintro t' rfl -
    exact hok a t ht

theorem attemptBind {R : Except ε β → σ → Prop} {p : Prog L (Input γ) σ ε β}
    {k : Except ε β → Prog L (Input γ) σ ε α} (hp : Alone ok R p s)
    (hk : ∀ r t, R r t → Alone ok Q (k r) t) : Alone ok Q (p.attempt.bind k) s :=
  Holds.bind (Holds.attempt (Holds.mono (fun r t _ ht => hk r t ht) hp)) trivial

theorem ensureBind {c : Prop} [Decidable c] {e : ε}
    {k : Unit → Prog L (Input γ) σ ε α} (hpos : c → Alone ok Q (k ()) s)
    (hneg : ¬ c → Q (.error e) s) : Alone ok Q ((Prog.ensure c e).bind k) s := by
  refine Holds.ensureBind hpos ?_
  rintro hc t rfl -
  exact hneg hc

theorem orThrowBind {o : Option β} {e : ε} {k : β → Prog L (Input γ) σ ε α}
    (hsome : ∀ b, o = some b → Alone ok Q (k b) s) (hnone : o = none → Q (.error e) s) :
    Alone ok Q ((Prog.orThrow e o).bind k) s := by
  refine Holds.orThrowBind hsome ?_
  rintro ho t rfl -
  exact hnone ho

theorem callBind {l : L} {f : Input γ → σ → Except ε β × σ}
    {k : β → Prog L (Input γ) σ ε α}
    (h : ∀ i, ok l i s → (∀ b, (f i s).1 = .ok b → Alone ok Q (k b) (f i s).2) ∧
      ∀ e, (f i s).1 = .error e → Q (.error e) (f i s).2) :
    Alone ok Q ((Prog.call l f).bind k) s := by
  refine Holds.callBind ?_
  rintro t rfl - i ho
  refine ⟨trivial, trivial, ?_⟩
  obtain ⟨hk, herr⟩ := h i ho
  cases hf : (f i s).1 with
  | ok b => exact hk b hf
  | error e =>
    rintro t' rfl -
    exact herr e hf

theorem and {Q' : Except ε α → σ → Prop} {p : Prog L (Input γ) σ ε α} (h : Alone ok Q p s)
    (h' : Alone ok Q' p s) : Alone ok (fun r t => Q r t ∧ Q' r t) p s :=
  Holds.and h h'

theorem race {tick : L} {fired : Input γ → Bool} {e : ε} {p : Prog L (Input γ) σ ε α}
    (htick : ∀ i t, ok tick i t → fired i = false) (h : Alone ok Q p s) :
    Alone ok Q (p.race tick fired e) s :=
  Holds.race_unfired (fun t i _ ho => ⟨trivial, htick i t ho⟩) h

theorem of_admitted {P : σ → Prop} {p : Prog L (Input γ) σ ε α}
    (hp : p.Every (fun l i t => ok l i t) fun _ _ t t' => P t → P t') (hs : P s) :
    Alone ok (fun _ t => P t) p s := by
  have hstay : ∀ t t', (undisturbed : Discipline L (Input γ) σ).rely t t' → P t → P t' := by
    intro t t' ht h
    exact ht ▸ h
  refine Holds.of_every hstay (hp.imp (fun _ _ _ h => h.1) ?_) hs
  intro l i t t' _ h
  exact ⟨trivial, trivial, trivial, h⟩

theorem of_every {P : σ → Prop} {p : Prog L (Input γ) σ ε α}
    (hp : p.Every (fun _ _ _ => True) fun _ _ t t' => P t → P t') (hs : P s) :
    Alone ok (fun _ t => P t) p s :=
  of_admitted (hp.imp (fun _ _ _ _ => trivial) fun _ _ _ _ _ h => h) hs

theorem any (p : Prog L (Input γ) σ ε α) (s : σ) : Alone ok (fun _ _ => True) p s :=
  of_every (P := fun _ => True) (Prog.every_of_forall (fun _ _ _ _ _ => trivial) p) trivial

theorem reading {p : Prog L (Input γ) σ ε α}
    (hp : p.Every (fun _ _ _ => True) fun _ _ t t' => t' = t) : Alone ok (fun _ t => t = s) p s :=
  of_every (P := fun t => t = s) (hp.mono fun _ _ _ _ _ h hs => h.trans hs) rfl

section Database

variable {Q : Except Failure α → σ → Prop}

theorem queryBind {l : L} {f : Input γ → σ → β} {k : β → Prog L (Input γ) σ Failure α}
    (h : ∀ i, ok l i s → i.fails = false → Alone ok Q (k (f i s)) s)
    (herr : ∀ i, ok l i s → i.fails = true → Q (.error .database) s) :
    Alone ok Q ((query l f).bind k) s := by
  refine callBind fun i ho => ?_
  cases hf : i.fails with
  | true =>
    refine ⟨fun b hb => (nomatch hb), fun e he => ?_⟩
    cases he
    exact herr i ho hf
  | false =>
    refine ⟨fun b hb => ?_, fun e he => (nomatch he)⟩
    cases hb
    exact h i ho hf

theorem query {l : L} {f : Input γ → σ → α} (h : ∀ i, ok l i s → i.fails = false → Q (.ok (f i s)) s)
    (herr : ∀ i, ok l i s → i.fails = true → Q (.error .database) s) :
    Alone ok Q (ElectronicsCart.query l f) s := by
  refine Holds.call ?_
  rintro t rfl - i ho
  refine ⟨trivial, trivial, ?_⟩
  rintro t rfl -
  cases hf : i.fails with
  | true => exact herr i ho hf
  | false => exact h i ho hf

theorem atomicBind {l : L} {f : Input γ → σ → Except Failure (β × σ)}
    {k : β → Prog L (Input γ) σ Failure α}
    (h : ∀ i b u, ok l i s → i.fails = false → f i s = .ok (b, u) → Alone ok Q (k b) u)
    (herr : ∀ i e, ok l i s → i.fails = true ∨ f i s = .error e → Q (.error e) s) :
    Alone ok Q ((atomic l f).bind k) s := by
  refine holds_atomicBind ?_
  rintro t rfl - i ho
  refine ⟨trivial, ?_, fun b u hf hu => ⟨trivial, trivial, h i b u ho hf hu⟩⟩
  rintro e t' he rfl -
  exact herr i e ho he

theorem atomic {l : L} {f : Input γ → σ → Except Failure (α × σ)}
    (h : ∀ i b u, ok l i s → i.fails = false → f i s = .ok (b, u) → Q (.ok b) u)
    (herr : ∀ i e, ok l i s → i.fails = true ∨ f i s = .error e → Q (.error e) s) :
    Alone ok Q (ElectronicsCart.atomic l f) s := by
  refine holds_atomic ?_
  rintro t rfl - i ho
  refine ⟨trivial, ?_, fun b u hf hu => ⟨trivial, trivial, ?_⟩⟩
  · rintro e t' he rfl -
    exact herr i e ho he
  · rintro t' rfl -
    exact h i b u ho hf hu

section Lock

variable {κ : Type} [DecidableEq κ] [Lockable L σ κ]

/-- A critical section: the lock is busy or cannot be reached, or the section runs and the lock is
given back. -/
theorem withLock {R : Except Failure α → σ → Prop} {key : κ} {token : ℕ}
    {fn : Prog L (Input γ) σ Failure α}
    (hbusy : ∀ e i, ok (Lockable.acquireCall σ key token) i s →
      i.fails = true ∨ Lockable.locks L s key ≠ none → Q (.error e) s)
    (hfn : Lockable.locks L s key = none →
      Alone ok R fn (Lockable.setLocks L (Function.update (Lockable.locks L s) key (some token)) s))
    (hrel : ∀ r t, R r t → Q r (LockService.drop L key token t))
    (hstuck : ∀ r i t, R r t → ok (Lockable.releaseCall σ key token) i t → i.fails = true →
      Q (.error .database) t) :
    Alone ok Q (LockService.withLock key token fn) s := by
  refine atomicBind (fun i got u ho _ hu => ?_) fun i e ho he => ?_
  · rcases LockService.take_cases (Except.ok.inj hu) with ⟨rfl, hfree, rfl⟩ | ⟨rfl, rfl⟩
    · refine ensureBind (fun _ => ?_) fun h => (h rfl).elim
      refine Holds.andFinally (Holds.mono ?_ (hfn hfree)) trivial
      intro r t _ hR
      refine Holds.call ?_
      rintro x rfl - i' ho'
      cases hf : i'.fails with
      | true =>
        refine ⟨trivial, trivial, ?_⟩
        rintro y rfl -
        exact hstuck r i' t hR ho' hf
      | false =>
        refine ⟨trivial, trivial, ?_⟩
        rintro y rfl - z rfl -
        exact hrel r t hR
    · refine ensureBind (fun h => nomatch h) fun _ => hbusy _ i ho (.inr ?_)
      intro hnone
      simp [LockService.take, hnone] at hu
  · rcases he with hf | he
    · exact hbusy e i ho (.inl hf)
    · cases he

theorem withLock_blind {key : κ} {token : ℕ} {fn : Prog L (Input γ) σ Failure α}
    (hbusy : ∀ e, Q (.error e) s) (hlocks : ∀ r t m, Q r t → Q r (Lockable.setLocks L m t))
    (hstuck : ∀ r t, Q r t → Q (.error .database) t)
    (hfn : ∀ m, Alone ok Q fn (Lockable.setLocks L m s)) :
    Alone ok Q (LockService.withLock key token fn) s := by
  refine withLock (R := Q) (fun e _ _ _ => hbusy e) (fun _ => hfn _) (fun r t ht => ?_)
    fun r _ t ht _ _ => hstuck r t ht
  rcases LockService.drop_cases (L := L) key token t with ⟨-, hd⟩ | hd
  · rw [hd]
    exact hlocks r t _ ht
  · rw [hd]
    exact ht

end Lock

end Database

end Alone

/-! ### What every call does -/

/-- `p` started in `s` runs alone and ends with `Q`, and each of its calls does what `G` says, if
they meet `ok`. -/
def Within (ok : L → Input γ → σ → Prop) (G : L → Input γ → σ → σ → Prop)
    (Q : Except ε α → σ → Prop) (p : Prog L (Input γ) σ ε α) (s : σ) : Prop :=
  Holds ⟨ok, fun _ => True⟩ (Discipline.alone G) (Discipline.alone G) Q p s

namespace Within

variable {G : L → Input γ → σ → σ → Prop}

theorem done {r : Except ε α} (h : Q r s) : Within ok G Q (.done r) s := by
  rintro t rfl -
  exact h

theorem mono {Q' : Except ε α → σ → Prop} {p : Prog L (Input γ) σ ε α}
    (hQ : ∀ r t, Q r t → Q' r t) (h : Within ok G Q p s) : Within ok G Q' p s :=
  Holds.mono (fun r t _ => hQ r t) h

theorem bind {R : Except ε β → σ → Prop} {p : Prog L (Input γ) σ ε β}
    {k : β → Prog L (Input γ) σ ε α} (h : Within ok G R p s)
    (hk : ∀ b t, R (.ok b) t → Within ok G Q (k b) t)
    (herr : ∀ e t, R (.error e) t → Q (.error e) t) : Within ok G Q (p.bind k) s := by
  refine Holds.bind (Holds.mono ?_ h) trivial
  rintro (e | b) t - ht
  · exact herr e t ht
  · exact hk b t ht

theorem of_alone {p : Prog L (Input γ) σ ε α} (hp : p.Every (fun _ _ _ => True) G)
    (h : Alone ok Q p s) : Within ok G Q p s := by
  induction p generalizing s Q with
  | done r => exact h
  | halt => trivial
  | step l u k ih =>
    rintro t rfl - i ho
    obtain ⟨hg, hk⟩ := hp i s trivial
    exact ⟨trivial, hg, ih i s hk (h s rfl trivial i ho).2.2⟩
  | fork c k ihc ihk =>
    rintro t rfl -
    obtain ⟨hc, hk⟩ := h s rfl trivial
    refine ⟨?_, ihk hp.2 hk⟩
    exact ihc hp.1 hc

theorem of_admitted {P : σ → Prop} {p : Prog L (Input γ) σ ε α}
    (hp : p.Every ok fun l i t t' => P t → G l i t t' ∧ P t') (hs : P s) :
    Within ok G (fun _ t => P t) p s := by
  induction p generalizing s with
  | done r => exact done hs
  | halt => trivial
  | step l u k ih =>
    rintro t rfl - i ho
    obtain ⟨hcall, hk⟩ := hp i s ho
    obtain ⟨hg, hP⟩ := hcall hs
    exact ⟨trivial, hg, ih i s hk hP⟩
  | fork c k ihc ihk =>
    rintro t rfl -
    refine ⟨?_, ihk hp.2 hs⟩
    exact (ihc hp.1 hs).mono fun _ _ _ => trivial

theorem of_every {p : Prog L (Input γ) σ ε α} (hp : p.Every (fun _ _ _ => True) G) :
    Within ok G (fun _ _ => True) p s :=
  of_alone hp (Alone.any p s)

theorem callBind {l : L} {f : Input γ → σ → Except ε β × σ} {k : β → Prog L (Input γ) σ ε α}
    (h : ∀ i, ok l i s → G l i s (f i s).2 ∧
      (∀ b, (f i s).1 = .ok b → Within ok G Q (k b) (f i s).2) ∧
      ∀ e, (f i s).1 = .error e → Q (.error e) (f i s).2) :
    Within ok G Q ((Prog.call l f).bind k) s := by
  refine Holds.callBind ?_
  rintro t rfl - i ho
  obtain ⟨hg, hk, herr⟩ := h i ho
  refine ⟨trivial, hg, ?_⟩
  cases hf : (f i s).1 with
  | ok b => exact hk b hf
  | error e =>
    rintro t' rfl -
    exact herr e hf

theorem call {l : L} {f : Input γ → σ → Except ε α × σ}
    (h : ∀ i, ok l i s → G l i s (f i s).2 ∧ Q (f i s).1 (f i s).2) :
    Within ok G Q (Prog.call l f) s := by
  refine Holds.call ?_
  rintro t rfl - i ho
  obtain ⟨hg, hq⟩ := h i ho
  refine ⟨trivial, hg, ?_⟩
  rintro t rfl -
  exact hq

theorem ensureBind {c : Prop} [Decidable c] {e : ε}
    {k : Unit → Prog L (Input γ) σ ε α} (hpos : c → Within ok G Q (k ()) s)
    (hneg : ¬ c → Q (.error e) s) : Within ok G Q ((Prog.ensure c e).bind k) s := by
  refine Holds.ensureBind hpos ?_
  rintro hc t rfl -
  exact hneg hc

theorem orThrowBind {o : Option β} {e : ε} {k : β → Prog L (Input γ) σ ε α}
    (hsome : ∀ b, o = some b → Within ok G Q (k b) s) (hnone : o = none → Q (.error e) s) :
    Within ok G Q ((Prog.orThrow e o).bind k) s := by
  refine Holds.orThrowBind hsome ?_
  rintro ho t rfl -
  exact hnone ho

section Database

variable {Q : Except Failure α → σ → Prop}

theorem queryBind {l : L} {f : Input γ → σ → β} {k : β → Prog L (Input γ) σ Failure α}
    (hg : ∀ i, G l i s s) (h : ∀ i, ok l i s → i.fails = false → Within ok G Q (k (f i s)) s)
    (herr : ∀ i, ok l i s → i.fails = true → Q (.error .database) s) :
    Within ok G Q ((ElectronicsCart.query l f).bind k) s := by
  refine callBind fun i ho => ⟨hg i, ?_⟩
  cases hf : i.fails with
  | true =>
    refine ⟨fun b hb => (nomatch hb), fun e he => ?_⟩
    cases he
    exact herr i ho hf
  | false =>
    refine ⟨fun b hb => ?_, fun e he => (nomatch he)⟩
    cases hb
    exact h i ho hf

theorem query {l : L} {f : Input γ → σ → α} (hg : ∀ i, G l i s s)
    (h : ∀ i, ok l i s → i.fails = false → Q (.ok (f i s)) s)
    (herr : ∀ i, ok l i s → i.fails = true → Q (.error .database) s) :
    Within ok G Q (ElectronicsCart.query l f) s := by
  refine call fun i ho => ⟨hg i, ?_⟩
  cases hf : i.fails with
  | true => exact herr i ho hf
  | false => exact h i ho hf

theorem atomicBind {l : L} {f : Input γ → σ → Except Failure (β × σ)}
    {k : β → Prog L (Input γ) σ Failure α} (hg : ∀ i, G l i s s)
    (h : ∀ i b u, ok l i s → i.fails = false → f i s = .ok (b, u) →
      G l i s u ∧ Within ok G Q (k b) u)
    (herr : ∀ i e, ok l i s → i.fails = true ∨ f i s = .error e → Q (.error e) s) :
    Within ok G Q ((ElectronicsCart.atomic l f).bind k) s := by
  refine holds_atomicBind ?_
  rintro t rfl - i ho
  refine ⟨hg i, ?_, fun b u hf hu => ⟨trivial, h i b u ho hf hu⟩⟩
  rintro e t' he rfl -
  exact herr i e ho he

theorem atomic {l : L} {f : Input γ → σ → Except Failure (α × σ)} (hg : ∀ i, G l i s s)
    (h : ∀ i b u, ok l i s → i.fails = false → f i s = .ok (b, u) → G l i s u ∧ Q (.ok b) u)
    (herr : ∀ i e, ok l i s → i.fails = true ∨ f i s = .error e → Q (.error e) s) :
    Within ok G Q (ElectronicsCart.atomic l f) s := by
  refine holds_atomic ?_
  rintro t rfl - i ho
  refine ⟨hg i, ?_, fun b u hf hu => ?_⟩
  · rintro e t' he rfl -
    exact herr i e ho he
  · obtain ⟨hgu, hQ⟩ := h i b u ho hf hu
    refine ⟨trivial, hgu, ?_⟩
    rintro t' rfl -
    exact hQ

theorem withLock {κ : Type} [DecidableEq κ] [Lockable L σ κ] {key : κ} {token : ℕ}
    {fn : Prog L (Input γ) σ Failure α} (hg : ∀ l i t, G l i t t)
    (hlock : ∀ l i t m, G l i t (Lockable.setLocks L m t)) (hbusy : ∀ e, Q (.error e) s)
    (hlocks : ∀ r t m, Q r t → Q r (Lockable.setLocks L m t))
    (hstuck : ∀ r t, Q r t → Q (.error .database) t)
    (hfn : ∀ m, Within ok G Q fn (Lockable.setLocks L m s)) :
    Within ok G Q (LockService.withLock key token fn) s := by
  refine atomicBind (fun i => hg ..) (fun i got u ho _ hu => ?_) fun _ e _ _ => hbusy e
  rcases LockService.take_cases (Except.ok.inj hu) with ⟨rfl, -, rfl⟩ | ⟨rfl, rfl⟩
  · refine ⟨hlock .., ensureBind (fun _ => ?_) fun h => (h rfl).elim⟩
    refine Holds.andFinally (Holds.mono ?_ (hfn _)) trivial
    intro r t _ hQ
    refine Holds.call ?_
    rintro x rfl - i' ho'
    have hdrop : G (Lockable.releaseCall σ key token) i' t (LockService.drop L key token t) ∧
        Q r (LockService.drop L key token t) := by
      rcases LockService.drop_cases (L := L) key token t with ⟨-, hd⟩ | hd
      · rw [hd]
        exact ⟨hlock .., hlocks r t _ hQ⟩
      · rw [hd]
        exact ⟨hg .., hQ⟩
    cases hf : i'.fails with
    | true =>
      refine ⟨trivial, hg .., ?_⟩
      rintro y rfl -
      exact hstuck r t hQ
    | false =>
      refine ⟨trivial, hdrop.1, ?_⟩
      rintro y rfl - z rfl -
      exact hdrop.2
  · exact ⟨hg .., ensureBind (fun h => nomatch h) fun _ => hbusy _⟩

end Database

theorem callAll {P : σ → Prop} {ps : List (Prog L (Input γ) σ ε α)}
    (h : ∀ p ∈ ps, ∀ t, P t → Within ok G (fun _ t' => P t') p t) (hs : P s) :
    Within ok G (fun _ t => P t) (Prog.callAll ps) s := by
  refine Holds.callAll ?_ (fun p hp t _ ht => h p hp t ht) trivial hs
  rintro t t' rfl ht
  exact ht

theorem steps {p : Prog L (Input γ) σ ε α} {R : σ → σ → Prop} (hrefl : ∀ s, R s s)
    (hG : ∀ l i s s', G l i s s' → R s s') (h : Within ok G Q p s) {inputs : List (Input γ)}
    (ha : Pool.SoloAdmits ok p s inputs) (n : ℕ) :
    R (Pool.solo p s (inputs.take n)).state (Pool.solo p s (inputs.take (n + 1))).state :=
  Pool.solo_step (W := ⟨ok, fun _ => True⟩) hrefl hG trivial h ha n

theorem invariant {p : Prog L (Input γ) σ ε α} {I : σ → Prop}
    (hG : ∀ l i s s', G l i s s' → I s → I s') (h : Within ok G Q p s) {inputs : List (Input γ)}
    (ha : Pool.SoloAdmits ok p s inputs) (hs : I s) (n : ℕ) :
    I (Pool.solo p s (inputs.take n)).state := by
  induction n with
  | zero => exact hs
  | succ n ih => exact steps (fun _ h => h) hG h ha n ih

end Within

theorem LockService.exits_withLock {κ : Type} [DecidableEq κ] [Lockable L σ κ]
    {bad : L → Input γ → σ → Prop} {G : Except Failure α → σ → Prop} {key : κ} {token : ℕ}
    {fn : Prog L (Input γ) σ Failure α}
    (hacquire : ∀ i s, ¬ bad (Lockable.acquireCall σ key token) i s)
    (hfn : fn.Every (fun _ _ _ => True) fun l i s _ => ¬ bad l i s)
    (hrelease : ∀ i s, bad (Lockable.releaseCall σ key token) i s →
      i.fails = true ∧ G (.error .database) s) :
    (LockService.withLock key token fn).Exits bad G := by
  refine Prog.Exits.bind (Prog.every_call fun i s _ => hacquire i s) fun got => ?_
  refine Prog.Exits.bind (Prog.every_ensure _ _) fun _ => ?_
  refine Prog.Exits.bind hfn.attempt fun r => ?_
  refine Prog.Exits.callBind (fun i s hb => ?_) fun _ => trivial
  obtain ⟨hf, hG⟩ := hrelease i s hb
  simp only [hf, if_true]
  exact ⟨_, rfl, hG⟩

end ElectronicsCart
