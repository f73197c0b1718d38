import Mathlib.Logic.Function.Basic
import Mathlib.Data.List.Basic

/-!
# Asynchronous programs

A program is the tree of the external calls it makes.  Each call is one atomic
step on a shared state; between two calls of one program, calls of others may
run.  Every step reads an input chosen by its environment (an answer, a clock
value, a fault), and carries a label that says which call it is.

A program ends in `done` with a result or an error.  `fork` leaves a program
running that nobody waits for any more: its steps still happen, its result is
dropped (`halt`).
-/

namespace Interleaving

inductive Prog (L ι σ ε α : Type) where
  | done (r : Except ε α)
  | halt
  | step (l : L) (upd : ι → σ → σ) (next : ι → σ → Prog L ι σ ε α)
  | fork (child rest : Prog L ι σ ε α)

namespace Prog

variable {L M ι σ τ ε α β γ : Type}

/-- The same calls, with the result dropped. -/
def discard : Prog L ι σ ε α → Prog L ι σ ε β
  | .done _ => .halt
  | .halt => .halt
  | .step l u k => .step l u fun i s => (k i s).discard
  | .fork c k => .fork c.discard k.discard

def bind : Prog L ι σ ε α → (α → Prog L ι σ ε β) → Prog L ι σ ε β
  | .done (.ok a), f => f a
  | .done (.error e), _ => .done (.error e)
  | .halt, _ => .halt
  | .step l u k, f => .step l u fun i s => (k i s).bind f
  | .fork c k, f => .fork c.discard (k.bind f)

instance : Monad (Prog L ι σ ε) where
  pure a := .done (.ok a)
  bind := Prog.bind

/-- Runs a program and hands its error on as a value. -/
def attempt : Prog L ι σ ε α → Prog L ι σ ε (Except ε α)
  | .done r => .done (.ok r)
  | .halt => .halt
  | .step l u k => .step l u fun i s => (k i s).attempt
  | .fork c k => .fork c.discard k.attempt

/-- The continuation of a `try` block: its value, or the handler at its error. -/
def orElse (h : ε → Prog L ι σ ε α) : Except ε α → Prog L ι σ ε α
  | .ok a => .done (.ok a)
  | .error e => h e

instance : MonadExceptOf ε (Prog L ι σ ε) where
  throw e := .done (.error e)
  tryCatch p h := p.attempt.bind (orElse h)

/-- One call: `f` gives its answer and the state it leaves. -/
def call (l : L) (f : ι → σ → Except ε β × σ) : Prog L ι σ ε β :=
  .step l (fun i s => (f i s).2) (fun i s => .done (f i s).1)

/-- The program as it runs on a part of a larger state. -/
def zoom (label : L → M) (get : τ → σ) (set : σ → τ → τ) : Prog L ι σ ε α → Prog M ι τ ε α
  | .done r => .done r
  | .halt => .halt
  | .step l u k => .step (label l) (fun i t => set (u i (get t)) t)
      fun i t => (k i (get t)).zoom label get set
  | .fork c k => .fork (c.zoom label get set) (k.zoom label get set)

def signed {κ : Type} (caller : κ) (p : Prog L ι σ ε α) : Prog (κ × L) ι σ ε α :=
  p.zoom (Prod.mk caller) id fun s _ => s

/-- `if (!c) throw e`. -/
def ensure (c : Prop) [Decidable c] (e : ε) : Prog L ι σ ε Unit :=
  .done (if c then .ok () else .error e)

/-- The value of an optional read, or the given error when there is none. -/
def orThrow (e : ε) : Option α → Prog L ι σ ε α
  | some a => .done (.ok a)
  | none => .done (.error e)

/-- `try { p } finally { q }`: `q` runs in both cases; its own error wins. -/
def andFinally (p : Prog L ι σ ε α) (q : Prog L ι σ ε Unit) : Prog L ι σ ε α :=
  p.attempt.bind fun r => q.bind fun _ => .done r

/-- Runs the programs one after another; a failing one does not stop the rest. -/
def callAll : List (Prog L ι σ ε α) → Prog L ι σ ε Unit
  | [] => .done (.ok ())
  | p :: ps => p.attempt.bind fun _ => callAll ps

/-- Races a program against a timer.  Before each call, `fired` says whether the
timer was first; then `e` is thrown and the program goes on unobserved. -/
def race (tick : L) (fired : ι → Bool) (e : ε) : Prog L ι σ ε α → Prog L ι σ ε α
  | .done r => .done r
  | .halt => .halt
  | .step l u k =>
    .step tick (fun _ s => s) fun i _ =>
      if fired i then .fork (.step l u fun i s => (k i s).discard) (.done (.error e))
      else .step l u fun i s => race tick fired e (k i s)
  | .fork c k => .fork c (race tick fired e k)

/-! ### Computation rules -/

@[simp] theorem pure_eq (a : α) : (pure a : Prog L ι σ ε α) = .done (.ok a) := rfl

@[simp] theorem throw_eq (e : ε) : (throw e : Prog L ι σ ε α) = .done (.error e) := rfl

@[simp] theorem bind_eq (p : Prog L ι σ ε α) (f : α → Prog L ι σ ε β) :
    (p >>= f) = p.bind f := rfl

@[simp] theorem map_eq (p : Prog L ι σ ε α) (f : α → β) :
    (f <$> p) = p.bind fun a => .done (.ok (f a)) := rfl

@[simp] theorem tryCatch_eq (p : Prog L ι σ ε α) (h : ε → Prog L ι σ ε α) :
    (tryCatch p h) = p.attempt.bind (orElse h) := rfl

@[simp] theorem done_ok_bind (a : α) (f : α → Prog L ι σ ε β) :
    (Prog.done (.ok a) : Prog L ι σ ε α).bind f = f a := rfl

@[simp] theorem done_error_bind (e : ε) (f : α → Prog L ι σ ε β) :
    (Prog.done (.error e) : Prog L ι σ ε α).bind f = .done (.error e) := rfl

@[simp] theorem done_attempt (r : Except ε α) :
    (Prog.done r : Prog L ι σ ε α).attempt = .done (.ok r) := rfl

@[simp] theorem orElse_ok (h : ε → Prog L ι σ ε α) (a : α) : orElse h (.ok a) = .done (.ok a) := rfl

@[simp] theorem orElse_error (h : ε → Prog L ι σ ε α) (e : ε) : orElse h (.error e) = h e := rfl

theorem discard_discard (p : Prog L ι σ ε α) :
    (p.discard : Prog L ι σ ε β).discard = (p.discard : Prog L ι σ ε γ) := by
  induction p with
  | done r => rfl
  | halt => rfl
  | step l u k ih =>
    simp only [discard, step.injEq, true_and]
    funext i s
    exact ih i s
  | fork c k ihc ihk => simp only [discard, ihc, ihk]

theorem bind_assoc (p : Prog L ι σ ε α) (f : α → Prog L ι σ ε β) (g : β → Prog L ι σ ε γ) :
    (p.bind f).bind g = p.bind fun a => (f a).bind g := by
  induction p with
  | done r => cases r <;> rfl
  | halt => rfl
  | step l u k ih =>
    simp only [bind, step.injEq, true_and]
    funext i s
    exact ih i s
  | fork c k ihc ihk => simp only [bind, discard_discard, ihk]

theorem orElse_attempt_bind (p : Prog L ι σ ε α) (h : ε → Prog L ι σ ε α)
    (g : Except ε α → Prog L ι σ ε β) :
    (p.attempt.bind (orElse h)).attempt.bind g =
      p.attempt.bind fun r => (orElse h r).attempt.bind g := by
  induction p with
  | done r => rfl
  | halt => rfl
  | step l u k ih =>
    simp only [attempt, bind, step.injEq, true_and]
    funext i s
    exact ih i s
  | fork c k ihc ihk => simp only [attempt, bind, discard_discard, ihk]

def isFinished : Prog L ι σ ε α → Bool
  | .done _ => true
  | .halt => true
  | .step _ _ _ => false
  | .fork _ _ => false

def isDone : Prog L ι σ ε α → Bool
  | .done _ => true
  | _ => false

def hasThrown : Prog L ι σ ε α → Bool
  | .done (.error _) => true
  | _ => false

theorem hasThrown_iff {p : Prog L ι σ ε α} : p.hasThrown = true ↔ ∃ e, p = .done (.error e) := by
  unfold hasThrown
  split <;> simp_all

/-- Every result the program can end with satisfies `G`. -/
def Yields (G : α → Prop) : Prog L ι σ ε α → Prop
  | .done (.ok a) => G a
  | .done (.error _) => True
  | .halt => True
  | .step _ _ k => ∀ i s, Yields G (k i s)
  | .fork _ k => Yields G k

theorem yields_bind {G : β → Prop} {f : α → Prog L ι σ ε β} (hf : ∀ a, (f a).Yields G)
    (p : Prog L ι σ ε α) : (p.bind f).Yields G := by
  induction p with
  | done r =>
    cases r with
    | ok a => exact hf a
    | error e => trivial
  | halt => trivial
  | step l u k ih => exact fun i s => ih i s
  | fork c k _ ihk => exact ihk

theorem Yields.zoom {G : α → Prop} {label : L → M} {get : τ → σ} {set : σ → τ → τ}
    {p : Prog L ι σ ε α} (hp : p.Yields G) : (p.zoom label get set).Yields G := by
  induction p with
  | done r =>
    cases r with
    | ok a => exact hp
    | error e => trivial
  | halt => trivial
  | step l u k ih => exact fun i t => ih i (get t) (hp i (get t))
  | fork c k _ ihk => exact ihk hp

/-! ### Properties of every call -/

/-- Every call the program can make from a state and input admitted by `ok`
satisfies `ψ`, whatever the state was before it. -/
def Every (ok : L → ι → σ → Prop) (ψ : L → ι → σ → σ → Prop) : Prog L ι σ ε α → Prop
  | .done _ => True
  | .halt => True
  | .step l u k => ∀ i s, ok l i s → ψ l i s (u i s) ∧ Every ok ψ (k i s)
  | .fork c k => Every ok ψ c ∧ Every ok ψ k

variable {ok : L → ι → σ → Prop} {ψ ψ' : L → ι → σ → σ → Prop}

@[simp] theorem every_done (r : Except ε α) : (Prog.done r : Prog L ι σ ε α).Every ok ψ := trivial

theorem Every.imp {ok' : L → ι → σ → Prop} {p : Prog L ι σ ε α}
    (hok : ∀ l i s, ok' l i s → ok l i s)
    (hψ : ∀ l i s s', ok' l i s → ψ l i s s' → ψ' l i s s') (hp : p.Every ok ψ) :
    p.Every ok' ψ' := by
  induction p with
  | done r => trivial
  | halt => trivial
  | step l u k ih =>
    intro i s ho
    obtain ⟨h, hk⟩ := hp i s (hok l i s ho)
    exact ⟨hψ l i s _ ho h, ih i s hk⟩
  | fork c k ihc ihk => exact ⟨ihc hp.1, ihk hp.2⟩

theorem Every.mono (hψ : ∀ l i s s', ok l i s → ψ l i s s' → ψ' l i s s') {p : Prog L ι σ ε α}
    (hp : p.Every ok ψ) : p.Every ok ψ' :=
  hp.imp (fun _ _ _ h => h) hψ

theorem every_of_forall (h : ∀ l i s s', ψ l i s s') (p : Prog L ι σ ε α) : p.Every ok ψ := by
  induction p with
  | done r => trivial
  | halt => trivial
  | step l u k ih => exact fun i s _ => ⟨h l i s _, ih i s⟩
  | fork c k ihc ihk => exact ⟨ihc, ihk⟩

theorem Every.and {p : Prog L ι σ ε α} (hp : p.Every ok ψ) (hp' : p.Every ok ψ') :
    p.Every ok fun l i s s' => ψ l i s s' ∧ ψ' l i s s' := by
  induction p with
  | done r => trivial
  | halt => trivial
  | step l u k ih =>
    intro i s ho
    obtain ⟨h, hk⟩ := hp i s ho
    obtain ⟨h', hk'⟩ := hp' i s ho
    exact ⟨⟨h, h'⟩, ih i s hk hk'⟩
  | fork c k ihc ihk => exact ⟨ihc hp.1 hp'.1, ihk hp.2 hp'.2⟩

theorem Every.discard {p : Prog L ι σ ε α} (hp : p.Every ok ψ) :
    (p.discard : Prog L ι σ ε β).Every ok ψ := by
  induction p with
  | done r => trivial
  | halt => trivial
  | step l u k ih =>
    intro i s ho
    exact ⟨(hp i s ho).1, ih i s (hp i s ho).2⟩
  | fork c k ihc ihk => exact ⟨ihc hp.1, ihk hp.2⟩

theorem Every.bind {p : Prog L ι σ ε α} {f : α → Prog L ι σ ε β} (hp : p.Every ok ψ)
    (hf : ∀ a, (f a).Every ok ψ) : (p.bind f).Every ok ψ := by
  induction p with
  | done r =>
    cases r with
    | ok a => exact hf a
    | error e => trivial
  | halt => trivial
  | step l u k ih =>
    intro i s ho
    exact ⟨(hp i s ho).1, ih i s (hp i s ho).2⟩
  | fork c k ihc ihk => exact ⟨hp.1.discard, ihk hp.2⟩

theorem Every.attempt {p : Prog L ι σ ε α} (hp : p.Every ok ψ) : p.attempt.Every ok ψ := by
  induction p with
  | done r => trivial
  | halt => trivial
  | step l u k ih =>
    intro i s ho
    exact ⟨(hp i s ho).1, ih i s (hp i s ho).2⟩
  | fork c k ihc ihk => exact ⟨hp.1.discard, ihk hp.2⟩

theorem Every.tryCatch {p : Prog L ι σ ε α} {h : ε → Prog L ι σ ε α} (hp : p.Every ok ψ)
    (hh : ∀ e, (h e).Every ok ψ) : (p.attempt.bind (orElse h)).Every ok ψ := by
  refine Every.bind hp.attempt ?_
  rintro (e | a)
  · exact hh e
  · trivial

theorem Every.andFinally {p : Prog L ι σ ε α} {q : Prog L ι σ ε Unit} (hp : p.Every ok ψ)
    (hq : q.Every ok ψ) : (p.andFinally q).Every ok ψ :=
  hp.attempt.bind fun _ => hq.bind fun _ => trivial

theorem Every.callAll {ps : List (Prog L ι σ ε α)} (h : ∀ p ∈ ps, p.Every ok ψ) :
    (callAll ps).Every ok ψ := by
  induction ps with
  | nil => trivial
  | cons p ps ih =>
    have hp : p.Every ok ψ := h p (List.mem_cons_self ..)
    exact hp.attempt.bind fun _ => ih fun q hq => h q (List.mem_cons_of_mem p hq)

theorem Every.race {tick : L} {fired : ι → Bool} {e : ε} {p : Prog L ι σ ε α}
    (htick : ∀ i s, ok tick i s → ψ tick i s s) (hp : p.Every ok ψ) :
    (p.race tick fired e).Every ok ψ := by
  induction p with
  | done r => trivial
  | halt => trivial
  | step l u k ih =>
    intro i s ho
    refine ⟨htick i s ho, ?_⟩
    dsimp only
    split
    · refine ⟨?_, trivial⟩
      intro i' s' ho'
      exact ⟨(hp i' s' ho').1, (hp i' s' ho').2.discard⟩
    · intro i' s' ho'
      exact ⟨(hp i' s' ho').1, ih i' s' (hp i' s' ho').2⟩
  | fork c k ihc ihk => exact ⟨hp.1, ihk hp.2⟩

theorem every_call {l : L} {f : ι → σ → Except ε β × σ}
    (h : ∀ i s, ok l i s → ψ l i s (f i s).2) : (call l f).Every ok ψ :=
  fun i s ho => ⟨h i s ho, trivial⟩

theorem zoom_discard {label : L → M} {get : τ → σ} {set : σ → τ → τ}
    (p : Prog L ι σ ε α) : ((p.discard : Prog L ι σ ε β).zoom label get set) =
      (p.zoom label get set).discard := by
  induction p with
  | done r => rfl
  | halt => rfl
  | step l u k ih =>
    simp only [discard, zoom, step.injEq, true_and]
    funext i t
    exact ih i (get t)
  | fork c k ihc ihk => simp only [discard, zoom, ihc, ihk]

theorem zoom_bind {label : L → M} {get : τ → σ} {set : σ → τ → τ}
    (p : Prog L ι σ ε α) (f : α → Prog L ι σ ε β) : (p.bind f).zoom label get set =
      (p.zoom label get set).bind fun a => (f a).zoom label get set := by
  induction p with
  | done r => cases r <;> rfl
  | halt => rfl
  | step l u k ih =>
    simp only [bind, zoom, step.injEq, true_and]
    funext i t
    exact ih i (get t)
  | fork c k _ ihk => simp only [bind, zoom, zoom_discard, ihk]

theorem zoom_attempt {label : L → M} {get : τ → σ} {set : σ → τ → τ} (p : Prog L ι σ ε α) :
    p.attempt.zoom label get set = (p.zoom label get set).attempt := by
  induction p with
  | done r => rfl
  | halt => rfl
  | step l u k ih =>
    simp only [attempt, zoom, step.injEq, true_and]
    funext i t
    exact ih i (get t)
  | fork c k _ ihk => simp only [attempt, zoom, zoom_discard, ihk]

theorem Every.zoom {okM : M → ι → τ → Prop} {label : L → M} {get : τ → σ} {set : σ → τ → τ}
    {p : Prog L ι σ ε α} (hp : p.Every ok ψ)
    (hok : ∀ l i t, okM (label l) i t → ok l i (get t)) :
    (p.zoom label get set).Every okM fun m i t t' =>
      ∃ l s', m = label l ∧ ψ l i (get t) s' ∧ t' = set s' t := by
  induction p with
  | done r => trivial
  | halt => trivial
  | step l u k ih =>
    intro i t ho
    obtain ⟨h, hk⟩ := hp i (get t) (hok l i t ho)
    exact ⟨⟨l, _, rfl, h, rfl⟩, ih i (get t) hk⟩
  | fork c k ihc ihk => exact ⟨ihc hp.1, ihk hp.2⟩

@[simp] theorem every_ensure (c : Prop) [Decidable c] (e : ε) :
    (ensure c e : Prog L ι σ ε Unit).Every ok ψ := trivial

@[simp] theorem every_orThrow (e : ε) (o : Option α) :
    (orThrow e o : Prog L ι σ ε α).Every ok ψ := by
  cases o <;> trivial

end Prog

end Interleaving
