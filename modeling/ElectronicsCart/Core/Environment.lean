import ElectronicsCart.Lib.Debts
import ElectronicsCart.Lib.Marks
import Mathlib.Algebra.Order.Field.Rat

/-!
# Errors, inputs and database calls

Shared by all services: the error classes of `core/errors`, the input every
external call reads from its environment, and the two shapes of a database call.
A `query` reads; an `atomic` call reads and writes in one transaction, which is
rolled back when one of its statements is rejected.  Any call may be rejected by
its driver (`Input.fails`), and then changes nothing.
-/

namespace ElectronicsCart

open Interleaving

/-- `core/errors/error-codes.ts`. -/
inductive ErrorCode where
  | validationError | unauthorized | forbidden | notFound | conflict | badRequest
  | internalError | httpError | authInvalidCredentials | authAccountLocked
  | authAccountInactive | authEmailTaken | authMobileTaken | authWeakPassword
  | authInvalidToken | authTokenReused | authOtpInvalid | authOtpExpired
  | authOtpMaxAttempts | authEmailAlreadyVerified | authCurrentPasswordInvalid
  | authSessionNotFound | idempotencyKeyRequired | idempotencyKeyConflict
  | idempotencyInProgress | lockNotAcquired
deriving DecidableEq, Repr

/-- `core/errors/app.exception.ts`. -/
structure AppException where
  code : ErrorCode
  message : String
  status : ℕ
deriving DecidableEq, Repr

inductive Failure where
  | app (e : AppException)
  /-- the connection or the server failed -/
  | database
  /-- a constraint or a `connect` of Prisma refused the write -/
  | constraint (name : String)
  /-- the payment provider's own error class, with its `retryable` flag -/
  | gateway (retryable : Bool) (message : String)
  | error (message : String)
deriving DecidableEq, Repr

def Failure.throwApp (code : ErrorCode) (message : String) (status : ℕ) : Failure :=
  .app ⟨code, message, status⟩

/-- `err instanceof Error ? err.message : String(err)`. -/
def Failure.message : Failure → String
  | .app e => e.message
  | .database => "Can't reach database server"
  | .constraint name => name
  | .gateway _ m => m
  | .error m => m

/-- What the environment gives one external call.  `rank` orders the rows that an
`ORDER BY` leaves tied; `reply` is the answer of a service outside the program. -/
structure Input (γ : Type) where
  fails : Bool := false
  timer : Bool := false
  now : ℕ := 0
  rank : ℕ → ℕ := id
  reply : γ

/-- A uuid in a request, which validation lets through as it is written; the database reads capital and
small letters alike. -/
structure UuidText (uuids : String → Option ℕ) where
  text : String
  id : ℕ
  reads : uuids text = some id
deriving DecidableEq, Repr

/-- Bounds of a PostgreSQL `INTEGER`. -/
def fitsInt4 (n : ℤ) : Bool := decide (-2147483648 ≤ n ∧ n ≤ 2147483647)

/-- An optional text as a JavaScript condition sees it: the empty one counts as absent. -/
def truthy (o : Option String) : Option String := o.filter fun t => !t.isEmpty

/-- A `NUMERIC(14, 2)` amount as JavaScript prints the number. -/
def stringifyAmount (x : ℚ) : String :=
  let cents := (x * 100).floor.toNat
  let whole := toString (cents / 100)
  if cents % 100 = 0 then whole
  else if cents % 10 = 0 then whole ++ "." ++ toString (cents % 100 / 10)
  else if cents % 100 < 10 then whole ++ ".0" ++ toString (cents % 100)
  else whole ++ "." ++ toString (cents % 100)

/-- A condition inside a transaction, with the error that rolls it back. -/
def demand (c : Bool) (e : Failure) : Except Failure Unit := if c then .ok () else .error e

/-- A statement's `CHECK`, `UNIQUE` or foreign key, by name. -/
def check (c : Bool) (name : String) : Except Failure Unit := demand c (.constraint name)

@[simp] theorem bind_eq_ok {α β : Type} {x : Except Failure α} {f : α → Except Failure β} {b : β} :
    (x >>= f) = .ok b ↔ ∃ a, x = .ok a ∧ f a = .ok b := by
  cases x <;> simp [bind, Except.bind]

@[simp] theorem pure_eq_ok {α : Type} {a b : α} : (pure a : Except Failure α) = .ok b ↔ a = b := by
  simp [pure, Except.pure]

@[simp] theorem demand_eq_ok {c : Bool} {e : Failure} {u : Unit} :
    demand c e = .ok u ↔ c = true := by
  cases c <;> simp [demand]

@[simp] theorem check_eq_ok {c : Bool} {name : String} {u : Unit} :
    check c name = .ok u ↔ c = true := demand_eq_ok

section Calls

variable {L γ σ α β : Type}

def query (l : L) (f : Input γ → σ → β) : Prog L (Input γ) σ Failure β :=
  Prog.call l fun i s => (if i.fails then .error .database else .ok (f i s), s)

/-- The outcome of a transaction; the old state comes back when it is rejected. -/
def settle (s : σ) : Except Failure (β × σ) → Except Failure β × σ
  | .ok (b, s') => (.ok b, s')
  | .error e => (.error e, s)

/-- A write, or several in one `$transaction`. -/
def atomic (l : L) (f : Input γ → σ → Except Failure (β × σ)) : Prog L (Input γ) σ Failure β :=
  Prog.call l fun i s => if i.fails then (.error .database, s) else settle s (f i s)

variable {ok : L → Input γ → σ → Prop} {ψ : L → Input γ → σ → σ → Prop}

theorem every_query {l : L} {f : Input γ → σ → β} (h : ∀ i s, ok l i s → ψ l i s s) :
    (query l f).Every ok ψ :=
  Prog.every_call h

theorem every_queryBind {l : L} {f : Input γ → σ → β} {k : β → Prog L (Input γ) σ Failure α}
    (h : ∀ i s, ok l i s → ψ l i s s ∧ (k (f i s)).Every ok ψ) :
    ((query l f).bind k).Every ok ψ := by
  intro i s ho
  refine ⟨(h i s ho).1, ?_⟩
  change ((Prog.done (if i.fails = true then .error .database else .ok (f i s))).bind k).Every ok ψ
  cases hf : i.fails with
  | true => trivial
  | false => exact (h i s ho).2

theorem every_atomic {l : L} {f : Input γ → σ → Except Failure (β × σ)}
    (hrefl : ∀ i s, ok l i s → ψ l i s s)
    (h : ∀ i s b s', ok l i s → i.fails = false → f i s = .ok (b, s') → ψ l i s s') :
    (atomic l f).Every ok ψ := by
  refine Prog.every_call fun i s ho => ?_
  cases hf : i.fails with
  | true => exact hrefl i s ho
  | false =>
    cases hr : f i s with
    | error e => simpa [hr, settle] using hrefl i s ho
    | ok r => simpa [hr, settle] using h i s r.1 r.2 ho hf hr

variable {W : World L (Input γ) σ} {C D : Discipline L (Input γ) σ} {s : σ}
  {Q : Except Failure α → σ → Prop}

theorem holds_queryBind {l : L} {f : Input γ → σ → β} {k : β → Prog L (Input γ) σ Failure α}
    (h : ∀ t, D.rely s t → W.inv t → ∀ i, W.ok l i t →
      D.guar l i t t ∧ (∀ t', D.rely t t' → W.inv t' → Q (.error .database) t') ∧
        (i.fails = false → Holds W C D Q (k (f i t)) t)) :
    Holds W C D Q ((query l f).bind k) s := by
  refine Holds.callBind fun t ht hi i ho => ?_
  obtain ⟨hg, herr, hk⟩ := h t ht hi i ho
  refine ⟨hi, hg, ?_⟩
  cases hf : i.fails with
  | true => simpa using herr
  | false => simpa using hk hf

theorem holds_atomicBind {l : L} {f : Input γ → σ → Except Failure (β × σ)}
    {k : β → Prog L (Input γ) σ Failure α}
    (h : ∀ t, D.rely s t → W.inv t → ∀ i, W.ok l i t →
      D.guar l i t t ∧
      (∀ e t', (i.fails = true ∨ f i t = .error e) → D.rely t t' → W.inv t' → Q (.error e) t') ∧
      ∀ b u, i.fails = false → f i t = .ok (b, u) →
        W.inv u ∧ D.guar l i t u ∧ Holds W C D Q (k b) u) :
    Holds W C D Q ((atomic l f).bind k) s := by
  refine Holds.callBind fun t ht hi i ho => ?_
  obtain ⟨hg, herr, hk⟩ := h t ht hi i ho
  cases hf : i.fails with
  | true => exact ⟨hi, hg, fun t' => herr .database t' (.inl hf)⟩
  | false =>
    cases hr : f i t with
    | error e => exact ⟨by simpa [hr, settle] using hi, by simpa [hr, settle] using hg,
        by simpa [hr, settle] using fun t' => herr e t' (.inr hr)⟩
    | ok r => simpa [hr, settle] using hk r.1 r.2 hf hr

theorem holds_atomic {l : L} {f : Input γ → σ → Except Failure (α × σ)}
    (h : ∀ t, D.rely s t → W.inv t → ∀ i, W.ok l i t →
      D.guar l i t t ∧
      (∀ e t', (i.fails = true ∨ f i t = .error e) → D.rely t t' → W.inv t' → Q (.error e) t') ∧
      ∀ b u, i.fails = false → f i t = .ok (b, u) →
        W.inv u ∧ D.guar l i t u ∧ ∀ t', D.rely u t' → W.inv t' → Q (.ok b) t') :
    Holds W C D Q (atomic l f) s := by
  refine Holds.call fun t ht hi i ho => ?_
  obtain ⟨hg, herr, hk⟩ := h t ht hi i ho
  cases hf : i.fails with
  | true => exact ⟨hi, hg, fun t' => herr .database t' (.inl hf)⟩
  | false =>
    cases hr : f i t with
    | error e => exact ⟨by simpa [hr, settle] using hi, by simpa [hr, settle] using hg,
        by simpa [hr, settle] using fun t' => herr e t' (.inr hr)⟩
    | ok r => simpa [hr, settle] using hk r.1 r.2 hf hr

theorem holds_lookupBind {l : L} {f : Input γ → σ → Option β} {e : Failure}
    {k : β → Prog L (Input γ) σ Failure α} (hg : ∀ t i, W.inv t → W.ok l i t → D.guar l i t t)
    (herr : ∀ e t, D.rely s t → W.inv t → Q (.error e) t)
    (h : ∀ t i b, D.rely s t → W.inv t → W.ok l i t → f i t = some b → Holds W C D Q (k b) t) :
    Holds W C D Q ((query l f).bind fun found => (Prog.orThrow e found).bind k) s := by
  refine holds_queryBind fun t ht hi i ho => ⟨hg t i hi ho, ?_, fun _ => ?_⟩
  · exact fun t' ht' => herr _ t' (D.trans ht ht')
  · exact Holds.orThrowBind (fun b hb => h t i b ht hi ho hb)
      fun _ t' ht' => herr _ t' (D.trans ht ht')

/-! Calls with the label of the one after them. -/

variable {ψ : L → Input γ → σ → σ → Option L → Prop} {mark : L → Prop} {spent : σ → Prop}

theorem follow_queryBind {l : L} {f : Input γ → σ → β} {k : β → Prog L (Input γ) σ Failure α}
    (h : ∀ i s, ok l i s → ψ l i s s none ∧
      ψ l i s s (k (f i s)).label? ∧ (k (f i s)).Follow ok ψ) :
    ((query l f).bind k).Follow ok ψ := by
  refine Prog.Follow.callBind fun i s ho => ?_
  cases hf : i.fails with
  | true => simpa using (h i s ho).1
  | false => simpa using (h i s ho).2

theorem follow_atomicBind {l : L} {f : Input γ → σ → Except Failure (β × σ)}
    {k : β → Prog L (Input γ) σ Failure α}
    (h : ∀ i s, ok l i s →
      (∀ e, i.fails = true ∨ f i s = .error e → ψ l i s s none) ∧
      ∀ b s', i.fails = false → f i s = .ok (b, s') →
        ψ l i s s' (k b).label? ∧ (k b).Follow ok ψ) :
    ((atomic l f).bind k).Follow ok ψ := by
  refine Prog.Follow.callBind fun i s ho => ?_
  cases hf : i.fails with
  | true => simpa using (h i s ho).1 .database (.inl hf)
  | false =>
    cases hr : f i s with
    | error e => simpa [hr, settle] using (h i s ho).1 e (.inr hr)
    | ok r => simpa [hr, settle] using (h i s ho).2 r.1 r.2 hf hr

theorem gated_queryBind {l : L} {f : Input γ → σ → β} {k : β → Prog L (Input γ) σ Failure α}
    (h : ∀ i s, ok l i s → (k (f i s)).Gated ok mark spent) :
    ((query l f).bind k).Gated ok mark spent := by
  refine Prog.Gated.callBind fun i s b ho hb => .inl ?_
  cases hf : i.fails with
  | true => simp [hf] at hb
  | false =>
    obtain rfl : f i s = b := by simpa [hf] using hb
    exact h i s ho

theorem gated_atomicBind {l : L} {f : Input γ → σ → Except Failure (β × σ)}
    {k : β → Prog L (Input γ) σ Failure α}
    (h : ∀ i s b s', ok l i s → i.fails = false → f i s = .ok (b, s') →
      (k b).Gated ok mark spent ∨ mark l ∧ spent s') :
    ((atomic l f).bind k).Gated ok mark spent := by
  refine Prog.Gated.callBind fun i s b ho hb => ?_
  cases hf : i.fails with
  | true => simp [hf] at hb
  | false =>
    cases hr : f i s with
    | error e => simp [hf, hr, settle] at hb
    | ok r =>
      obtain rfl : r.1 = b := by simpa [hf, hr, settle] using hb
      simpa [hr, settle] using h i s r.1 r.2 ho hf hr

/-! Calls that leave a debt behind. -/

variable {goal Due : σ → Prop}

theorem reaches_atomicBind {l : L} {f : Input γ → σ → Except Failure (β × σ)}
    {k : β → Prog L (Input γ) σ Failure α}
    (h : ∀ i s, ok l i s → i.fails = false ∧ ∃ b s', f i s = .ok (b, s') ∧
      (goal s' ∨ (k b).Reaches ok goal)) :
    ((atomic l f).bind k).Reaches ok goal := by
  refine Prog.reaches_callBind fun i s ho => ?_
  obtain ⟨hf, b, s', hs, hk⟩ := h i s ho
  refine ⟨b, ?_⟩
  simpa [hf, hs, settle] using hk

theorem pays_queryBind {l : L} {f : Input γ → σ → β} {k : β → Prog L (Input γ) σ Failure α}
    (h : ∀ i s, ok l i s → (k (f i s)).Pays ok Due) : ((query l f).bind k).Pays ok Due := by
  refine Prog.pays_callBind fun i s ho => ?_
  cases hf : i.fails with
  | true => exact fun hd => hd
  | false => exact ⟨.inl, h i s ho⟩

theorem pays_atomicBind {l : L} {f : Input γ → σ → Except Failure (β × σ)}
    {k : β → Prog L (Input γ) σ Failure α}
    (h : ∀ i s b s', ok l i s → f i s = .ok (b, s') →
      (Due s' → Due s ∨ (k b).Reaches ok fun t => ¬ Due t) ∧ (k b).Pays ok Due) :
    ((atomic l f).bind k).Pays ok Due := by
  refine Prog.pays_callBind fun i s ho => ?_
  cases hf : i.fails with
  | true => exact fun hd => hd
  | false =>
    cases hr : f i s with
    | error e => simp [settle]
    | ok r => simpa [hr, settle] using h i s r.1 r.2 ho hr

/-! Calls that settle what is due. -/

section Settling

variable {Due goal : σ → Prop}

theorem settle_queryBind {l : L} {f : Input γ → σ → β} {k : β → Prog L (Input γ) σ Failure α}
    (hgoal : ∀ s t, D.rely s t → goal s → goal t) (hQ : ∀ r t, goal t → Q r t)
    (hcalm : ((query l f).bind k).Calm W D Due goal)
    (h : ∀ t, D.rely s t → W.inv t → ¬ goal t → ∀ i, W.ok l i t →
      i.fails = false ∧ Holds W D D Q (k (f i t)) t) : Holds W D D Q ((query l f).bind k) s := by
  refine Prog.Calm.callBind hgoal hQ hcalm fun t ht hi hn i ho => ?_
  obtain ⟨hf, hk⟩ := h t ht hi hn i ho
  exact ⟨f i t, by simp [hf], hk⟩

theorem settle_atomicBind {l : L} {f : Input γ → σ → Except Failure (β × σ)}
    {k : β → Prog L (Input γ) σ Failure α}
    (hgoal : ∀ s t, D.rely s t → goal s → goal t) (hQ : ∀ r t, goal t → Q r t)
    (hcalm : ((atomic l f).bind k).Calm W D Due goal)
    (h : ∀ t, D.rely s t → W.inv t → ¬ goal t → ∀ i, W.ok l i t →
      i.fails = false ∧ ∃ b u, f i t = .ok (b, u) ∧ Holds W D D Q (k b) u) :
    Holds W D D Q ((atomic l f).bind k) s := by
  refine Prog.Calm.callBind hgoal hQ hcalm fun t ht hi hn i ho => ?_
  obtain ⟨hf, b, u, hu, hk⟩ := h t ht hi hn i ho
  exact ⟨b, by simp [hf, hu, settle], by simpa [hf, hu, settle] using hk⟩

theorem incurs_queryBind {l : L} {f : Input γ → σ → β} {k : β → Prog L (Input γ) σ Failure α}
    (hrefl : ∀ i s, D.guar l i s s)
    (hk : ∀ i s, W.ok l i s → W.inv s → (k (f i s)).Incurs W D Due goal) :
    ((query l f).bind k).Incurs W D Due goal := by
  refine Prog.incurs_callBind fun i s ho hi => ⟨hi, hrefl i s, ?_⟩
  cases hf : i.fails with
  | true => exact fun hd => hd
  | false => exact ⟨.inl, hk i s ho hi⟩

theorem incurs_atomicBind {l : L} {f : Input γ → σ → Except Failure (β × σ)}
    {k : β → Prog L (Input γ) σ Failure α} (hrefl : ∀ i s, D.guar l i s s)
    (h : ∀ i s b u, W.ok l i s → W.inv s → f i s = .ok (b, u) → W.inv u ∧ D.guar l i s u ∧
      (Due u → Due s ∨ Holds W D D (fun _ => goal) (k b) u) ∧ (k b).Incurs W D Due goal) :
    ((atomic l f).bind k).Incurs W D Due goal := by
  refine Prog.incurs_callBind fun i s ho hi => ?_
  cases hf : i.fails with
  | true => exact ⟨hi, hrefl i s, fun hd => hd⟩
  | false =>
    cases hr : f i s with
    | error e => exact ⟨by simpa [hr, settle] using hi, by simpa [hr, settle] using hrefl i s,
        by simp [settle]⟩
    | ok r => simpa [hr, settle] using h i s r.1 r.2 ho hi hr

end Settling

end Calls

end ElectronicsCart
