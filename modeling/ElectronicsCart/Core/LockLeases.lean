import ElectronicsCart.Core.Values
import ElectronicsCart.Lib.Volatile

/-!
# Locks that expire

`shared/lock/lock.service.ts` with its clock: a lock is an entry that may be dropped once its TTL
has run out, whoever still works under it.  Calls of any number of clients go on in any order, and
the answer of a command comes at any time after Redis has run it; what the body of a `withLock` does
is calls of its own.
-/

namespace ElectronicsCart.LockLeases

open Volatile

/-- `LockOptions` with the defaults of the service. -/
structure LockOptions where
  ttlMs : ℕ := 10000
  waitMs : ℕ := 0
  retryMs : ℕ := 50
deriving DecidableEq, Repr

inductive Call where
  | acquire (resource : String) (options : LockOptions)
  | release (resource : String)
  | extend (resource : String) (ttlMs : ℕ)
  | withLock (resource : String) (options : LockOptions)
deriving DecidableEq, Repr

inductive Outcome where
  | token
  | noToken
  | answer (done : Bool)
  | notAcquired
  | ended
  | redisError
deriving DecidableEq, Repr

/-- Where a call has got to; `body` is the `fn` of a `withLock`. -/
inductive Phase where
  | polling (deadline : ℕ)
  /-- the `SET` has run, and its answer is on the way -/
  | setReply (deadline : ℕ) (got : Bool)
  | sleeping (deadline wakeAt : ℕ)
  | body (began : ℕ)
  | scripting
  /-- the script has run, and its answer is on the way -/
  | scriptReply (owned : Bool)
  | done (outcome : Outcome)
deriving DecidableEq, Repr

/-- A call with the token that it draws, or that its caller passes. -/
structure Task where
  call : Call
  token : String
  phase : Phase
  /-- when its `SET` took the lock; no step reads it -/
  taken : Option ℕ := none
deriving DecidableEq, Repr

structure System where
  now : ℕ := 0
  store : Store String String := fun _ => none
  tasks : List Task := []

inductive Event where
  /-- the clock goes on, and some of the keys that are due are dropped -/
  | pass (ms : ℕ) (gone : String → Bool)
  | call (call : Call) (token : String)
  /-- a task makes its next step; `fails` says that a command or its answer is lost -/
  | step (j : ℕ) (fails : Bool)

def Call.resource : Call → String
  | .acquire resource _ => resource
  | .release resource => resource
  | .extend resource _ => resource
  | .withLock resource _ => resource

def Call.ttlMs : Call → ℕ
  | .acquire _ options => options.ttlMs
  | .release _ => 0
  | .extend _ ttlMs => ttlMs
  | .withLock _ options => options.ttlMs

def Call.retryMs : Call → ℕ
  | .acquire _ options => options.retryMs
  | .withLock _ options => options.retryMs
  | _ => 0

def Call.isWithLock : Call → Bool
  | .withLock _ _ => true
  | _ => false

def Call.draws : Call → Bool
  | .acquire _ _ => true
  | .withLock _ _ => true
  | _ => false

section Service

variable (digest : String → String)

/-- `digest` is the first half of the SHA-256 of a text, in hexadecimal. -/
def key (resource : String) : String := jsSlice 200 ("lock:" ++ digest resource ++ ":" ++ resource)

/-- What a call does before its first command. -/
def Call.start (now : ℕ) : Call → Phase
  | .acquire _ options => .polling (now + options.waitMs)
  | .release _ => .scripting
  | .extend _ _ => .scripting
  | .withLock _ options => .polling (now + options.waitMs)

/-- What `acquire` comes to with the answer of a poll. -/
def Call.replied (call : Call) (now deadline : ℕ) (got : Bool) : Phase :=
  if got then (if call.isWithLock then .body now else .done .token)
  else if deadline ≤ now then .done (if call.isWithLock then .notAcquired else .noToken)
  else .sleeping deadline (now + call.retryMs)

/-- `SET key token PX ttl NX`; Redis refuses a TTL of zero. -/
def poll (s : System) (task : Task) (deadline : ℕ) : Task × Store String String :=
  if task.call.ttlMs = 0 then ({ task with phase := .done .redisError }, s.store)
  else
    let set := s.store.setNX (key digest task.call.resource) task.token
      (some (s.now + task.call.ttlMs))
    ({ task with
        phase := .setReply deadline set.1
        taken := if set.1 then some s.now else none }, set.2)

/-- The two Lua scripts; the one of a `withLock` is its release.  A TTL of zero deletes the key. -/
def script (s : System) (task : Task) : Task × Store String String :=
  let k := key digest task.call.resource
  let owned := s.store.holds k task.token
  ({ task with phase := .scriptReply owned },
    match task.call with
    | .extend _ ttlMs =>
      if ttlMs = 0 then s.store.dropIf k task.token
      else s.store.prolongIf k task.token (s.now + ttlMs)
    | _ => s.store.dropIf k task.token)

def Call.scripted (call : Call) (owned : Bool) : Outcome :=
  if call.isWithLock then .ended else .answer owned

def advance (s : System) (task : Task) (fails : Bool) : Task × Store String String :=
  match task.phase with
  | .polling deadline =>
    if fails then ({ task with phase := .done .redisError }, s.store) else poll digest s task deadline
  | .setReply deadline got =>
    ({ task with
        phase := if fails then .done .redisError else task.call.replied s.now deadline got }, s.store)
  | .sleeping deadline wakeAt =>
    ({ task with
        phase := if wakeAt ≤ s.now then .polling deadline else .sleeping deadline wakeAt }, s.store)
  | .body _ => ({ task with phase := .scripting }, s.store)
  | .scripting =>
    if fails then ({ task with phase := .done .redisError }, s.store) else script digest s task
  | .scriptReply owned =>
    ({ task with phase := .done (if fails then .redisError else task.call.scripted owned) }, s.store)
  | .done _ => (task, s.store)

def System.step (s : System) : Event → System
  | .pass ms gone => { s with now := s.now + ms, store := s.store.lapse (s.now + ms) gone }
  | .call call token => { s with tasks := s.tasks ++ [{ call, token, phase := call.start s.now }] }
  | .step j fails =>
    match s.tasks[j]? with
    | none => s
    | some task =>
      let after := advance digest s task fails
      { s with store := after.2, tasks := s.tasks.set j after.1 }

def System.run (s : System) : List Event → System
  | [] => s
  | e :: rest => (s.step digest e).run rest

/-- Tokens are unique, and nobody is passed the token of a `withLock`, which keeps it to itself. -/
def Fresh (s : System) : Event → Prop
  | .call call token => ∀ task ∈ s.tasks,
      (call.draws = true ∨ task.call.isWithLock = true) → task.token ≠ token
  | _ => True

def FreshRun (s : System) : List Event → Prop
  | [] => True
  | e :: rest => Fresh s e ∧ FreshRun (s.step digest e) rest

end Service

/-! ### What a step does -/

section Safety

variable {digest : String → String} {s : System} {task : Task} {fails : Bool}

instance (s : System) : (e : Event) → Decidable (Fresh s e)
  | .call c token => inferInstanceAs (Decidable (∀ task ∈ s.tasks,
      (c.draws = true ∨ task.call.isWithLock = true) → task.token ≠ token))
  | .pass _ _ => .isTrue trivial
  | .step _ _ => .isTrue trivial

instance decidableFreshRun (digest : String → String) :
    (s : System) → (events : List Event) → Decidable (FreshRun digest s events)
  | _, [] => .isTrue trivial
  | s, e :: rest =>
    have := decidableFreshRun digest (s.step digest e) rest
    inferInstanceAs (Decidable (Fresh s e ∧ FreshRun digest (s.step digest e) rest))

/-- A lock with another token survives the step of a task. -/
theorem script_other {k : String} {e : Entry String} (h : s.store k = some e)
    (hne : task.token ≠ e.value) : (script digest s task).2 k = some e := by
  obtain ⟨call, token, phase, taken⟩ := task
  cases call with
  | extend resource ttlMs =>
    simp only [script]
    split
    · exact Store.dropIf_other h fun _ => hne
    · exact Store.prolongIf_other h fun _ => hne
  | _ => exact Store.dropIf_other h fun _ => hne

theorem poll_other {k : String} {e : Entry String} {deadline : ℕ} (h : s.store k = some e) :
    (poll digest s task deadline).2 k = some e := by
  unfold poll
  split
  · exact h
  · rcases @Store.setNX_cases _ _ _ s.store (key digest task.call.resource) task.token
      (some (s.now + task.call.ttlMs)) with ⟨hfree, ht⟩ | ⟨-, ht⟩
    · have hk : k ≠ key digest task.call.resource := by
        rintro rfl
        rw [hfree] at h
        cases h
      simp only [ht]
      rw [Store.put_of_ne hk]
      exact h
    · simp only [ht]
      exact h

theorem advance_other {k : String} {e : Entry String} (h : s.store k = some e)
    (hne : task.token ≠ e.value) : (advance digest s task fails).2 k = some e := by
  unfold advance
  split
  · split
    · exact h
    · exact poll_other h
  · exact h
  · exact h
  · exact h
  · split
    · exact h
    · exact script_other h hne
  · exact h
  · exact h

theorem advance_same : (advance digest s task fails).1.call = task.call ∧
    (advance digest s task fails).1.token = task.token := by
  unfold advance poll script
  split <;> try split
  all_goals first
    | exact ⟨rfl, rfl⟩
    | (split <;> exact ⟨rfl, rfl⟩)

/-- The token is the call's, or will be with the answer of the `SET`; a `withLock` has it as long as
its body runs. -/
def Phase.grants : Phase → Bool
  | .setReply _ got => got
  | .body _ => true
  | .done .token => true
  | _ => false

def Task.granted (task : Task) : Bool := task.call.draws && task.phase.grants

theorem replied_grants {call : Call} {now deadline : ℕ} :
    (call.replied now deadline false).grants = false := by
  unfold Call.replied
  rw [if_neg Bool.false_ne_true]
  split
  · split <;> rfl
  · rfl

theorem scripted_grants {call : Call} {owned : Bool} :
    (Phase.done (if fails then .redisError else call.scripted owned)).grants = false := by
  unfold Call.scripted
  split
  · rfl
  · split <;> rfl

/-- A call is only granted its token by a `SET` of a free key. -/
theorem advance_granted (h : (advance digest s task fails).1.granted = true) :
    (task.granted = true ∧ (advance digest s task fails).1.taken = task.taken ∧
      (advance digest s task fails).2 = s.store) ∨
    (0 < task.call.ttlMs ∧ (advance digest s task fails).1.taken = some s.now ∧
      s.store (key digest task.call.resource) = none ∧
      (advance digest s task fails).2 (key digest task.call.resource) =
        some ⟨task.token, some (s.now + task.call.ttlMs)⟩) := by
  rw [Task.granted, advance_same.1, Bool.and_eq_true] at h
  obtain ⟨hdraws, hgrants⟩ := h
  have hnone : ∀ {φ : Phase}, φ.grants = false → φ.grants ≠ true := fun h h' => by
    rw [h] at h'
    cases h'
  unfold advance at hgrants ⊢
  split at hgrants
  next deadline hphase =>
    cases fails with
    | true => cases hgrants
    | false =>
      simp only [Bool.false_eq_true, if_false] at hgrants ⊢
      unfold poll at hgrants ⊢
      split at hgrants
      · cases hgrants
      next httl =>
        rw [if_neg httl]
        rcases @Store.setNX_cases _ _ _ s.store (key digest task.call.resource) task.token
          (some (s.now + task.call.ttlMs)) with ⟨hfree, ht⟩ | ⟨-, ht⟩
        · refine .inr ⟨Nat.pos_of_ne_zero httl, ?_, hfree, ?_⟩
          · simp only [ht, if_true]
          · simp only [ht, Store.put_self]
        · rw [ht] at hgrants
          cases hgrants
  next deadline got hphase =>
    cases got with
    | true => exact .inl ⟨by simp [Task.granted, hdraws, hphase, Phase.grants], rfl, rfl⟩
    | false =>
      cases fails with
      | true => cases hgrants
      | false => exact absurd hgrants (hnone replied_grants)
  · split at hgrants <;> cases hgrants
  · cases hgrants
  · cases fails <;> cases hgrants
  · exact absurd hgrants (hnone scripted_grants)
  next outcome hphase => exact .inl ⟨by rw [Task.granted, hdraws, hgrants]; rfl, rfl, rfl⟩

theorem advance_body {began : ℕ} (h : (advance digest s task fails).1.phase = .body began) :
    task.call.isWithLock = true := by
  unfold advance at h
  split at h
  next deadline hphase =>
    unfold poll at h
    split at h
    · cases h
    · split at h <;> cases h
  next deadline got hphase =>
    have hreply : (if fails then .done .redisError else task.call.replied s.now deadline got) =
        Phase.body began := h
    split at hreply
    · cases hreply
    unfold Call.replied at hreply
    split at hreply
    · split at hreply
      next hlock => exact hlock
      next => cases hreply
    · split at hreply <;> cases hreply
  · split at h <;> cases h
  · cases h
  · cases fails <;> cases h
  · cases h
  next outcome hphase =>
    rw [hphase] at h
    cases h

/-! ### The invariant -/

def Used (s : System) (token : String) : Prop := ∃ u ∈ s.tasks, u.token = token ∧ u.call.draws = false

/-- A call that is granted its token has the lock, unless the TTL has run out since its `SET`, or its
token was used. -/
structure Leased (digest : String → String) (s : System) (task : Task) (since : ℕ) : Prop where
  taken : task.taken = some since
  ttl_pos : 0 < task.call.ttlMs
  since_le : since ≤ s.now
  held : s.store (key digest task.call.resource) =
      some ⟨task.token, some (since + task.call.ttlMs)⟩ ∨ since + task.call.ttlMs ≤ s.now ∨
      Used s task.token

structure Inv (digest : String → String) (s : System) : Prop where
  tokens : ∀ {j j' : ℕ} {t t' : Task}, j ≠ j' → s.tasks[j]? = some t → s.tasks[j']? = some t' →
    t.call.draws = true → t'.call.draws = true ∨ t.call.isWithLock = true → t.token ≠ t'.token
  leased : ∀ {j : ℕ} {t : Task}, s.tasks[j]? = some t → t.granted = true → ∃ a, Leased digest s t a
  body : ∀ {j : ℕ} {t : Task} {began : ℕ}, s.tasks[j]? = some t → t.phase = .body began →
    t.call.isWithLock = true
  /-- Of two calls that are granted a resource, the first one has lost it when the second one gets
  it; two of one millisecond are not told apart. -/
  apart : ∀ {j j' : ℕ} {t t' : Task} {a b : ℕ}, j ≠ j' → s.tasks[j]? = some t →
    s.tasks[j']? = some t' → t.granted = true → t'.granted = true →
    t.call.resource = t'.call.resource → t.taken = some a → t'.taken = some b → a ≤ b →
    a + t.call.ttlMs ≤ b ∨ Used s t.token ∨ a = b ∧ Used s t'.token

theorem draws_of_isWithLock {c : Call} (h : c.isWithLock = true) : c.draws = true := by
  cases c <;> first | rfl | cases h

theorem Inv.pass (h : Inv digest s) (ms : ℕ) (gone : String → Bool) :
    Inv digest (s.step digest (.pass ms gone)) := by
  refine ⟨h.tokens, fun ht hg => ?_, h.body, h.apart⟩
  obtain ⟨a, htaken, hpos, hle, hheld⟩ := h.leased ht hg
  refine ⟨a, htaken, hpos, Nat.le_add_right_of_le hle, ?_⟩
  rcases hheld with hheld | hout | hused
  · rcases Nat.lt_or_ge (s.now + ms) (_ + _) with hlt | hge
    · exact .inl (Store.lapse_of_not_due hheld (by simpa [Entry.due] using hlt))
    · exact .inr (.inl hge)
  · exact .inr (.inl (Nat.le_add_right_of_le hout))
  · exact .inr (.inr hused)

theorem start_grants (c : Call) (now : ℕ) : (c.start now).grants = false := by
  cases c <;> rfl

theorem getElem?_concat {tasks : List Task} {new t : Task} {j : ℕ}
    (h : (tasks ++ [new])[j]? = some t) : tasks[j]? = some t ∨ j = tasks.length ∧ t = new := by
  rcases Nat.lt_or_ge j tasks.length with hj | hj
  · exact .inl ((List.getElem?_append_left hj).symm.trans h)
  · rw [List.getElem?_append_right hj] at h
    obtain ⟨hlt, ht⟩ := List.getElem?_eq_some_iff.mp h
    have hzero : j - tasks.length = 0 := by simpa using hlt
    refine .inr ⟨by omega, ?_⟩
    simpa [hzero] using ht.symm

theorem Used.call {c : Call} {token token' : String} (h : Used s token') :
    Used (s.step digest (.call c token)) token' := by
  obtain ⟨u, hu, h⟩ := h
  exact ⟨u, List.mem_append_left _ hu, h⟩

theorem Inv.call (h : Inv digest s) {c : Call} {token : String} (hf : Fresh s (.call c token)) :
    Inv digest (s.step digest (.call c token)) := by
  have hold : ∀ {j : ℕ} {t : Task}, (s.step digest (.call c token)).tasks[j]? = some t →
      t.granted = true → s.tasks[j]? = some t := by
    intro j t ht hg
    rcases getElem?_concat ht with ht | ⟨-, rfl⟩
    · exact ht
    · rw [Task.granted, start_grants, Bool.and_false] at hg
      cases hg
  refine ⟨fun {j j' t t'} hne ht ht' hdraws hor => ?_, fun ht hg => ?_, fun ht hb => ?_,
    fun hne ht ht' hg hg' hres ha hb hab => ?_⟩
  · rcases getElem?_concat ht with ht | ⟨rfl, rfl⟩
    · rcases getElem?_concat ht' with ht' | ⟨rfl, rfl⟩
      · exact h.tokens hne ht ht' hdraws hor
      · exact hf t (List.mem_of_getElem? ht) hor
    · rcases getElem?_concat ht' with ht' | ⟨rfl, rfl⟩
      · exact (hf t' (List.mem_of_getElem? ht') (.inl hdraws)).symm
      · exact absurd rfl hne
  · obtain ⟨a, htaken, hpos, hle, hheld⟩ := h.leased (hold ht hg) hg
    exact ⟨a, htaken, hpos, hle, hheld.imp id (.imp id .call)⟩
  · rcases getElem?_concat ht with ht | ⟨-, rfl⟩
    · exact h.body ht hb
    · have hnot := start_grants c s.now
      rw [show c.start s.now = .body _ from hb] at hnot
      cases hnot
  · exact (h.apart hne (hold ht hg) (hold ht' hg') hg hg' hres ha hb hab).imp id
      (.imp .call (.imp id .call))

theorem step_task {j : ℕ} (hj : s.tasks[j]? = some task) :
    s.step digest (.step j fails) = { s with
      store := (advance digest s task fails).2
      tasks := s.tasks.set j (advance digest s task fails).1 } := by
  simp only [System.step, hj]

/-- The task at a place is the old one, or the one that made the step. -/
theorem step_getElem? {j i : ℕ} {t : Task} (hj : s.tasks[j]? = some task)
    (ht : (s.step digest (.step j fails)).tasks[i]? = some t) :
    (i = j ∧ t = (advance digest s task fails).1) ∨ (i ≠ j ∧ s.tasks[i]? = some t) := by
  rw [step_task hj] at ht
  by_cases hi : j = i
  · subst hi
    rw [List.getElem?_set_self (List.getElem?_eq_some_iff.mp hj).1] at ht
    exact .inl ⟨rfl, (Option.some.inj ht).symm⟩
  · rw [List.getElem?_set_ne hi] at ht
    exact .inr ⟨Ne.symm hi, ht⟩

theorem Used.step {j : ℕ} {token : String} (hj : s.tasks[j]? = some task) (h : Used s token) :
    Used (s.step digest (.step j fails)) token := by
  obtain ⟨u, hu, htok, hdraws⟩ := h
  obtain ⟨i, hi⟩ := List.mem_iff_getElem?.mp hu
  rw [step_task hj]
  by_cases hij : j = i
  · subst hij
    obtain rfl := Option.some.inj (hj.symm.trans hi)
    obtain ⟨hcall, htoken⟩ := @advance_same digest s task fails
    exact ⟨_, List.mem_set (List.getElem?_eq_some_iff.mp hj).1 _, htoken.trans htok, hcall ▸ hdraws⟩
  · refine ⟨u, List.mem_iff_getElem?.mpr ⟨i, ?_⟩, htok, hdraws⟩
    simpa only [List.getElem?_set_ne hij] using hi

theorem Leased.lost {t : Task} {a : ℕ} (h : Leased digest s t a)
    (hfree : s.store (key digest t.call.resource) = none) :
    a + t.call.ttlMs ≤ s.now ∨ Used s t.token := by
  refine h.held.resolve_left fun hheld => ?_
  rw [hfree] at hheld
  cases hheld

theorem Leased.eq {t : Task} {a b : ℕ} (h : Leased digest s t a) (hb : t.taken = some b) : a = b :=
  Option.some.inj (h.taken.symm.trans hb)

theorem Leased.granted_step {j i : ℕ} {t : Task} {a : ℕ} (h : Inv digest s) (hne : i ≠ j)
    (hj : s.tasks[j]? = some task) (ht : s.tasks[i]? = some t) (hg : t.granted = true)
    (hl : Leased digest s t a) : Leased digest (s.step digest (.step j fails)) t a := by
  obtain ⟨htaken, hpos, hle, hheld⟩ := hl
  have hdraws : t.call.draws = true := (Bool.and_eq_true _ _ ▸ hg : _ ∧ _).1
  have hmem : task ∈ s.tasks := List.mem_of_getElem? hj
  have hstep := @step_task digest s task fails j hj
  refine ⟨htaken, hpos, by rw [hstep]; exact hle, ?_⟩
  rcases hheld with hheld | hout | hused
  · by_cases htok : task.token = t.token
    · cases hd : task.call.draws with
      | true => exact absurd htok (h.tokens hne ht hj hdraws (.inl hd)).symm
      | false => exact .inr (.inr (Used.step hj ⟨task, hmem, htok, hd⟩))
    · rw [hstep]
      exact .inl (advance_other hheld htok)
  · rw [hstep]
    exact .inr (.inl hout)
  · exact .inr (.inr (hused.step hj))

theorem Inv.step (h : Inv digest s) (j : ℕ) (fails : Bool) :
    Inv digest (s.step digest (.step j fails)) := by
  cases hj : s.tasks[j]? with
  | none =>
    simp only [System.step, hj]
    exact h
  | some task =>
    obtain ⟨hcall, htoken⟩ := @advance_same digest s task fails
    have hstep := @step_task digest s task fails j hj
    have hbefore : ∀ {i : ℕ} {t : Task}, (s.step digest (.step j fails)).tasks[i]? = some t →
        ∃ t', s.tasks[i]? = some t' ∧ t'.call = t.call ∧ t'.token = t.token := by
      intro i t ht
      rcases step_getElem? hj ht with ⟨rfl, rfl⟩ | ⟨-, ht⟩
      · exact ⟨task, hj, hcall.symm, htoken.symm⟩
      · exact ⟨t, ht, rfl, rfl⟩
    refine ⟨fun hne ht ht' hdraws hor => ?_, fun {i t} ht hg => ?_, fun {i t _} ht hb => ?_, ?_⟩
    · obtain ⟨u, hu, hcu, htu⟩ := hbefore ht
      obtain ⟨u', hu', hcu', htu'⟩ := hbefore ht'
      rw [← htu, ← htu']
      rw [← hcu] at hdraws
      rw [← hcu, ← hcu'] at hor
      exact h.tokens hne hu hu' hdraws hor
    · rcases step_getElem? hj ht with ⟨rfl, rfl⟩ | ⟨hne, hold⟩
      · rcases advance_granted hg with ⟨hg', htaken, hstore⟩ | ⟨hpos, htaken, hfree, hheld⟩
        · obtain ⟨a, hta, hpos, hle, hheld⟩ := h.leased hj hg'
          refine ⟨a, htaken.trans hta, hcall ▸ hpos, by rw [hstep]; exact hle, ?_⟩
          rw [hcall, htoken]
          refine hheld.imp (fun hheld => ?_) (.imp (fun hout => ?_) (.step hj))
          · rw [hstep]
            exact hstore ▸ hheld
          · rw [hstep]
            exact hout
        · refine ⟨s.now, htaken, hcall ▸ hpos, by rw [hstep], .inl ?_⟩
          rw [hcall, htoken, hstep]
          exact hheld
      · obtain ⟨a, hl⟩ := h.leased hold hg
        exact ⟨a, hl.granted_step h hne hj hold hg⟩
    · rcases step_getElem? hj ht with ⟨rfl, rfl⟩ | ⟨-, hold⟩
      · exact hcall ▸ advance_body hb
      · exact h.body hold hb
    · intro i i' t t' a b hne ht ht' hg hg' hres ha hb hab
      rcases step_getElem? hj ht with ⟨rfl, rfl⟩ | ⟨hi, hold⟩
      · rcases step_getElem? hj ht' with ⟨rfl, rfl⟩ | ⟨hi', hold'⟩
        · exact absurd rfl hne
        rw [hcall] at hres ⊢
        rw [htoken]
        rcases advance_granted hg with ⟨hg₀, htaken, -⟩ | ⟨-, htaken, hfree, -⟩
        · exact (h.apart hne hj hold' hg₀ hg' hres (htaken.symm.trans ha) hb hab).imp id
            (.imp (.step hj) (.imp id (.step hj)))
        · obtain rfl : s.now = a := Option.some.inj (htaken.symm.trans ha)
          obtain ⟨_, hl⟩ := h.leased hold' hg'
          obtain rfl := hl.eq hb
          obtain rfl := Nat.le_antisymm hab hl.since_le
          rcases hl.lost (hres ▸ hfree) with hout | hused
          · exact absurd hout (by have := hl.ttl_pos; omega)
          · exact .inr (.inr ⟨rfl, hused.step hj⟩)
      · rcases step_getElem? hj ht' with ⟨rfl, rfl⟩ | ⟨hi', hold'⟩
        · rw [hcall] at hres
          rw [htoken]
          rcases advance_granted hg' with ⟨hg₀, htaken, -⟩ | ⟨-, htaken, hfree, -⟩
          · exact (h.apart hne hold hj hg hg₀ hres ha (htaken.symm.trans hb) hab).imp id
              (.imp (.step hj) (.imp id (.step hj)))
          · obtain rfl : s.now = b := Option.some.inj (htaken.symm.trans hb)
            obtain ⟨_, hl⟩ := h.leased hold hg
            obtain rfl := hl.eq ha
            exact (hl.lost (hres ▸ hfree)).imp id fun hused => .inl (hused.step hj)
        · exact (h.apart hne hold hold' hg hg' hres ha hb hab).imp id
            (.imp (.step hj) (.imp id (.step hj)))

theorem Inv.run {events : List Event} (h : Inv digest s) (hf : FreshRun digest s events) :
    Inv digest (s.run digest events) := by
  induction events generalizing s with
  | nil => exact h
  | cons e rest ih =>
    refine ih ?_ hf.2
    cases e with
    | pass ms gone => exact h.pass ms gone
    | call c token => exact h.call hf.1
    | step j fails => exact h.step j fails

theorem inv_init (digest : String → String) : Inv digest {} := by
  refine ⟨fun _ ht => ?_, fun ht => ?_, fun ht => ?_, fun _ ht => ?_⟩ <;> simp at ht

/-! ### Exclusion -/

/-- Stale holders change nothing, a resource has one holder, a call that is granted its token is the
holder until the TTL since its `SET` is over or the token is used, and two bodies on a resource
overlap only when the TTL of the first has run out. -/
structure Exclusive (digest : String → String) (s : System) : Prop where
  stale : ∀ (j : ℕ) (task : Task) (fails : Bool), s.tasks[j]? = some task → task.phase = .scripting →
    s.store.holds (key digest task.call.resource) task.token = false →
    (s.step digest (.step j fails)).store = s.store
  single : ∀ resource token token', s.store.holds (key digest resource) token = true →
    s.store.holds (key digest resource) token' = true → token = token'
  granted : ∀ (j : ℕ) (task : Task), s.tasks[j]? = some task → task.granted = true →
    ∃ a, Leased digest s task a
  apart : ∀ (j j' : ℕ) (t t' : Task) (a b : ℕ), j ≠ j' → s.tasks[j]? = some t →
    s.tasks[j']? = some t' → t.granted = true → t'.granted = true →
    t.call.resource = t'.call.resource → t.taken = some a → t'.taken = some b → a ≤ b →
    a + t.call.ttlMs ≤ b ∨ Used s t.token ∨ a = b ∧ Used s t'.token
  overlap : ∀ (j j' : ℕ) (t t' : Task) (a b began began' : ℕ), j ≠ j' → s.tasks[j]? = some t →
    s.tasks[j']? = some t' → t.phase = .body began → t'.phase = .body began' →
    t.call.resource = t'.call.resource → t.taken = some a → t'.taken = some b → a ≤ b →
    a + t.call.ttlMs ≤ b ∧ b ≤ s.now

theorem step_stale {j : ℕ} (hj : s.tasks[j]? = some task) (hphase : task.phase = .scripting)
    (hstale : s.store.holds (key digest task.call.resource) task.token = false) :
    (s.step digest (.step j fails)).store = s.store := by
  rw [step_task hj]
  obtain ⟨call, token, phase, taken⟩ := task
  obtain rfl : phase = .scripting := hphase
  cases fails with
  | true => rfl
  | false =>
    cases call with
    | extend resource ttlMs =>
      simp only [advance, Bool.false_eq_true, if_false, script]
      split
      · exact Store.dropIf_stale hstale
      · exact Store.prolongIf_stale hstale
    | _ => exact Store.dropIf_stale hstale

theorem Inv.not_used {j : ℕ} {t : Task} (h : Inv digest s) (ht : s.tasks[j]? = some t)
    (hlock : t.call.isWithLock = true) : ¬ Used s t.token := by
  rintro ⟨u, hu, htok, hdraws⟩
  obtain ⟨i, hi⟩ := List.mem_iff_getElem?.mp hu
  have ht' := draws_of_isWithLock hlock
  by_cases hij : j = i
  · subst hij
    obtain rfl := Option.some.inj (ht.symm.trans hi)
    rw [ht'] at hdraws
    cases hdraws
  · exact h.tokens hij ht hi ht' (.inr hlock) htok.symm

/-- However the calls of any number of clients, the answers of their commands, the clock and the
expiry of keys interleave. -/
theorem locks_exclusive (digest : String → String) (events : List Event)
    (hf : FreshRun digest {} events) : Exclusive digest (System.run digest {} events) := by
  have h := (inv_init digest).run hf
  refine ⟨fun j task fails hj hphase hstale => step_stale hj hphase hstale, ?_,
    fun j task ht hg => h.leased ht hg, fun j j' t t' a b => h.apart, ?_⟩
  · intro resource token token' ht ht'
    obtain ⟨d, hd⟩ := Store.holds_iff.mp ht
    obtain ⟨d', hd'⟩ := Store.holds_iff.mp ht'
    exact congrArg Entry.value (Option.some.inj (hd.symm.trans hd'))
  · intro j j' t t' a b _ _ hne ht ht' hbody hbody' hres ha hb hab
    have hlock := h.body ht hbody
    have hlock' := h.body ht' hbody'
    have hgranted : t.granted = true := by
      simp [Task.granted, draws_of_isWithLock hlock, hbody, Phase.grants]
    have hgranted' : t'.granted = true := by
      simp [Task.granted, draws_of_isWithLock hlock', hbody', Phase.grants]
    obtain ⟨b₀, hl⟩ := h.leased ht' hgranted'
    obtain rfl := hl.eq hb
    refine ⟨?_, hl.since_le⟩
    rcases h.apart hne ht ht' hgranted hgranted' hres ha hb hab with hout | hused | ⟨-, hused⟩
    · exact hout
    · exact absurd hused (h.not_used ht hlock)
    · exact absurd hused (h.not_used ht' hlock')

/-- A second client takes the lock when the first one's TTL is over, and the first releases late. -/
def lateRelease : List Event :=
  let options : LockOptions := { ttlMs := 30 }
  [.call (.withLock "orders:1" options) "a", .step 0 false, .step 0 false, .pass 30 fun _ => true,
    .call (.withLock "orders:1" options) "b", .step 1 false, .step 1 false, .step 0 false]

theorem locks_exclusive_late :
    Exclusive (fun _ => "") (System.run (fun _ => "") {} lateRelease) :=
  locks_exclusive _ lateRelease (by decide)

/-- The answer to the first client comes when its TTL is over and the second one is at work: no TTL
expires during a body. -/
def lateAnswer : List Event :=
  let options : LockOptions := { ttlMs := 30 }
  [.call (.withLock "orders:1" options) "a", .step 0 false, .pass 30 fun _ => true,
    .call (.withLock "orders:1" options) "b", .step 1 false, .step 1 false, .pass 1 fun _ => false,
    .step 0 false]

theorem late_answer_overlaps :
    ¬ ∀ (digest : String → String) (events : List Event), FreshRun digest {} events →
      ∀ (j j' : ℕ) (t t' : Task) (a b began began' : ℕ), j ≠ j' →
        (System.run digest {} events).tasks[j]? = some t →
        (System.run digest {} events).tasks[j']? = some t' → t.phase = .body began →
        t'.phase = .body began' → t.call.resource = t'.call.resource → t.taken = some a →
        t'.taken = some b →
        (began ≤ a + t.call.ttlMs ∧ a + t.call.ttlMs ≤ (System.run digest {} events).now) ∨
          (began' ≤ b + t'.call.ttlMs ∧ b + t'.call.ttlMs ≤ (System.run digest {} events).now) := by
  intro h
  have hend := h (fun _ => "") lateAnswer (by decide) 0 1 _ _ 0 30 31 30 (by decide) rfl rfl rfl rfl rfl
    rfl rfl
  exact absurd hend (by decide)

end Safety

end ElectronicsCart.LockLeases
