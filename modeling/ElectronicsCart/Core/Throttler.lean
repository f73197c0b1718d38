import ElectronicsCart.Core.Environment
import ElectronicsCart.Lib.Marks
import ElectronicsCart.Lib.Volatile

/-!
# Throttle counters in Redis

`shared/throttling/redis-throttler.storage.ts`: a counter is created by `INCR` and gets its time to
live by a command of its own, which only the call that saw the value 1 sends.
-/

namespace ElectronicsCart.Throttler

open Interleaving Volatile

/-- What Redis does with a command beside its answer: the keys that it has found due and dropped
before, and whether the answer to an executed command was lost. -/
structure RedisReply where
  gone : String → Bool := fun _ => false
  lost : Bool := false

inductive Call where
  | ttl (key : String)
  | incr (key : String)
  | expire (key : String)
  | set (key : String)
deriving DecidableEq, Repr

/-- Hits by key; the entry of a block is 1. -/
abbrev Counters := Store String ℕ

abbrev ThrottleInput := Input RedisReply

abbrev ThrottleProg (α : Type) := Prog Call ThrottleInput Counters Failure α

structure ThrottlerStorageRecord where
  totalHits : ℕ
  timeToExpire : ℕ
  isBlocked : Bool
  timeToBlockExpire : ℕ
deriving DecidableEq, Repr

/-- The arguments of `increment`, times in milliseconds. -/
structure Increment where
  key : String
  ttl : ℕ
  limit : ℕ
  blockDuration : ℕ
deriving DecidableEq, Repr

/-- `Math.max(1, Math.ceil(ms / 1000))`. -/
def seconds (ms : ℕ) : ℕ := max 1 ((ms + 999) / 1000)

variable (keyPrefix : String)

def redisKey (key : String) : String := keyPrefix ++ "throttle:" ++ key

def blockKey (key : String) : String := redisKey keyPrefix key ++ ":block"

def found (i : ThrottleInput) (s : Counters) : Counters := s.lapse i.now i.reply.gone

def command {β : Type} (l : Call) (f : ℕ → Counters → β × Counters) : ThrottleProg β :=
  Prog.call l fun i s =>
    if i.fails then (.error .database, found i s)
    else
      let r := f i.now (found i s)
      (if i.reply.lost then .error .database else .ok r.1, r.2)

/-- `TTL`: seconds, −1 without a deadline, −2 without a key. -/
def ttl (key : String) : ThrottleProg ℤ :=
  command (.ttl key) fun now m =>
    match m key with
    | none => (-2, m)
    | some e =>
      match e.expiresAt with
      | none => (-1, m)
      | some d => (((d - now + 500) / 1000 : ℕ), m)

def incr (key : String) : ThrottleProg ℕ := command (.incr key) fun _ m => m.incr key

def expire (key : String) (ttlSec : ℕ) : ThrottleProg Unit :=
  command (.expire key) fun now m => ((), m.expire key (now + 1000 * ttlSec))

/-- `SET key 1 EX sec`. -/
def setBlock (key : String) (sec : ℕ) : ThrottleProg Unit :=
  command (.set key) fun now m => ((), m.put key 1 (some (now + 1000 * sec)))

/-! ### `RedisThrottlerStorage` -/

def report (c : Increment) (hits : ℕ) (timeToExpire : ℤ) : ThrottleProg ThrottlerStorageRecord :=
  if c.limit < hits then do
    setBlock (blockKey keyPrefix c.key) (seconds c.blockDuration)
    pure ⟨hits, timeToExpire.toNat, true, seconds c.blockDuration⟩
  else pure ⟨hits, timeToExpire.toNat, false, 0⟩

def measure (c : Increment) (hits : ℕ) : ThrottleProg ThrottlerStorageRecord := do
  let timeToExpire ← ttl (redisKey keyPrefix c.key)
  report keyPrefix c hits timeToExpire

def giveDeadline (c : Increment) (hits : ℕ) : ThrottleProg ThrottlerStorageRecord := do
  expire (redisKey keyPrefix c.key) (seconds c.ttl)
  measure keyPrefix c hits

def count (c : Increment) : ThrottleProg ThrottlerStorageRecord := do
  let hits ← incr (redisKey keyPrefix c.key)
  if hits = 1 then giveDeadline keyPrefix c hits else measure keyPrefix c hits

def incrementRedis (c : Increment) : ThrottleProg ThrottlerStorageRecord := do
  let blockedTtl ← ttl (blockKey keyPrefix c.key)
  if 0 < blockedTtl then pure ⟨c.limit + 1, seconds c.ttl, true, blockedTtl.toNat⟩
  else count keyPrefix c

/-- Fail-open. -/
def unblocked (c : Increment) : ThrottlerStorageRecord := ⟨1, seconds c.ttl, false, 0⟩

def increment (c : Increment) : ThrottleProg ThrottlerStorageRecord :=
  tryCatch (incrementRedis keyPrefix c) fun _ => pure (unblocked c)

/-! ### Counters and their deadlines -/

/-- The counters of `increment` calls that run side by side. -/
def calls (cs : List Increment) (s : Counters) :
    Pool Call ThrottleInput Counters Failure ThrottlerStorageRecord :=
  ⟨cs.map (increment keyPrefix), s⟩

/-- Every `EXPIRE` is executed, and the answer to an `INCR` that creates its counter arrives. -/
def DeadlinesGiven : Call → ThrottleInput → Counters → Prop
  | .expire _, i, _ => i.fails = false
  | .incr key, i, s => found i s key = none → i.reply.lost = false
  | _, _, _ => True

instance : (c : Call) → (i : ThrottleInput) → (s : Counters) → Decidable (DeadlinesGiven c i s)
  | .expire _, i, _ => inferInstanceAs (Decidable (i.fails = false))
  | .incr key, i, s => inferInstanceAs (Decidable (found i s key = none → i.reply.lost = false))
  | .ttl _, _, _ => .isTrue trivial
  | .set _, _, _ => .isTrue trivial

/-- Whoever leaves a counter without a deadline gives it one next. -/
def LeavesDue (key : String) (l : Call) (_ : ThrottleInput) (s s' : Counters)
    (next : Option Call) : Prop :=
  s'.Endless key → (s.Endless key ∧ l ≠ .expire key) ∨ next = some (.expire key)

variable {keyPrefix} {key : String} {i : ThrottleInput} {s : Counters}

theorem endless_found (h : (found i s).Endless key) : s.Endless key := Store.endless_of_lapse h

theorem follow_command {β : Type} {l : Call} {f : ℕ → Counters → β × Counters}
    {k : β → ThrottleProg ThrottlerStorageRecord} (hl : l ≠ .expire key)
    (hf : ∀ i s, DeadlinesGiven l i s → (f i.now (found i s)).2.Endless key →
      (found i s).Endless key ∨
        i.reply.lost = false ∧ (k (f i.now (found i s)).1).label? = some (.expire key))
    (hk : ∀ b, (k b).Follow DeadlinesGiven (LeavesDue key)) :
    ((command l f).bind k).Follow DeadlinesGiven (LeavesDue key) := by
  refine Prog.Follow.callBind fun i s ho => ?_
  cases hfails : i.fails with
  | true => exact fun he => .inl ⟨endless_found he, hl⟩
  | false =>
    have hdue := hf i s ho
    cases hlost : i.reply.lost with
    | true =>
      intro he
      rcases hdue he with he | ⟨hl', -⟩
      · exact .inl ⟨endless_found he, hl⟩
      · rw [hlost] at hl'
        cases hl'
    | false =>
      refine ⟨fun he => ?_, hk _⟩
      rcases hdue he with he | ⟨-, hn⟩
      · exact .inl ⟨endless_found he, hl⟩
      · exact .inr hn

theorem follow_expire {redisKey : String} {ttlSec : ℕ}
    {k : Unit → ThrottleProg ThrottlerStorageRecord}
    (hk : (k ()).Follow DeadlinesGiven (LeavesDue key)) :
    ((expire redisKey ttlSec).bind k).Follow DeadlinesGiven (LeavesDue key) := by
  by_cases hne : redisKey = key
  · refine Prog.Follow.callBind fun i s ho => ?_
    have hf : i.fails = false := ho
    have hgiven : ∀ {n}, LeavesDue key (.expire redisKey) i s
        ((found i s).expire redisKey (i.now + 1000 * ttlSec)) n := by
      intro n he
      rw [hne] at he
      exact absurd he Store.not_endless_expire
    simp only [hf, Bool.false_eq_true, if_false]
    cases hlost : i.reply.lost with
    | true => exact hgiven
    | false => exact ⟨hgiven, hk⟩
  · refine follow_command (fun h => hne (Call.expire.inj h)) (fun i s _ he => .inl ?_) fun _ => hk
    exact Store.expire_endless he

theorem follow_ttl {redisKey : String} {k : ℤ → ThrottleProg ThrottlerStorageRecord}
    (hk : ∀ t, (k t).Follow DeadlinesGiven (LeavesDue key)) :
    ((ttl redisKey).bind k).Follow DeadlinesGiven (LeavesDue key) := by
  refine follow_command (by simp) (fun i s _ he => .inl ?_) hk
  cases hm : found i s redisKey with
  | none => simpa only [hm] using he
  | some e =>
    cases hd : e.expiresAt with
    | none => simpa only [hm, hd] using he
    | some d => simpa only [hm, hd] using he

theorem follow_setBlock {redisKey : String} {sec : ℕ}
    {k : Unit → ThrottleProg ThrottlerStorageRecord}
    (hk : (k ()).Follow DeadlinesGiven (LeavesDue key)) :
    ((setBlock redisKey sec).bind k).Follow DeadlinesGiven (LeavesDue key) := by
  exact follow_command (by simp) (fun i s _ he => .inl (Store.put_until_endless he)) fun _ => hk

theorem follow_measure (c : Increment) (hits : ℕ) :
    (measure keyPrefix c hits).Follow DeadlinesGiven (LeavesDue key) := by
  refine follow_ttl fun timeToExpire => ?_
  unfold report
  split
  · exact follow_setBlock trivial
  · trivial

theorem follow_count (c : Increment) :
    (count keyPrefix c).Follow DeadlinesGiven (LeavesDue key) := by
  change ((incr (redisKey keyPrefix c.key)).bind _).Follow _ _
  have hl : Call.incr (redisKey keyPrefix c.key) ≠ .expire key := by simp
  refine follow_command hl ?_ fun hits => ?_
  · intro i s ho he
    by_cases hne : redisKey keyPrefix c.key = key
    · rw [hne] at he ho
      rcases Store.incr_endless he with he | ⟨hnew, hone⟩
      · exact .inl he
      · refine .inr ⟨ho hnew, ?_⟩
        rw [hne, if_pos hone, ← hne]
        rfl
    · refine .inl ?_
      unfold Store.incr at he
      cases hm : found i s (redisKey keyPrefix c.key) with
      | none =>
        simp only [hm] at he
        exact (Store.put_endless hne).mp he
      | some e =>
        simp only [hm] at he
        exact (Store.put_endless hne).mp he
  · split
    · exact follow_expire (follow_measure c hits)
    · exact follow_measure c hits

theorem follow_increment (c : Increment) :
    (increment keyPrefix c).Follow DeadlinesGiven (LeavesDue key) := by
  refine Prog.Follow.recover (fun _ => ⟨_, rfl⟩) (follow_ttl fun blockedTtl => ?_)
  split
  · trivial
  · exact follow_count c

/-- An entry without a deadline is about to get one. -/
def Due (key : String) (s : Counters) (next : ℕ → Option Call) : Prop :=
  s.Endless key → ∃ j, next j = some (.expire key)

theorem due_step {s' : Counters} {next : ℕ → Option Call} {j : ℕ} {l : Call} {n : Option Call}
    (h : Due key s next) (hl : next j = some l) (hleaves : LeavesDue key l i s s' n) :
    Due key s' (Function.update next j n) := by
  intro he
  rcases hleaves he with ⟨he, hne⟩ | rfl
  · obtain ⟨j', hj'⟩ := h he
    have hjj : j' ≠ j := by
      rintro rfl
      exact hne (Option.some.inj (hl.symm.trans hj'))
    exact ⟨j', by rw [Function.update_of_ne hjj, hj']⟩
  · exact ⟨j, Function.update_self ..⟩

/-- Whatever the calls, their keys and their order: a counter without a deadline has a call in
progress whose next command gives it one. -/
theorem counters_expire (cs : List Increment) (start : Counters)
    (hstart : ∀ key, ¬ start.Endless key) (sched : List (ℕ × ThrottleInput))
    (hs : (calls keyPrefix cs start).Admits DeadlinesGiven sched) :
    (∀ key, ((calls keyPrefix cs start).run sched).state.Endless key →
      ∃ j, ((calls keyPrefix cs start).run sched).label? j = some (.expire key)) ∧
    (((calls keyPrefix cs start).run sched).quiescent = true →
      ∀ key e, ((calls keyPrefix cs start).run sched).state key = some e →
        e.expiresAt.isSome = true) := by
  have hdue : ∀ key, Due key ((calls keyPrefix cs start).run sched).state
      ((calls keyPrefix cs start).run sched).label? := by
    intro key
    have hfollow : ∀ t ∈ (calls keyPrefix cs start).threads,
        t.Follow DeadlinesGiven (LeavesDue key) := by
      intro t ht
      obtain ⟨c, -, rfl⟩ := List.mem_map.mp ht
      exact follow_increment c
    exact (Pool.follow_run (Due key) (fun hd hl _ hψ => due_step hd hl hψ) hfollow
      (fun he => absurd he (hstart key)) hs).1
  refine ⟨hdue, fun hq key e he => ?_⟩
  cases hd : e.expiresAt with
  | some d => rfl
  | none =>
    have hendless : ((calls keyPrefix cs start).run sched).state.Endless key :=
      ⟨e.value, by rw [he, ← hd]⟩
    obtain ⟨j, hj⟩ := hdue key hendless
    rw [Pool.label?_of_quiescent hq j] at hj
    cases hj

/-- Two first hits side by side; the `TTL` of the one that created the counter fails. -/
def firstHits : List (ℕ × ThrottleInput) :=
  [(0, { reply := {} }), (1, { reply := {} }), (0, { reply := {} }), (1, { reply := {} }),
    (1, { reply := {} }), (0, { now := 5, reply := {} }), (0, { fails := true, reply := {} })]

def perMinute (key : String) : Increment := ⟨key, 60000, 100, 60000⟩

theorem counters_expire_hits :
    (∀ key, ((calls "ec:" [perMinute "ip", perMinute "ip"] fun _ => none).run
        firstHits).state.Endless key →
      ∃ j, ((calls "ec:" [perMinute "ip", perMinute "ip"] fun _ => none).run firstHits).label? j =
        some (.expire key)) ∧
    (((calls "ec:" [perMinute "ip", perMinute "ip"] fun _ => none).run firstHits).quiescent = true →
      ∀ key e, ((calls "ec:" [perMinute "ip", perMinute "ip"] fun _ => none).run firstHits).state key =
        some e → e.expiresAt.isSome = true) :=
  counters_expire _ _ (fun _ ⟨_, h⟩ => by cases h) _ (by decide +kernel)

/-- The one command that fails is the `EXPIRE`: the call ends and its counter stays for good. -/
theorem counter_orphaned :
    ((calls "ec:" [perMinute "ip"] fun _ => none).run
        [(0, { reply := {} }), (0, { reply := {} }), (0, { fails := true, reply := {} })]).quiescent =
      true ∧
    ((calls "ec:" [perMinute "ip"] fun _ => none).run
        [(0, { reply := {} }), (0, { reply := {} }),
          (0, { fails := true, reply := {} })]).state (redisKey "ec:" "ip") = some ⟨1, none⟩ := by
  decide +kernel

end ElectronicsCart.Throttler
