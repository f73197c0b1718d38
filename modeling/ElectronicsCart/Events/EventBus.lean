import Mathlib.Data.List.Induction
import Mathlib.Algebra.Order.Group.Multiset
import Mathlib.Data.Multiset.AddSub

/-!
# The event bus

`EventBus` of `shared/events/event-bus.ts`.  `subscribe` registers a new function around the handler
and `unsubscribe` asks the emitter to remove the handler itself, which was never registered.  So
nothing is ever removed, and a publish reaches the right handlers as long as no `unsubscribe` was
meant to end a subscription.  The emitter is a parameter, with what its documentation says.
-/

namespace ElectronicsCart.Events

/-! ### The emitter -/

/-- How a call of a function ends; `done` also when what it returns is fulfilled later. -/
inductive Outcome (ε : Type) where
  | done
  | throws (err : ε)
  | rejects (err : ε)

/-- What `emitAsync` has done when it ends: the functions it called, and what it rejects with. -/
structure Emission (L ε : Type) where
  called : List L
  failure : Option ε

/-- `EventEmitter2` without wildcards, as far as the bus relies on it: each name has its listeners in
the order in which they were added, `off` removes one that is identical to the function it is given,
and `emitAsync` calls the listeners of the name; the event `error` must have one. -/
structure EventEmitter (L ε : Type) [DecidableEq L] where
  State : Type
  init : State
  on : String → L → State → State
  off : String → L → State → State
  listeners : String → State → List L
  /-- how each listener ends when it is called -/
  emitAsync : String → (L → Outcome ε) → State → Emission L ε
  /-- `Uncaught, unspecified 'error' event.` -/
  unhandled : ε
  listeners_init : ∀ name, listeners name init = []
  listeners_on : ∀ name name' l s,
    listeners name (on name' l s) = listeners name s ++ if name' = name then [l] else []
  listeners_off : ∀ name l s, (listeners name (off name l s)).Perm ((listeners name s).erase l)
  listeners_off_ne : ∀ name name' l s, name' ≠ name →
    listeners name (off name' l s) = listeners name s
  emitAsync_done : ∀ name answer s, (name = "error" → listeners name s ≠ []) →
    (∀ l ∈ listeners name s, answer l = .done) → emitAsync name answer s = ⟨listeners name s, none⟩
  emitAsync_error : ∀ answer s, listeners "error" s = [] →
    emitAsync "error" answer s = ⟨[], some unhandled⟩

/-- A function, as the emitter tells them apart. -/
inductive Listener (H : Type) where
  /-- the handler itself -/
  | given (h : H)
  /-- the function that the `n`th call of `subscribe` made -/
  | wrapper (n : ℕ) (h : H)
deriving DecidableEq

structure DomainEvent where
  eventName : String
  eventId : String
deriving DecidableEq, Repr

/-! ### The bus -/

section Bus

variable {H ε : Type} [DecidableEq H] (E : EventEmitter (Listener H) ε)

structure EventBus where
  emitter : E.State
  /-- the functions that `subscribe` has made so far -/
  made : ℕ

def EventBus.init : EventBus E := ⟨E.init, 0⟩

variable {E}

def EventBus.subscribe (eventName : String) (handler : H) (b : EventBus E) : EventBus E :=
  ⟨E.on eventName (.wrapper b.made handler) b.emitter, b.made + 1⟩

def EventBus.unsubscribe (eventName : String) (handler : H) (b : EventBus E) : EventBus E :=
  { b with emitter := E.off eventName (.given handler) b.emitter }

/-- A function of `subscribe` returns at once. -/
def Listener.answer (behave : H → Outcome ε) : Listener H → Outcome ε
  | given h => behave h
  | wrapper _ _ => .done

/-- The handler that the emitter itself calls. -/
def Listener.direct? : Listener H → Option H
  | given h => some h
  | wrapper _ _ => none

/-- The handler that a function of `subscribe` calls later. -/
def Listener.scheduled? : Listener H → Option H
  | given _ => none
  | wrapper _ h => some h

/-- The handlers that were called, what was reported to the dead letter handler, and what the promise
of `publish` rejects with. -/
structure Delivery (H ε : Type) where
  invoked : List H := []
  deadLetters : List (DomainEvent × ε) := []
  rejected : Option ε := none

/-- The scheduled calls, each with a `catch` of its own. -/
def settle (event : DomainEvent) (behave : H → Outcome ε) : List H → Delivery H ε
  | [] => {}
  | h :: rest =>
    let d := settle event behave rest
    match behave h with
    | .done => { d with invoked := h :: d.invoked }
    | .throws err => { d with invoked := h :: d.invoked, deadLetters := (event, err) :: d.deadLetters }
    | .rejects err => { d with invoked := h :: d.invoked, deadLetters := (event, err) :: d.deadLetters }

def EventBus.publish (event : DomainEvent) (behave : H → Outcome ε) (b : EventBus E) :
    Delivery H ε :=
  let e := E.emitAsync event.eventName (Listener.answer behave) b.emitter
  let d := settle event behave (e.called.filterMap Listener.scheduled?)
  { invoked := e.called.filterMap Listener.direct? ++ d.invoked
    deadLetters := e.failure.toList.map (event, ·) ++ d.deadLetters
    rejected := e.failure }

/-! ### Sequences of calls -/

inductive BusCall (H : Type) where
  | subscribe (eventName : String) (handler : H)
  | unsubscribe (eventName : String) (handler : H)
deriving DecidableEq

def BusCall.apply (b : EventBus E) : BusCall H → EventBus E
  | subscribe eventName handler => b.subscribe eventName handler
  | unsubscribe eventName handler => b.unsubscribe eventName handler

def EventBus.run (calls : List (BusCall H)) : EventBus E := calls.foldl BusCall.apply (.init E)

/-! ### What subscriptions are for -/

/-- The subscriptions to a name after one more call: an `unsubscribe` ends one of its handler. -/
def subscribedBy (name : String) (m : Multiset H) : BusCall H → Multiset H
  | .subscribe eventName handler => if eventName = name then handler ::ₘ m else m
  | .unsubscribe eventName handler => if eventName = name then m.erase handler else m

def subscribed (name : String) (calls : List (BusCall H)) : Multiset H :=
  calls.foldl (subscribedBy name) 0

def Outcome.error? : Outcome ε → Option ε
  | done => none
  | throws err => some err
  | rejects err => some err

/-- The handlers invoked are those subscribed, and each failure of one of them is reported; besides
these only what the emitter itself rejects with. -/
structure Delivers (name : String) (calls : List (BusCall H)) (event : DomainEvent)
    (behave : H → Outcome ε) (d : Delivery H ε) : Prop where
  invoked : (d.invoked : Multiset H) = subscribed name calls
  deadLetters : d.deadLetters = d.rejected.toList.map (event, ·) ++
    d.invoked.filterMap fun h => (behave h).error?.map (event, ·)

/-- Some `unsubscribe` of the name meets a subscription of its handler. -/
def Ends (name : String) (calls : List (BusCall H)) : Prop :=
  ∃ pre handler post, calls = pre ++ .unsubscribe name handler :: post ∧
    handler ∈ subscribed name pre

/-! ### What the bus does -/

/-- The handlers that a name has registered: `unsubscribe` takes none away. -/
def registeredBy (name : String) (m : Multiset H) : BusCall H → Multiset H
  | .subscribe eventName handler => if eventName = name then handler ::ₘ m else m
  | .unsubscribe _ _ => m

def registered (name : String) (calls : List (BusCall H)) : Multiset H :=
  calls.foldl (registeredBy name) 0

theorem run_concat (calls : List (BusCall H)) (c : BusCall H) :
    EventBus.run (calls ++ [c]) = c.apply (EventBus.run calls : EventBus E) := by
  rw [EventBus.run, List.foldl_append]
  rfl

theorem subscribed_concat (name : String) (calls : List (BusCall H)) (c : BusCall H) :
    subscribed name (calls ++ [c]) = subscribedBy name (subscribed name calls) c := by
  rw [subscribed, List.foldl_append]
  rfl

omit [DecidableEq H] in
theorem registered_concat (name : String) (calls : List (BusCall H)) (c : BusCall H) :
    registered name (calls ++ [c]) = registeredBy name (registered name calls) c := by
  rw [registered, List.foldl_append]
  rfl

def Listener.handler : Listener H → H
  | given h => h
  | wrapper _ h => h

/-- Listeners that are wrappers around the given handlers. -/
structure Wrap (m : Multiset H) (ls : List (Listener H)) : Prop where
  wrappers : ∀ l ∈ ls, ∃ n, l = .wrapper n l.handler
  handlers : ((ls.map Listener.handler : List H) : Multiset H) = m

omit [DecidableEq H] in
theorem Wrap.perm {m : Multiset H} {ls ls' : List (Listener H)} (h : Wrap m ls)
    (hp : ls'.Perm ls) : Wrap m ls' := by
  constructor
  · exact fun l hl => h.wrappers l (hp.mem_iff.mp hl)
  · rw [Multiset.coe_eq_coe.mpr (hp.map Listener.handler), h.handlers]

omit [DecidableEq H] in
theorem Wrap.given_notMem {m : Multiset H} {ls : List (Listener H)} (h : Wrap m ls) (handler : H) :
    Listener.given handler ∉ ls := by
  intro hmem
  obtain ⟨n, hn⟩ := h.wrappers _ hmem
  cases hn

theorem wrap_run (name : String) (calls : List (BusCall H)) :
    Wrap (registered name calls) (E.listeners name (EventBus.run calls : EventBus E).emitter) := by
  induction calls using List.reverseRecOn with
  | nil =>
    have hinit : E.listeners name (EventBus.run [] : EventBus E).emitter = [] := E.listeners_init name
    rw [hinit]
    exact ⟨fun l hl => absurd hl List.not_mem_nil, rfl⟩
  | append_singleton calls c ih =>
    rw [run_concat, registered_concat]
    cases c with
    | subscribe eventName handler =>
      simp only [BusCall.apply, EventBus.subscribe, E.listeners_on, registeredBy]
      split
      · constructor
        · intro l hl
          rcases List.mem_append.mp hl with hl | hl
          · exact ih.wrappers l hl
          · obtain rfl := List.mem_singleton.mp hl
            exact ⟨_, rfl⟩
        · rw [List.map_append, ← Multiset.coe_add, ih.handlers, add_comm]
          rfl
      · rw [List.append_nil]
        exact ih
    | unsubscribe eventName handler =>
      simp only [BusCall.apply, EventBus.unsubscribe, registeredBy]
      by_cases hname : eventName = name
      · subst hname
        have hperm := E.listeners_off eventName (.given handler) (EventBus.run calls).emitter
        rw [List.erase_of_not_mem (ih.given_notMem handler)] at hperm
        exact ih.perm hperm
      · rw [E.listeners_off_ne _ _ _ _ hname]
        exact ih

/-! ### A publish -/

/-- The emitter calls the functions around the handlers, or has none to call. -/
theorem emission_wrap (name : String) (behave : H → Outcome ε) {m : Multiset H} {s : E.State}
    (h : Wrap m (E.listeners name s)) :
    ∃ failure, E.emitAsync name (Listener.answer behave) s = ⟨E.listeners name s, failure⟩ ∧
      (failure = none ↔ (name = "error" → m ≠ 0)) := by
  have hzero : E.listeners name s = [] ↔ m = 0 := by
    rw [← h.handlers, Multiset.coe_eq_zero, List.map_eq_nil_iff]
  by_cases herror : name = "error" ∧ m = 0
  · obtain ⟨rfl, rfl⟩ := herror
    have hnone := hzero.mpr rfl
    refine ⟨some E.unhandled, ?_, by simp⟩
    rw [E.emitAsync_error _ _ hnone, hnone]
  · have hsome : name = "error" → m ≠ 0 := not_and.mp herror
    refine ⟨none, ?_, iff_of_true rfl hsome⟩
    refine E.emitAsync_done _ _ _ (fun hname hnil => hsome hname (hzero.mp hnil)) fun l hl => ?_
    obtain ⟨n, hn⟩ := h.wrappers l hl
    rw [hn]
    rfl

omit [DecidableEq H] in
theorem scheduled_wrap {m : Multiset H} {ls : List (Listener H)} (h : Wrap m ls) :
    ls.filterMap Listener.scheduled? = ls.map Listener.handler ∧ ls.filterMap Listener.direct? = [] := by
  have hw := h.wrappers
  clear h
  induction ls with
  | nil => exact ⟨rfl, rfl⟩
  | cons l ls ih =>
    obtain ⟨n, hn⟩ := hw l (List.mem_cons_self ..)
    obtain ⟨hscheduled, hdirect⟩ := ih fun l' hl' => hw l' (List.mem_cons_of_mem l hl')
    rw [hn]
    exact ⟨congrArg (l.handler :: ·) hscheduled, hdirect⟩

omit [DecidableEq H] in
theorem settle_spec (event : DomainEvent) (behave : H → Outcome ε) (hs : List H) :
    settle event behave hs =
      { invoked := hs
        deadLetters := hs.filterMap fun h => (behave h).error?.map (event, ·) } := by
  induction hs with
  | nil => rfl
  | cons h hs ih =>
    rw [settle, ih, List.filterMap_cons]
    cases behave h <;> rfl

theorem publish_spec (event : DomainEvent) (behave : H → Outcome ε) (calls : List (BusCall H)) :
    ∃ (hs : List H) (failure : Option ε), (hs : Multiset H) = registered event.eventName calls ∧
      (failure = none ↔ (event.eventName = "error" → registered event.eventName calls ≠ 0)) ∧
      (EventBus.run calls : EventBus E).publish event behave =
        { invoked := hs
          deadLetters := failure.toList.map (event, ·) ++
            hs.filterMap fun h => (behave h).error?.map (event, ·)
          rejected := failure } := by
  have hwrap := @wrap_run H ε _ E event.eventName calls
  obtain ⟨failure, hemission, hfailure⟩ := emission_wrap event.eventName behave hwrap
  obtain ⟨hscheduled, hdirect⟩ := scheduled_wrap hwrap
  refine ⟨_, failure, hwrap.handlers, hfailure, ?_⟩
  simp only [EventBus.publish, hemission, hscheduled, hdirect, settle_spec, List.nil_append]

/-! ### When the subscriptions are kept -/

theorem subscribed_le_registered (name : String) (calls : List (BusCall H)) :
    subscribed name calls ≤ registered name calls := by
  induction calls using List.reverseRecOn with
  | nil => exact le_rfl
  | append_singleton calls c ih =>
    rw [subscribed_concat, registered_concat]
    cases c with
    | subscribe eventName handler =>
      simp only [subscribedBy, registeredBy]
      split
      · exact Multiset.cons_le_cons _ ih
      · exact ih
    | unsubscribe eventName handler =>
      simp only [subscribedBy, registeredBy]
      split
      · exact (Multiset.erase_le _ _).trans ih
      · exact ih

theorem ends_concat (name : String) (calls : List (BusCall H)) (c : BusCall H) :
    Ends name (calls ++ [c]) ↔
      Ends name calls ∨ ∃ handler, c = .unsubscribe name handler ∧ handler ∈ subscribed name calls := by
  constructor
  · rintro ⟨pre, handler, post, h, hmem⟩
    rcases List.eq_nil_or_concat post with rfl | ⟨post, c', rfl⟩
    · obtain ⟨rfl, hc⟩ := List.append_inj' h rfl
      exact .inr ⟨handler, List.singleton_inj.mp hc, hmem⟩
    · rw [List.concat_eq_append, ← List.cons_append, ← List.append_assoc] at h
      exact .inl ⟨pre, handler, post, (List.append_inj' h rfl).1, hmem⟩
  · rintro (⟨pre, handler, post, rfl, hmem⟩ | ⟨handler, rfl, hmem⟩)
    · exact ⟨pre, handler, post ++ [c], by simp, hmem⟩
    · exact ⟨calls, handler, [], rfl, hmem⟩

theorem registered_eq_iff (name : String) (calls : List (BusCall H)) :
    registered name calls = subscribed name calls ↔ ¬ Ends name calls := by
  induction calls using List.reverseRecOn with
  | nil =>
    refine iff_of_true rfl ?_
    rintro ⟨pre, handler, post, h, -⟩
    simp at h
  | append_singleton calls c ih =>
    rw [subscribed_concat, registered_concat, ends_concat, not_or, ← ih]
    cases c with
    | subscribe eventName handler =>
      rw [and_iff_left (by rintro ⟨_, hc, -⟩; cases hc)]
      simp only [subscribedBy, registeredBy]
      split
      · exact Multiset.cons_inj_right _
      · exact Iff.rfl
    | unsubscribe eventName handler =>
      simp only [subscribedBy, registeredBy, BusCall.unsubscribe.injEq]
      by_cases hname : eventName = name
      · rw [if_pos hname]
        by_cases hmem : handler ∈ subscribed name calls
        · refine iff_of_false ?_ fun h => h.2 ⟨handler, ⟨hname, rfl⟩, hmem⟩
          intro heq
          have hlt : (subscribed name calls).erase handler < subscribed name calls :=
            Multiset.erase_lt.mpr hmem
          exact absurd (subscribed_le_registered name calls) (heq ▸ not_le_of_gt hlt)
        · rw [Multiset.erase_of_notMem hmem, and_iff_left]
          rintro ⟨h, ⟨-, rfl⟩, hh⟩
          exact hmem hh
      · rw [if_neg hname, and_iff_left]
        rintro ⟨h, ⟨hn, -⟩, -⟩
        exact hname hn

/-- A publish reaches the handlers that are subscribed, and reports those that fail, exactly when no
`unsubscribe` of the name was meant to end a subscription; its promise is fulfilled unless the event is
`error` and nothing was ever subscribed to it. -/
theorem delivers_iff (E : EventEmitter (Listener H) ε) (calls : List (BusCall H)) (event : DomainEvent)
    (behave : H → Outcome ε) :
    (Delivers event.eventName calls event behave
        ((EventBus.run calls : EventBus E).publish event behave) ↔
      ¬ Ends event.eventName calls) ∧
    (((EventBus.run calls : EventBus E).publish event behave).rejected = none ↔
      (event.eventName = "error" → registered event.eventName calls ≠ 0)) := by
  obtain ⟨hs, failure, hregistered, hfailure, hpublish⟩ := @publish_spec H ε _ E event behave calls
  rw [hpublish]
  refine ⟨?_, hfailure⟩
  rw [← registered_eq_iff, ← hregistered]
  constructor
  · intro h
    exact h.invoked
  · intro h
    exact ⟨h, rfl⟩

end Bus

/-! ### A run -/

/-- The listeners one after another: one that throws ends the loop. -/
def callEach {L ε : Type} (answer : L → Outcome ε) : List L → Emission L ε
  | [] => ⟨[], none⟩
  | l :: rest =>
    match answer l with
    | .throws err => ⟨[l], some err⟩
    | .done => { callEach answer rest with called := l :: (callEach answer rest).called }
    | .rejects err => ⟨l :: (callEach answer rest).called, some err⟩

theorem callEach_done {L ε : Type} {answer : L → Outcome ε} {ls : List L}
    (h : ∀ l ∈ ls, answer l = .done) : callEach answer ls = ⟨ls, none⟩ := by
  induction ls with
  | nil => rfl
  | cons l ls ih =>
    obtain ⟨hl, hls⟩ := List.forall_mem_cons.mp h
    rw [callEach, hl, ih hls]

def listEmitter (L : Type) [DecidableEq L] : EventEmitter L String where
  State := List (String × L)
  init := []
  on name l s := s ++ [(name, l)]
  off name l s := s.erase (name, l)
  listeners name s := (s.filter fun e => e.1 = name).map Prod.snd
  emitAsync name answer s :=
    let ls := (s.filter fun e => e.1 = name).map Prod.snd
    if name = "error" ∧ ls = [] then ⟨[], some "Uncaught, unspecified 'error' event."⟩
    else callEach answer ls
  unhandled := "Uncaught, unspecified 'error' event."
  listeners_init _ := rfl
  listeners_on name name' l s := by
    rw [List.filter_append, List.map_append]
    by_cases h : name' = name <;> simp [h]
  listeners_off name l s := by
    induction s with
    | nil => exact List.Perm.refl _
    | cons e s ih =>
      obtain ⟨n, l'⟩ := e
      by_cases hn : n = name
      · by_cases hl : l' = l
        · simp [hn, hl]
        · have hne : ((n, l') == (name, l)) = false := by simp [hl]
          rw [List.erase_cons_tail (by simp [hne])]
          simpa [hn, List.erase_cons_tail, hl] using ih
      · rw [List.erase_cons_tail (by simp [hn])]
        simpa [hn] using ih
  listeners_off_ne name name' l s h := by
    induction s with
    | nil => rfl
    | cons e s ih =>
      obtain ⟨n, l'⟩ := e
      by_cases he : (n, l') = (name', l)
      · obtain ⟨rfl, rfl⟩ := Prod.mk.inj he
        simp [h]
      · rw [List.erase_cons_tail (by simpa using he), List.filter_cons, List.filter_cons]
        split
        · rw [List.map_cons, List.map_cons, ih]
        · exact ih

  emitAsync_done name answer s h hdone := by
    rw [if_neg fun hnil => h hnil.1 hnil.2]
    exact callEach_done hdone
  emitAsync_error answer s h := if_pos ⟨rfl, h⟩

def endedCalls : List (BusCall String) :=
  [.subscribe "order.placed" "mail", .unsubscribe "order.placed" "mail"]

/-- It is called all the same. -/
theorem ended_still_called :
    subscribed "order.placed" endedCalls = 0 ∧
      ((EventBus.run endedCalls : EventBus (listEmitter (Listener String))).publish
        ⟨"order.placed", "e1"⟩ fun _ => (.done : Outcome String)).invoked = ["mail"] := by
  decide

end ElectronicsCart.Events
