import ElectronicsCart.Core.Idempotency
import ElectronicsCart.Lib.Marks
import Mathlib.Data.List.Basic

/-!
# Requests that share an idempotency key

The points of a guarded request, and what its moves between them do to the record of its key.  The
request that has claimed the key is at work from then on until the record is completed or cleared,
and it is the only one.
-/

namespace ElectronicsCart.Idempotency

open Interleaving Volatile IdempotencyService IdempotencyInterceptor

variable {β : Type}

/-- Where a guarded request is; `clearing` is the call that a failed one leaves behind. -/
inductive Stage (β : Type) where
  | arriving (r : Request)
  | claiming (r : Request)
  | lost (r : Request)
  | running (r : Request)
  | completing (r : Request) (response : Response β)
  | failed (r : Request) (e : Failure)
  | clearing (r : Request)
  | cleared (r : Request)
  | ended (r : Request) (result : Except Failure (Response β))

def Stage.request : Stage β → Request
  | .arriving r => r
  | .claiming r => r
  | .lost r => r
  | .running r => r
  | .completing r _ => r
  | .failed r _ => r
  | .clearing r => r
  | .cleared r => r
  | .ended r _ => r

/-- The request has claimed the key and not settled its record. -/
def Stage.owner? : Stage β → Option Request
  | .running r => some r
  | .completing r _ => some r
  | .failed r _ => some r
  | .clearing r => some r
  | _ => none

/-- The handler of the request has not succeeded. -/
def Stage.unanswered : Stage β → Bool
  | .running _ => true
  | .failed _ _ => true
  | .clearing _ => true
  | _ => false

theorem Stage.owner_of_unanswered {t : Stage β} (h : t.unanswered = true) :
    t.owner?.isSome = true := by
  cases t <;> first | rfl | cases h

def Stage.reads (r : Request) : Stage β → Prop
  | .arriving r' => r' = r
  | .lost r' => r' = r
  | _ => False

/-- The errors of a request that does not get to the handler. -/
def rejections : List Failure := [keyConflict, inProgress, keyLength]

def RedisAnswers : Call → Input (Except Failure (Response β)) → Server β → Prop
  | .handle _, _, _ => True
  | _, i, _ => i.fails = false

instance : (c : Call) → (i : Input (Except Failure (Response β))) → (s : Server β) →
    Decidable (RedisAnswers c i s)
  | .handle _, _, _ => .isTrue trivial
  | .get _, i, _ => inferInstanceAs (Decidable (i.fails = false))
  | .begin _, i, _ => inferInstanceAs (Decidable (i.fails = false))
  | .complete _, i, _ => inferInstanceAs (Decidable (i.fails = false))
  | .clear _, i, _ => inferInstanceAs (Decidable (i.fails = false))

section Moves

variable (sha256 : String → String) (options : IdempotentOptions) (k : String)

def Stage.prog : Stage β → RequestProg β (Response β)
  | .arriving r => (lookUp k (requestFingerprint sha256 r) options.ttlSeconds).bind (respond sha256 r)
  | .claiming r => (claim k (requestFingerprint sha256 r) options.ttlSeconds).bind (respond sha256 r)
  | .lost r => (reread k (requestFingerprint sha256 r)).bind (respond sha256 r)
  | .running r => (handle (requestFingerprint sha256 r)).attempt.bind
      (finish k (requestFingerprint sha256 r) options.ttlSeconds)
  | .completing r response => finish k (requestFingerprint sha256 r) options.ttlSeconds (.ok response)
  | .failed r e => finish k (requestFingerprint sha256 r) options.ttlSeconds (.error e)
  | .clearing _ => (clear k).discard
  | .cleared _ => .halt
  | .ended _ result => .done result

def IdempotencyRecord.response (record : IdempotencyRecord β) : Response β :=
  ⟨orOk (orOk record.statusCode), record.body, orOk_ne _⟩

inductive Move : Server β → Stage β → Server β → Stage β → List (Stage β) → Prop
  | reject {s t r e} : t.reads r → e ∈ rejections → Move s t s (.ended r (.error e)) []
  | replay {s t r record d} : t.reads r → s.records k = some ⟨record, d⟩ →
      record.status = .completed → record.fingerprint = requestFingerprint sha256 r →
      Move s t s (.ended r (.ok record.response)) []
  | miss {s r} : Move s (.arriving r) s (.claiming r) []
  | lose {s r} : Move s (.claiming r) s (.lost r) []
  | claim {s r d} : s.records k = none →
      Move s (.claiming r) { s with
        records := s.records.put k ⟨.processing, requestFingerprint sha256 r, 0, none⟩ d } (.running r) []
  | succeed {s r response} : Move s (.running r)
      { s with handled := ⟨requestFingerprint sha256 r, .ok response⟩ :: s.handled }
      (.completing r response) []
  | fail {s r e} : Move s (.running r)
      { s with handled := ⟨requestFingerprint sha256 r, .error e⟩ :: s.handled } (.failed r e) []
  | complete {s r d} {response : Response β} : Move s (.completing r response) { s with
      records := s.records.put k
        ⟨.completed, requestFingerprint sha256 r, orOk response.statusCode, response.body⟩ d }
      (.ended r (.ok response)) []
  | release {s r e} : Move s (.failed r e) s (.ended r (.error e)) [.clearing r]
  | clear {s r} : Move s (.clearing r) { s with records := s.records.drop k } (.cleared r) []

theorem staged : Staged (RedisAnswers (β := β)) (Stage.prog sha256 options k) (Move sha256 k) := by
  intro t
  cases t with
  | arriving r =>
    rw [Stage.prog, lookUp, Prog.bind_eq, Prog.bind_assoc]
    refine leads_callBind fun i s ho => ?_
    have hf : i.fails = false := ho
    simp only [hf, Bool.false_eq_true, if_false, Prog.done_ok_bind]
    cases hk : s.records k with
    | none => exact ⟨.claiming r, rfl, .miss⟩
    | some entry =>
      simp only [Option.map_some, recorded]
      split
      · exact ⟨.ended r (.error keyConflict), rfl, .reject rfl (by simp [rejections])⟩
      next hfp =>
        split
        · exact ⟨.ended r (.error inProgress), rfl, .reject rfl (by simp [rejections])⟩
        next hst =>
          have hcompleted : entry.value.status = .completed := by
            cases h : entry.value.status with
            | processing => exact absurd h hst
            | completed => rfl
          exact ⟨.ended r (.ok entry.value.response), rfl,
            .replay rfl hk hcompleted (not_not.mp hfp)⟩
  | claiming r =>
    rw [Stage.prog, claim, Prog.bind_eq, Prog.bind_assoc]
    refine leads_callBind fun i s ho => ?_
    have hf : i.fails = false := ho
    simp only [hf, Bool.false_eq_true, if_false, settle]
    rcases @Store.setNX_cases _ (IdempotencyRecord β) _ s.records k
      ⟨.processing, requestFingerprint sha256 r, 0, none⟩ (some (i.now + options.ttlSeconds))
      with ⟨hfree, ht⟩ | ⟨-, ht⟩
    · rw [ht]
      exact ⟨.running r, rfl, .claim hfree⟩
    · rw [ht]
      exact ⟨.lost r, rfl, .lose⟩
  | lost r =>
    rw [Stage.prog, reread, Prog.bind_eq, Prog.bind_assoc]
    refine leads_callBind fun i s ho => ?_
    have hf : i.fails = false := ho
    simp only [hf, Bool.false_eq_true, if_false, Prog.done_ok_bind]
    cases hk : s.records k with
    | none => exact ⟨.ended r (.error inProgress), rfl, .reject rfl (by simp [rejections])⟩
    | some entry =>
      simp only [Option.map_some]
      split
      next h => exact ⟨.ended r (.ok entry.value.response), rfl, .replay rfl hk h.1 h.2⟩
      next => exact ⟨.ended r (.error inProgress), rfl, .reject rfl (by simp [rejections])⟩
  | running r =>
    intro i s _
    let s' (outcome : Except Failure (Response β)) : Server β :=
      { s with handled := ⟨requestFingerprint sha256 r, outcome⟩ :: s.handled }
    change ∃ t', finish k (requestFingerprint sha256 r) options.ttlSeconds i.reply =
      Stage.prog sha256 options k t' ∧ Move sha256 k s (.running r) (s' i.reply) t' []
    cases i.reply with
    | ok response => exact ⟨.completing r response, rfl, .succeed⟩
    | error e => exact ⟨.failed r e, rfl, .fail⟩
  | completing r response =>
    refine leads_callBind fun i s ho => ⟨.ended r (.ok response), rfl, ?_⟩
    have hf : i.fails = false := ho
    simp only [hf, Bool.false_eq_true, if_false]
    exact .complete
  | failed r e => exact fun s => ⟨.ended r (.error e), .clearing r, rfl, rfl, .release⟩
  | clearing r =>
    intro i s ho
    have hf : i.fails = false := ho
    refine ⟨.cleared r, rfl, ?_⟩
    simp only [hf, Bool.false_eq_true, if_false]
    exact .clear
  | cleared r => trivial
  | ended r result => trivial

/-! ### The invariant -/

def Server.successes (s : Server β) : List (Handled β) := s.handled.filter Handled.succeeded

def Server.record (s : Server β) : Option (IdempotencyRecord β) := (s.records k).map Entry.value

structure Inv (s : Server β) (ts : List (Stage β)) : Prop where
  /-- nobody else is at work -/
  unique : ∀ {j j' : ℕ} {t t' : Stage β}, ts[j]? = some t → ts[j']? = some t' →
    t.owner?.isSome = true → t'.owner?.isSome = true → j = j'
  own : ∀ {j : ℕ} {t : Stage β} {r : Request}, ts[j]? = some t → t.owner? = some r →
    s.record k = some ⟨.processing, requestFingerprint sha256 r, 0, none⟩
  busy : ∀ {record : IdempotencyRecord β}, s.record k = some record → record.status = .processing →
    ∃ (j : ℕ) (t : Stage β), ts[j]? = some t ∧ t.owner?.isSome = true
  absent : s.record k = none → s.successes = []
  unanswered : ∀ {j : ℕ} {t : Stage β}, ts[j]? = some t → t.unanswered = true → s.successes = []
  answering : ∀ {j : ℕ} {r : Request} {response : Response β}, ts[j]? = some (.completing r response) →
    s.successes = [⟨requestFingerprint sha256 r, .ok response⟩]
  completed : ∀ {record : IdempotencyRecord β}, s.record k = some record → record.status = .completed →
    s.successes = [⟨record.fingerprint, .ok record.response⟩]
  failing : ∀ {j : ℕ} {r : Request} {e : Failure}, ts[j]? = some (.failed r e) →
    ⟨requestFingerprint sha256 r, .error e⟩ ∈ s.handled
  answered : ∀ {j : ℕ} {r : Request} {response : Response β}, ts[j]? = some (.ended r (.ok response)) →
    s.successes = [⟨requestFingerprint sha256 r, .ok response⟩]
  refused : ∀ {j : ℕ} {r : Request} {e : Failure}, ts[j]? = some (.ended r (.error e)) →
    e ∈ rejections ∨ ⟨requestFingerprint sha256 r, .error e⟩ ∈ s.handled

variable {sha256 k} {s s' : Server β} {ts : List (Stage β)} {j : ℕ} {t t' : Stage β}

theorem Inv.quiet (h : Inv sha256 k s ts) (ht : ts[j]? = some t) (hfree : t.owner? = none)
    (hfree' : t'.owner? = none)
    (hanswered : ∀ r response, t' = .ended r (.ok response) →
      s.successes = [⟨requestFingerprint sha256 r, .ok response⟩])
    (hrefused : ∀ r e, t' = .ended r (.error e) → e ∈ rejections) :
    Inv sha256 k s (ts.set j t' ++ []) := by
  have hold : ∀ {i : ℕ} {u : Stage β}, (ts.set j t' ++ [])[i]? = some u → u.owner?.isSome = true →
      ts[i]? = some u := by
    intro i u hu ho
    rcases getElem?_moved_alone hu with ⟨rfl, rfl⟩ | ⟨-, hu⟩
    · rw [hfree'] at ho
      cases ho
    · exact hu
  refine ⟨fun hi hi' ho ho' => h.unique (hold hi ho) (hold hi' ho') ho ho', ?_, ?_, h.absent, ?_, ?_,
    h.completed, ?_, ?_, ?_⟩
  · exact fun hi ho => h.own (hold hi (by rw [ho]; rfl)) ho
  · intro record hrec hst
    obtain ⟨i, u, hu, ho⟩ := h.busy hrec hst
    refine ⟨i, u, getElem?_stays hu ?_, ho⟩
    rintro rfl
    obtain rfl := Option.some.inj (ht.symm.trans hu)
    rw [hfree] at ho
    cases ho
  · exact fun hu hun => h.unanswered (hold hu (Stage.owner_of_unanswered hun)) hun
  · exact fun hi => h.answering (hold hi rfl)
  · exact fun hi => h.failing (hold hi rfl)
  · intro i r response hi
    rcases getElem?_moved_alone hi with ⟨-, he⟩ | ⟨-, hi⟩
    · exact hanswered r response he.symm
    · exact h.answered hi
  · intro i r e hi
    rcases getElem?_moved_alone hi with ⟨-, he⟩ | ⟨-, hi⟩
    · exact .inl (hrefused r e he.symm)
    · exact h.refused hi

theorem record_put {record : IdempotencyRecord β} {d : Option ℕ} :
    Server.record k { s with records := s.records.put k record d } = some record := by
  simp [Server.record]

theorem record_of_get {record : IdempotencyRecord β} {d : Option ℕ}
    (h : s.records k = some ⟨record, d⟩) : s.record k = some record := by
  simp [Server.record, h]

theorem Inv.claim {r : Request} {d : Option ℕ} (h : Inv sha256 k s ts)
    (ht : ts[j]? = some (.claiming r)) (hfree : s.record k = none) :
    Inv sha256 k { s with
        records := s.records.put k ⟨.processing, requestFingerprint sha256 r, 0, none⟩ d }
      (ts.set j (.running r) ++ []) := by
  have hidle : ∀ {i : ℕ} {u : Stage β}, ts[i]? = some u → u.owner? = none := by
    intro i u hu
    cases ho : u.owner? with
    | none => rfl
    | some r' =>
      have hown := h.own hu ho
      rw [hfree] at hown
      cases hown
  have hnone : s.successes = [] := h.absent hfree
  refine ⟨?_, ?_, ?_, fun hrec => ?_, fun _ _ => hnone, ?_, ?_, ?_, ?_, ?_⟩
  · intro i i' u u' hi hi' ho ho'
    rcases getElem?_moved_alone hi with ⟨rfl, -⟩ | ⟨-, hi⟩
    · rcases getElem?_moved_alone hi' with ⟨rfl, -⟩ | ⟨-, hi'⟩
      · rfl
      · rw [hidle hi'] at ho'
        cases ho'
    · rw [hidle hi] at ho
      cases ho
  · intro i u r' hi ho
    rcases getElem?_moved_alone hi with ⟨-, rfl⟩ | ⟨-, hi⟩
    · obtain rfl := Option.some.inj ho
      exact record_put
    · rw [hidle hi] at ho
      cases ho
  · exact fun _ _ => ⟨j, .running r, getElem?_moves ht, rfl⟩
  · rw [record_put] at hrec
    cases hrec
  · intro i r' response hi
    rcases getElem?_moved_alone hi with ⟨-, he⟩ | ⟨-, hi⟩
    · cases he
    · cases hidle hi
  · intro record hrec hst
    rw [record_put] at hrec
    obtain rfl := Option.some.inj hrec
    cases hst
  · intro i r' e hi
    rcases getElem?_moved_alone hi with ⟨-, he⟩ | ⟨-, hi⟩
    · cases he
    · cases hidle hi
  · intro i r' response hi
    rcases getElem?_moved_alone hi with ⟨-, he⟩ | ⟨-, hi⟩
    · cases he
    · exact h.answered hi
  · intro i r' e hi
    rcases getElem?_moved_alone hi with ⟨-, he⟩ | ⟨-, hi⟩
    · cases he
    · exact h.refused hi

theorem Inv.others (h : Inv sha256 k s ts) (ht : ts[j]? = some t) (ho : t.owner?.isSome = true)
    {i : ℕ} {u : Stage β} (hne : i ≠ j) (hu : ts[i]? = some u) : u.owner? = none := by
  cases hi : u.owner? with
  | none => rfl
  | some r => exact absurd (h.unique hu ht (by rw [hi]; rfl) ho) hne

theorem Inv.handle {r : Request} (h : Inv sha256 k s ts) (ht : ts[j]? = some (.running r))
    {outcome : Except Failure (Response β)}
    (ht' : t' = match outcome with
      | .ok response => .completing r response
      | .error e => .failed r e) :
    Inv sha256 k { s with handled := ⟨requestFingerprint sha256 r, outcome⟩ :: s.handled }
      (ts.set j t' ++ []) := by
  have howner : t'.owner? = some r := by
    subst ht'
    cases outcome <;> rfl
  have hidle : ∀ {i : ℕ} {u : Stage β}, i ≠ j → ts[i]? = some u → u.owner? = none :=
    fun hne hu => h.others ht rfl hne hu
  have hnone : s.successes = [] := h.unanswered ht rfl
  have hown := h.own ht rfl
  refine ⟨?_, ?_, ?_, ?_, ?_, ?_, ?_, ?_, ?_, ?_⟩
  · intro i i' u u' hi hi' ho ho'
    rcases getElem?_moved_alone hi with ⟨rfl, -⟩ | ⟨hne, hi⟩
    · rcases getElem?_moved_alone hi' with ⟨rfl, -⟩ | ⟨hne', hi'⟩
      · rfl
      · rw [hidle hne' hi'] at ho'
        cases ho'
    · rw [hidle hne hi] at ho
      cases ho
  · intro i u r' hi ho
    rcases getElem?_moved_alone hi with ⟨-, rfl⟩ | ⟨hne, hi⟩
    · obtain rfl := Option.some.inj (howner.symm.trans ho)
      exact hown
    · rw [hidle hne hi] at ho
      cases ho
  · exact fun _ _ => ⟨j, t', getElem?_moves ht, by rw [howner]; rfl⟩
  · intro hrec
    cases hown.symm.trans hrec
  · intro i u hi hun
    rcases getElem?_moved_alone hi with ⟨-, rfl⟩ | ⟨hne, hi⟩
    · subst ht'
      cases outcome with
      | ok response => cases hun
      | error e => exact hnone
    · have ho := Stage.owner_of_unanswered hun
      rw [hidle hne hi] at ho
      cases ho
  · intro i r' response hi
    rcases getElem?_moved_alone hi with ⟨-, he⟩ | ⟨hne, hi⟩
    · subst ht'
      cases outcome with
      | ok response' =>
        cases he
        exact congrArg _ hnone
      | error e => cases he
    · cases hidle hne hi
  · intro record hrec hst
    cases hown.symm.trans hrec
    cases hst
  · intro i r' e hi
    rcases getElem?_moved_alone hi with ⟨-, he⟩ | ⟨hne, hi⟩
    · subst ht'
      cases outcome with
      | ok response => cases he
      | error e' =>
        cases he
        exact List.mem_cons_self ..
    · cases hidle hne hi
  · intro i r' response hi
    rcases getElem?_moved_alone hi with ⟨-, he⟩ | ⟨hne, hi⟩
    · subst ht'
      cases outcome <;> cases he
    · rw [h.answered hi] at hnone
      cases hnone
  · intro i r' e hi
    rcases getElem?_moved_alone hi with ⟨-, he⟩ | ⟨hne, hi⟩
    · subst ht'
      cases outcome <;> cases he
    · exact (h.refused hi).imp_right fun hmem => List.mem_cons_of_mem _ hmem

theorem Inv.settle {r : Request} {records : Store String (IdempotencyRecord β)}
    (h : Inv sha256 k s ts) (ht : ts[j]? = some t) (ho : t.owner? = some r)
    (hfree : t'.owner? = none) (habsent : records k = none → s.successes = [])
    (hcompleted : ∀ record d, records k = some ⟨record, d⟩ → record.status = .completed ∧
      s.successes = [⟨record.fingerprint, .ok record.response⟩])
    (hanswered : ∀ r response, t' = .ended r (.ok response) →
      s.successes = [⟨requestFingerprint sha256 r, .ok response⟩])
    (hrefused : ∀ r e, t' ≠ .ended r (.error e)) :
    Inv sha256 k { s with records } (ts.set j t' ++ []) := by
  have hidle : ∀ {i : ℕ} {u : Stage β}, (ts.set j t' ++ [])[i]? = some u → u.owner? = none := by
    intro i u hu
    rcases getElem?_moved_alone hu with ⟨-, rfl⟩ | ⟨hne, hu⟩
    · exact hfree
    · exact h.others ht (by rw [ho]; rfl) hne hu
  have hrecord : ∀ {record : IdempotencyRecord β},
      Server.record k { s with records } = some record → record.status = .completed ∧
        s.successes = [⟨record.fingerprint, .ok record.response⟩] := by
    intro record hrec
    obtain ⟨⟨record', d⟩, he, rfl⟩ := Option.map_eq_some_iff.mp hrec
    exact hcompleted _ d he
  refine ⟨?_, ?_, ?_, fun hrec => habsent (Option.map_eq_none_iff.mp hrec), ?_, ?_,
    fun hrec _ => (hrecord hrec).2, ?_, ?_, ?_⟩
  · intro i i' u u' hi _ hu
    rw [hidle hi] at hu
    cases hu
  · intro i u r' hi hu
    rw [hidle hi] at hu
    cases hu
  · intro record hrec hst
    rw [(hrecord hrec).1] at hst
    cases hst
  · intro i u hi hun
    have ho := Stage.owner_of_unanswered hun
    rw [hidle hi] at ho
    cases ho
  · intro i r' response hi
    cases hidle hi
  · intro i r' e hi
    cases hidle hi
  · intro i r' response hi
    rcases getElem?_moved_alone hi with ⟨-, he⟩ | ⟨-, hi⟩
    · exact hanswered r' response he.symm
    · exact h.answered hi
  · intro i r' e hi
    rcases getElem?_moved_alone hi with ⟨-, he⟩ | ⟨-, hi⟩
    · exact absurd he.symm (hrefused r' e)
    · exact h.refused hi

theorem Inv.release {r : Request} {e : Failure} (h : Inv sha256 k s ts)
    (ht : ts[j]? = some (.failed r e)) :
    Inv sha256 k s (ts.set j (.ended r (.error e)) ++ [.clearing r]) := by
  have hlt : j < ts.length := (List.getElem?_eq_some_iff.mp ht).1
  have hidle : ∀ {i : ℕ} {u : Stage β}, i ≠ j → ts[i]? = some u → u.owner? = none :=
    fun hne hu => h.others ht rfl hne hu
  have hcases : ∀ {i : ℕ} {u : Stage β},
      (ts.set j (.ended r (.error e)) ++ [.clearing r])[i]? = some u → u.owner?.isSome = true →
      i = ts.length ∧ u = .clearing r := by
    intro i u hu ho
    rcases getElem?_moved hu with ⟨-, rfl⟩ | ⟨hne, hu⟩ | ⟨hle, hmem⟩
    · cases ho
    · rw [hidle hne hu] at ho
      cases ho
    · have hlen := (List.getElem?_eq_some_iff.mp hu).1
      simp only [List.length_append, List.length_set, List.length_singleton] at hlen
      exact ⟨by omega, List.mem_singleton.mp hmem⟩
  have hnone : s.successes = [] := h.unanswered ht rfl
  refine ⟨?_, ?_, ?_, h.absent, fun _ _ => hnone, ?_, h.completed, ?_, ?_, ?_⟩
  · intro i i' u u' hi hi' ho ho'
    exact (hcases hi ho).1.trans (hcases hi' ho').1.symm
  · intro i u r' hi ho
    obtain ⟨-, rfl⟩ := hcases hi (by rw [ho]; rfl)
    obtain rfl := Option.some.inj ho
    exact h.own ht rfl
  · refine fun _ _ => ⟨ts.length, .clearing r, ?_, rfl⟩
    rw [List.getElem?_append_right (by simp)]
    simp
  · intro i r' response hi
    cases (hcases hi rfl).2
  · intro i r' e' hi
    cases (hcases hi rfl).2
  · intro i r' response hi
    rcases getElem?_moved hi with ⟨-, he⟩ | ⟨-, hi⟩ | ⟨-, hmem⟩
    · cases he
    · exact h.answered hi
    · cases List.mem_singleton.mp hmem
  · intro i r' e' hi
    rcases getElem?_moved hi with ⟨-, he⟩ | ⟨-, hi⟩ | ⟨-, hmem⟩
    · cases he
      exact .inr (h.failing ht)
    · exact h.refused hi
    · cases List.mem_singleton.mp hmem

theorem Inv.move {forked : List (Stage β)} (h : Inv sha256 k s ts) (ht : ts[j]? = some t)
    (hm : Move sha256 k s t s' t' forked) : Inv sha256 k s' (ts.set j t' ++ forked) := by
  have hfree : ∀ r, t.reads r → t.owner? = none := by
    intro r hr
    cases t <;> first | rfl | cases hr
  cases hm with
  | reject hr he =>
    refine h.quiet ht (hfree _ hr) rfl ?_ ?_
    · exact fun _ _ heq => by cases heq
    · rintro r' e' heq
      cases heq
      exact he
  | replay hr hk hst hfp =>
    refine h.quiet ht (hfree _ hr) rfl ?_ ?_
    · rintro r' response heq
      cases heq
      rw [h.completed (record_of_get hk) hst, hfp]
    · exact fun _ _ heq => by cases heq
  | miss => exact h.quiet ht rfl rfl (fun _ _ heq => by cases heq) fun _ _ heq => by cases heq
  | lose => exact h.quiet ht rfl rfl (fun _ _ heq => by cases heq) fun _ _ heq => by cases heq
  | claim hk => exact h.claim ht (by simp [Server.record, hk])
  | succeed => exact h.handle ht rfl
  | fail => exact h.handle ht rfl
  | @complete r d response =>
    have hone : ∀ n, n ≠ 0 → orOk n = n := fun n hn => if_neg hn
    have hresponse : (⟨.completed, requestFingerprint sha256 r, orOk response.statusCode,
        response.body⟩ : IdempotencyRecord β).response = response := by
      obtain ⟨code, body, hne⟩ := response
      simp [IdempotencyRecord.response, hone code hne]
    refine h.settle ht rfl rfl (fun hrec => ?_) (fun record d' hrec => ?_) ?_ ?_
    · rw [Store.put_self] at hrec
      cases hrec
    · rw [Store.put_self] at hrec
      cases hrec
      rw [hresponse]
      exact ⟨rfl, h.answering ht⟩
    · rintro r' response' heq
      cases heq
      exact h.answering ht
    · exact fun _ _ heq => by cases heq
  | release => exact h.release ht
  | clear =>
    refine h.settle ht rfl rfl (fun _ => h.unanswered ht rfl) (fun record d' hrec => ?_) ?_ ?_
    · rw [Store.drop_self] at hrec
      cases hrec
    · exact fun _ _ heq => by cases heq
    · exact fun _ _ heq => by cases heq

/-! ### Whole runs -/

theorem Move.request {forked : List (Stage β)} (hm : Move sha256 k s t s' t' forked) :
    t'.request = t.request := by
  have hreads : ∀ r, t.reads r → t.request = r := by
    intro r hr
    cases t <;> first | exact hr | cases hr
  cases hm with
  | reject hr => exact (hreads _ hr).symm
  | replay hr => exact (hreads _ hr).symm
  | _ => rfl

def Named (requests : List Request) (ts : List (Stage β)) : Prop :=
  ∀ (j : ℕ) (r : Request), requests[j]? = some r → ∃ t, ts[j]? = some t ∧ t.request = r

theorem Named.move {requests : List Request} {forked : List (Stage β)} (h : Named requests ts)
    (ht : ts[j]? = some t) (hm : Move sha256 k s t s' t' forked) :
    Named requests (ts.set j t' ++ forked) := by
  intro i r hr
  obtain ⟨u, hu, hru⟩ := h i r hr
  by_cases hi : i = j
  · subst hi
    obtain rfl := Option.some.inj (ht.symm.trans hu)
    exact ⟨t', getElem?_moves ht, hm.request.trans hru⟩
  · exact ⟨u, getElem?_stays hu hi, hru⟩

theorem prog_done {result : Except Failure (Response β)}
    (h : Stage.prog sha256 options k t = .done result) : t = .ended t.request result := by
  cases t with
  | ended r result' =>
    cases h
    rfl
  | _ => cases h

theorem prog_handle {fingerprint : String}
    (h : (Stage.prog sha256 options k t).label? = some (.handle fingerprint)) :
    t = .running t.request := by
  cases t with
  | running r => rfl
  | _ => cases h

structure SameKey (first r : Request) : Prop where
  user : r.userId = first.userId
  method : r.method = first.method
  path : r.path = first.path
  key : key r = key first

def AcceptedKey (r : Request) : Prop := 8 ≤ utf16Length (key r) ∧ utf16Length (key r) ≤ 128

/-- A claimed request that has not settled its record. -/
def atWork : RequestProg β (Response β) → Bool
  | .step (.handle _) _ _ => true
  | .step (.complete _) _ _ => true
  | .step (.clear _) _ _ => true
  | .fork _ _ => true
  | _ => false

theorem atWork_of_owner (h : t.owner?.isSome = true) :
    atWork (Stage.prog sha256 options k t) = true := by
  cases t <;> first | rfl | cases h

theorem SameKey.redisKey {first r : Request} (h : SameKey first r) : redisKey r = redisKey first := by
  rw [IdempotencyInterceptor.redisKey, scope, h.user, h.method, h.path, h.key]
  rfl

def Stage.enter (r : Request) : Stage β :=
  if utf16Length (key r) < 8 ∨ 128 < utf16Length (key r) then .ended r (.error keyLength)
  else .arriving r

theorem intercept_eq {first r : Request} (hsame : SameKey first r) (hm : mutates first.method = true)
    (hkey : key first ≠ "") : intercept sha256 (some options) r =
      Stage.prog (β := β) sha256 options (redisKey first) (.enter r) := by
  have hne : key r ≠ "" := hsame.key ▸ hkey
  have hmut : mutates r.method = true := hsame.method ▸ hm
  simp only [intercept, hmut, if_true, prepare, if_neg hne, Stage.enter]
  split
  · rfl
  · rw [hsame.redisKey]
    rfl

abbrev RequestPool (β : Type) :=
  Pool Call (Input (Except Failure (Response β))) (Server β) Failure (Response β)

variable (sha256) in
def arrivals (requests : List Request) (s : Server β) : RequestPool β :=
  ⟨requests.map (intercept sha256 (some options)), s⟩

variable (sha256) in
/-- One success at most; the others replay it, or are rejected, or failed by themselves; whoever is
at the handler has the record; and a key that nobody works under and that has no success is free
for the next request. -/
structure OneSuccess (first : Request) (requests : List Request) (p : RequestPool β) : Prop where
  once : p.state.successes.length ≤ 1
  replayed : ∀ (j : ℕ) (r : Request) (response : Response β), requests[j]? = some r →
    p.threads[j]? = some (.done (.ok response)) →
    p.state.successes = [⟨requestFingerprint sha256 r, .ok response⟩]
  rejected : ∀ (j : ℕ) (r : Request) (e : Failure), requests[j]? = some r →
    p.threads[j]? = some (.done (.error e)) →
    e ∈ rejections ∨ ⟨requestFingerprint sha256 r, .error e⟩ ∈ p.state.handled
  recorded : ∀ (j : ℕ) (r : Request) (fingerprint : String), requests[j]? = some r →
    p.label? j = some (.handle fingerprint) →
    p.state.record (redisKey first) = some ⟨.processing, requestFingerprint sha256 r, 0, none⟩
  reusable : p.state.successes = [] → (∀ t ∈ p.threads, atWork t = false) →
    ∀ (r : Request) (i i' : Input (Except Failure (Response β))), SameKey first r → AcceptedKey r →
      i.fails = false → i'.fails = false →
      (Pool.solo (intercept sha256 (some options) r) p.state [i, i']).label? 0 =
        some (.handle (requestFingerprint sha256 r))

theorem solo_handles {r : Request} {i i' : Input (Except Failure (Response β))}
    (hfree : s.record k = none) (hf : i.fails = false) (hf' : i'.fails = false) :
    (Pool.solo (Stage.prog sha256 options k (.arriving r)) s [i, i']).label? 0 =
      some (.handle (requestFingerprint sha256 r)) := by
  have hk : s.records k = none := Option.map_eq_none_iff.mp hfree
  have hmiss : (⟨[Stage.prog sha256 options k (.arriving r)], s⟩ : RequestPool β).step 0 i =
      ⟨[Stage.prog sha256 options k (.claiming r)], s⟩ := by
    change Pool.mk [(Prog.bind (Prog.done (.ok _)) _).bind _] s = _
    simp only [hf, hk, Bool.false_eq_true, if_false, Prog.done_ok_bind, Option.map_none]
    rfl
  let taken := s.records.setNX k ⟨.processing, requestFingerprint sha256 r, 0, none⟩
    (some (i'.now + options.ttlSeconds))
  let outcome : Except Failure Bool × Server β :=
    if i'.fails then (.error .database, s) else settle s (.ok (taken.1, { s with records := taken.2 }))
  have htaken : taken.1 = true := by simp [taken, Store.setNX, hk]
  have houtcome : outcome = (.ok true, { s with records := taken.2 }) := by
    simp [outcome, hf', settle, htaken]
  have hclaim : (⟨[Stage.prog sha256 options k (.claiming r)], s⟩ : RequestPool β).step 0 i' =
      ⟨[Stage.prog sha256 options k (.running r)], { s with records := taken.2 }⟩ := by
    change Pool.mk [((Prog.done outcome.1).bind _).bind _] outcome.2 = _
    rw [houtcome]
    rfl
  change ((Pool.step (Pool.step _ 0 i) 0 i').label? 0) = _
  rw [hmiss, hclaim]
  rfl

theorem Stage.enter_cases (r : Request) :
    Stage.enter (β := β) r = .arriving r ∨ Stage.enter (β := β) r = .ended r (.error keyLength) := by
  unfold Stage.enter
  split
  · exact .inr rfl
  · exact .inl rfl

theorem Inv.start (requests : List Request) (hfree : s.record k = none) (hfresh : s.handled = []) :
    Inv sha256 k s (requests.map Stage.enter) := by
  have henter : ∀ {j : ℕ} {t : Stage β}, (requests.map Stage.enter)[j]? = some t →
      ∃ r, t = .arriving r ∨ t = .ended r (.error keyLength) := by
    intro j t ht
    obtain ⟨r, -, rfl⟩ := List.mem_map.mp (List.mem_of_getElem? ht)
    exact ⟨r, Stage.enter_cases r⟩
  have hnone : s.successes = [] := by simp [Server.successes, hfresh]
  have hidle : ∀ {j : ℕ} {t : Stage β}, (requests.map Stage.enter)[j]? = some t → t.owner? = none := by
    intro j t ht
    obtain ⟨r, rfl | rfl⟩ := henter ht <;> rfl
  have hrecord : ∀ {record : IdempotencyRecord β}, s.record k ≠ some record := by simp [hfree]
  refine ⟨fun ht _ ho => ?_, fun ht ho => ?_, fun h => absurd h hrecord, fun _ => hnone,
    fun _ _ => hnone, fun ht => ?_, fun h => absurd h hrecord, fun ht => ?_, fun ht => ?_,
    fun {j r e} ht => .inl ?_⟩
  · rw [hidle ht] at ho
    cases ho
  · rw [hidle ht] at ho
    cases ho
  · cases hidle ht
  · cases hidle ht
  · obtain ⟨r', h | h⟩ := henter ht <;> cases h
  · obtain ⟨r', h | h⟩ := henter ht
    · cases h
    · cases h
      simp [rejections]

theorem Named.start (requests : List Request) :
    Named requests (requests.map (Stage.enter (β := β))) := by
  intro j r hr
  refine ⟨.enter r, by simp [hr], ?_⟩
  rcases Stage.enter_cases (β := β) r with h | h <;> rw [h] <;> rfl

theorem Inv.once (h : Inv sha256 k s ts) : s.successes.length ≤ 1 := by
  cases hrec : s.record k with
  | none => simp [h.absent hrec]
  | some record =>
    cases hst : record.status with
    | completed => simp [h.completed hrec hst]
    | processing =>
      obtain ⟨j, t, ht, ho⟩ := h.busy hrec hst
      cases t with
      | completing r response => simp [h.answering ht]
      | running r => simp [h.unanswered ht rfl]
      | failed r e => simp [h.unanswered ht rfl]
      | clearing r => simp [h.unanswered ht rfl]
      | _ => cases ho

/-- Without a success and without a request at work there is no record. -/
theorem Inv.record_of_idle (h : Inv sha256 k s ts) (hnone : s.successes = [])
    (hidle : ∀ (j : ℕ) (t : Stage β), ts[j]? = some t → t.owner?.isSome ≠ true) :
    s.record k = none := by
  cases hrec : s.record k with
  | none => rfl
  | some record =>
    cases hst : record.status with
    | completed =>
      rw [h.completed hrec hst] at hnone
      cases hnone
    | processing =>
      obtain ⟨j, t, ht, ho⟩ := h.busy hrec hst
      exact absurd ho (hidle j t ht)

theorem run_stages {first : Request} {requests : List Request}
    {sched : List (ℕ × Input (Except Failure (Response β)))} (hm : mutates first.method = true)
    (hkey : key first ≠ "") (hsame : ∀ r ∈ requests, SameKey first r)
    (hfree : s.record (redisKey first) = none) (hfresh : s.handled = [])
    (ha : (arrivals sha256 options requests s).Admits RedisAnswers sched) :
    ∃ ts : List (Stage β), ((arrivals sha256 options requests s).run sched).threads =
        ts.map (Stage.prog sha256 options (redisKey first)) ∧
      Inv sha256 (redisKey first) ((arrivals sha256 options requests s).run sched).state ts ∧
      Named requests ts := by
  have hthreads : (arrivals sha256 options requests s).threads =
      (requests.map Stage.enter).map (Stage.prog sha256 options (redisKey first)) := by
    rw [List.map_map]
    exact List.map_congr_left fun r hr => intercept_eq options (hsame r hr) hm hkey
  let inv : Server β → List (Stage β) → Prop := fun s ts =>
    Inv sha256 (redisKey first) s ts ∧ Named requests ts
  have hmove : ∀ {s s' ts j t t' forked}, inv s ts → ts[j]? = some t →
      Move sha256 (redisKey first) s t s' t' forked → inv s' (ts.set j t' ++ forked) :=
    fun h ht hm => ⟨h.1.move ht hm, h.2.move ht hm⟩
  exact (staged sha256 options (redisKey first)).run hmove hthreads
    ⟨Inv.start requests hfree hfresh, Named.start requests⟩ ha

theorem one_success {first : Request} {requests : List Request}
    {sched : List (ℕ × Input (Except Failure (Response β)))} (hm : mutates first.method = true)
    (hkey : key first ≠ "") (hsame : ∀ r ∈ requests, SameKey first r)
    (hfree : s.record (redisKey first) = none) (hfresh : s.handled = [])
    (ha : (arrivals sha256 options requests s).Admits RedisAnswers sched) :
    OneSuccess sha256 options first requests ((arrivals sha256 options requests s).run sched) := by
  obtain ⟨ts, hend, hinv, hnames⟩ := run_stages options hm hkey hsame hfree hfresh ha
  have hthread : ∀ {j : ℕ} {r : Request} {q : RequestProg β (Response β)}, requests[j]? = some r →
      ((arrivals sha256 options requests s).run sched).threads[j]? = some q →
      ∃ t, ts[j]? = some t ∧ t.request = r ∧ Stage.prog sha256 options (redisKey first) t = q := by
    intro j r q hr hq
    obtain ⟨t, ht, htr⟩ := hnames j r hr
    rw [hend, List.getElem?_map, ht] at hq
    exact ⟨t, ht, htr, Option.some.inj hq⟩
  refine ⟨hinv.once, fun j r response hr hq => ?_, fun j r e hr hq => ?_,
    fun j r fingerprint hr hl => ?_, fun hnone hidle r i i' hr hlen hf hf' => ?_⟩
  · obtain ⟨t, ht, rfl, hprog⟩ := hthread hr hq
    rw [prog_done options hprog] at ht
    exact hinv.answered ht
  · obtain ⟨t, ht, rfl, hprog⟩ := hthread hr hq
    rw [prog_done options hprog] at ht
    exact hinv.refused ht
  · rw [Pool.label?_eq] at hl
    obtain ⟨q, hq, hlabel⟩ := Option.bind_eq_some_iff.mp hl
    obtain ⟨t, ht, rfl, rfl⟩ := hthread hr hq
    rw [prog_handle options hlabel] at ht
    exact hinv.own ht rfl
  · have hrecord := hinv.record_of_idle hnone fun j t ht ho => by
      have hmem : Stage.prog sha256 options (redisKey first) t ∈
          ((arrivals sha256 options requests s).run sched).threads := by
        rw [hend]
        exact List.mem_map.mpr ⟨t, List.mem_of_getElem? ht, rfl⟩
      have hw := hidle _ hmem
      rw [atWork_of_owner options ho] at hw
      cases hw
    rw [intercept_eq options hr hm hkey]
    have henters : Stage.enter (β := β) r = .arriving r := if_neg (by unfold AcceptedKey at hlen; omega)
    rw [henters]
    exact solo_handles options hrecord hf hf'

end Moves

def placeOrder : Request where
  method := "POST"
  path := "/orders"
  url := "/orders"
  userId := some "u1"
  header := some "key-0001"

def created : Input (Except Failure (Response String)) :=
  { reply := .ok ⟨201, some "done", by decide⟩ }

/-- The second of two equal requests loses the race and replays the answer of the first. -/
theorem one_success_raced :
    OneSuccess id {} placeOrder [placeOrder, placeOrder]
      ((arrivals id {} [placeOrder, placeOrder] {}).run
        ([0, 1, 0, 0, 0, 1, 1].map fun j => (j, created))) :=
  one_success {} (by decide +kernel) (by decide +kernel)
    (fun r hr => by
      have hr' : r = placeOrder := by simpa using hr
      exact hr' ▸ ⟨rfl, rfl, rfl, rfl⟩)
    rfl rfl (by decide +kernel)

end ElectronicsCart.Idempotency
