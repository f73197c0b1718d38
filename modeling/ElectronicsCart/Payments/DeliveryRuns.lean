import ElectronicsCart.Core.Journal
import ElectronicsCart.Payments.WebhookRuns

/-!
# One webhook, processed again

The receiver enqueues a job for a stored webhook and then processes it itself.  `processWebhook`
reads the status of the row first and writes `processed` last, so two executions can both apply it.
-/

namespace ElectronicsCart.Payments

open Interleaving Relational

abbrev ShopEntry := Entry ShopCall ShopInput Shop

abbrev ShopJournal := Journaled ShopCall ShopInput Shop

/-- Who runs `processWebhook`: the receiver, which only logs its error, or a job of the queue. -/
inductive Execution where
  | inline | job
deriving DecidableEq, Repr

def Execution.prog (id : ℕ) : Execution → ShopProg Unit
  | .inline => tryCatch (processWebhook id) fun _ => pure ()
  | .job => processWebhook id

def delivering (id : ℕ) (executions : List Execution) (s : Shop) : ShopPool Unit :=
  ⟨executions.map (Execution.prog id), s⟩

/-! ### The journal of the executions -/

def unprocessed (id : ℕ) (s : Shop) : Bool :=
  ((s.webhooks.find? id).filter fun w => !w.deleted).any fun w =>
    !decide (w.processingStatus = .processed)

def takesUp (id : ℕ) (e : ShopEntry) : Bool :=
  decide (e.label = .payment (.findWebhook id)) && !e.input.fails && unprocessed id e.before

/-- The last call of `applyGatewayStatus` went through. -/
def completesStatus (e : ShopEntry) : Bool :=
  match e.label with
  | .payment (.createEvent _ _) => !e.input.fails
  | _ => false

/-- The row was marked, or could not be marked as failed. -/
def closes (id : ℕ) (e : ShopEntry) : Bool :=
  match e.label with
  | .payment (.markWebhook n .processed) => n == id && !e.input.fails
  | .payment (.markWebhook n _) => n == id
  | _ => false

def working (id c : ℕ) (t : ShopJournal) : Bool :=
  (t.own c).any (takesUp id) && !(t.own c).any (closes id)

def hasApplied (c : ℕ) (t : ShopJournal) : Bool := (t.own c).any completesStatus

/-- How often `applyGatewayStatus` was completed. -/
def completions (t : ShopJournal) : ℕ := t.journal.countP completesStatus

/-- An execution reads the row when no other one is at work on it, and the calls of an execution
that has applied the status do not fail. -/
def OneAtATime (id : ℕ) (l : ℕ × ShopCall) (i : ShopInput) (t : ShopJournal) : Prop :=
  (l.2 = .payment (.findWebhook id) → (t.journal.all fun e => !working id e.caller t) = true) ∧
    (hasApplied l.1 t = true → i.fails = false)

instance (id : ℕ) (l : ℕ × ShopCall) (i : ShopInput) (t : ShopJournal) :
    Decidable (OneAtATime id l i t) := by
  unfold OneAtATime
  infer_instance

/-- At most one execution is at work; once the status was applied the row is processed, or the
execution that applied it is about to mark it. -/
structure AppliedOnce (id : ℕ) (t : ShopJournal) : Prop where
  once : completions t ≤ 1
  single : ∀ c c', working id c t = true → working id c' t = true → c = c'
  settled : completions t = 0 ∨ unprocessed id t.state = false ∨ ∃ c, working id c t = true

def deliveries (id : ℕ) : World (ℕ × ShopCall) ShopInput ShopJournal :=
  ⟨OneAtATime id, AppliedOnce id⟩

/-- While an execution is at work the others wait. -/
def alongside (id c : ℕ) : Discipline (ℕ × ShopCall) ShopInput ShopJournal where
  rely t u := u.own c = t.own c ∧ (working id c t = true → u = t)
  guar _ _ t u := ∀ c', c' ≠ c → u.own c' = t.own c' ∧ working id c' t = false
  refl _ := ⟨rfl, fun _ => rfl⟩
  trans := by
    rintro a b d ⟨hab, hb⟩ ⟨hbd, hd⟩
    refine ⟨hbd.trans hab, fun hw => ?_⟩
    obtain rfl := hb hw
    exact hd hw

variable {id c n : ℕ} {t u : ShopJournal} {row : PaymentWebhook}

theorem working_of_own {c' : ℕ} (h : u.own c' = t.own c') : working id c' u = working id c' t := by
  rw [working, working, h]

theorem nobody_working (h : (t.journal.all fun e => !working id e.caller t) = true) (c : ℕ) :
    working id c t = false := by
  by_contra hw
  rw [Bool.not_eq_false] at hw
  have htake := (Bool.and_eq_true _ _ ▸ hw : _ ∧ _).1
  obtain ⟨e, he, -⟩ := List.any_eq_true.mp htake
  obtain ⟨hmem, rfl⟩ := Journaled.mem_own.mp he
  have hidle := List.all_eq_true.mp h e hmem
  rw [hw] at hidle
  cases hidle

/-! ### An execution at work -/

/-- The execution has read the unprocessed row, and `n` times applied it. -/
structure AtWork (id c n : ℕ) (row : PaymentWebhook) (t : ShopJournal) : Prop where
  busy : working id c t = true
  alone : ∀ c', c' ≠ c → working id c' t = false
  count : completions t = n
  le_one : n ≤ 1
  applied : n = 1 → hasApplied c t = true
  row : t.state.webhooks.find? id = some row

/-- Calls that neither complete the status nor touch the webhooks. -/
def neutral : ShopCall → Bool
  | .payment (.findWebhook _) => false
  | .payment (.markWebhook _ _) => false
  | .payment (.createEvent _ _) => false
  | _ => true

theorem AtWork.inv (h : AtWork id c n row t) : AppliedOnce id t := by
  refine ⟨h.count ▸ h.le_one, fun a b ha hb => ?_, .inr (.inr ⟨c, h.busy⟩)⟩
  have hself : ∀ a, working id a t = true → a = c := fun a ha => by
    by_contra hne
    rw [h.alone a hne] at ha
    cases ha
  rw [hself a ha, hself b hb]

theorem AtWork.stable (h : AtWork id c n row t) (hr : (alongside id c).rely t u) :
    AtWork id c n row u := by
  rw [hr.2 h.busy]
  exact h

theorem alone_record {l : ShopCall} {i : ShopInput} {s : Shop}
    (h : ∀ c', c' ≠ c → working id c' t = false) :
    (alongside id c).guar (c, l) i t (t.record c l i s) :=
  fun c' hne => ⟨Journaled.own_record_of_ne hne, h c' hne⟩

theorem AtWork.record (h : AtWork id c n row t) {l : ShopCall} {i : ShopInput} {s : Shop} {m : ℕ}
    (htake : takesUp id ⟨c, l, i, t.state⟩ = false) (hclose : closes id ⟨c, l, i, t.state⟩ = false)
    (hcount : m = n + if completesStatus ⟨c, l, i, t.state⟩ = true then 1 else 0) (hm : m ≤ 1)
    (hs : s.webhooks = t.state.webhooks) : AtWork id c m row (t.record c l i s) := by
  refine ⟨?_, fun c' hne => ?_, ?_, hm, fun hone => ?_, ?_⟩
  · have hw := h.busy
    rw [working] at hw ⊢
    rw [Journaled.own_record_self, List.any_cons, List.any_cons, htake, hclose, Bool.false_or,
      Bool.false_or]
    exact hw
  · rw [working_of_own (Journaled.own_record_of_ne hne)]
    exact h.alone c' hne
  · rw [completions, Journaled.journal_record, List.countP_cons, hcount, ← h.count]
    rfl
  · rw [hasApplied, Journaled.own_record_self, List.any_cons]
    by_cases hnow : completesStatus ⟨c, l, i, t.state⟩ = true
    · rw [hnow, Bool.true_or]
    · rw [if_neg hnow] at hcount
      have := h.applied (by omega)
      rw [hasApplied] at this
      rw [this, Bool.or_true]
  · rw [Journaled.state_record, hs]
    exact h.row

theorem AtWork.neutral (h : AtWork id c n row t) {l : ShopCall} {i : ShopInput} {s : Shop}
    (hl : neutral l = true) (hs : s.webhooks = t.state.webhooks) :
    AtWork id c n row (t.record c l i s) := by
  have hentry : takesUp id ⟨c, l, i, t.state⟩ = false ∧ closes id ⟨c, l, i, t.state⟩ = false ∧
      completesStatus ⟨c, l, i, t.state⟩ = false := by
    unfold Payments.neutral at hl
    split at hl <;> try cases hl
    refine ⟨?_, ?_, ?_⟩
    · rw [takesUp, decide_eq_false (by simp_all), Bool.false_and, Bool.false_and]
    · unfold closes
      split <;> simp_all
    · unfold completesStatus
      split <;> simp_all
  exact h.record hentry.1 hentry.2.1 (by rw [hentry.2.2]; simp) h.le_one hs

abbrev DeliveryHolds {α : Type} (id c : ℕ) (Q : Except Failure α → ShopJournal → Prop)
    (p : ShopProg α) (t : ShopJournal) : Prop :=
  Holds (deliveries id) .silent (alongside id c) Q (p.journaled c) t

abbrev Neutral {α : Type} (p : ShopProg α) : Prop :=
  p.Every (fun _ _ _ => True) fun l _ s s' => neutral l = true ∧ s'.webhooks = s.webhooks

theorem holds_neutralBind {α β : Type} {Q : Except Failure α → ShopJournal → Prop} {p : ShopProg β}
    {k : β → ShopProg α} (hseq : p.Sequential) (hp : Neutral p) (ht : AtWork id c n row t)
    (hk : ∀ b u, AtWork id c n row u → DeliveryHolds id c Q (k b) u)
    (herr : ∀ e u, AtWork id c n row u → Q (.error e) u) : DeliveryHolds id c Q (p.bind k) t := by
  have hkeep : DeliveryHolds id c (fun _ u => AtWork id c n row u) p t := by
    refine Holds.of_sequential (fun _ _ hr h => h.stable hr) hseq.journaled ?_ ht
    refine (Prog.Every.journaled hp).imp (fun _ _ _ _ => trivial) ?_
    rintro ⟨_, l⟩ i u u' - ⟨s, rfl, rfl, hl, hs⟩ hu
    have hu' : AtWork id _ n row (u.record _ l i s) := hu.neutral hl hs
    exact ⟨hu'.inv, alone_record hu.alone, hu'⟩
  rw [DeliveryHolds, Prog.journaled_bind]
  refine Holds.bind (Holds.mono ?_ hkeep) ht.inv
  rintro (e | b) u - hu
  · exact herr e u hu
  · exact hk b u hu

/-- The outcome of the `try` block: an error leaves the status unapplied. -/
def Handled (id c : ℕ) (row : PaymentWebhook) : Except Failure Unit → ShopJournal → Prop
  | .ok _, _ => True
  | .error _, t => AtWork id c 0 row t

theorem AtWork.close (h : AtWork id c n row t) {l : ShopCall} {i : ShopInput} {s : Shop}
    (hclose : closes id ⟨c, l, i, t.state⟩ = true) (hcount : completesStatus ⟨c, l, i, t.state⟩ = false)
    (hdone : n = 0 ∨ unprocessed id s = false) : AppliedOnce id (t.record c l i s) := by
  have hcompletions : completions (t.record c l i s) = n := by
    rw [completions, Journaled.journal_record, List.countP_cons, if_neg (by rw [hcount]; simp),
      add_zero]
    exact h.count
  have hidle : ∀ c', working id c' (t.record c l i s) = false := by
    intro c'
    by_cases hc : c' = c
    · subst hc
      rw [working, Journaled.own_record_self, List.any_cons, List.any_cons, hclose, Bool.true_or,
        Bool.not_true, Bool.and_false]
    · rw [working_of_own (Journaled.own_record_of_ne hc)]
      exact h.alone c' hc
  refine ⟨hcompletions ▸ h.le_one, fun a b ha => ?_, ?_⟩
  · rw [hidle a] at ha
    cases ha
  · rcases hdone with h0 | hs
    · exact .inl (hcompletions.trans h0)
    · exact .inr (.inl hs)

theorem unprocessed_markWebhook {s : Shop} {g : PaymentWebhook → PaymentWebhook}
    (hrow : s.webhooks.find? id = some row) (hg : ∀ w, key (g w) = key w)
    (hstatus : ∀ w, (g w).processingStatus = .processed) :
    unprocessed id { s with webhooks := s.webhooks.update id g hg } = false := by
  have hmarked := Table.find?_update_self hg hrow
  simp only [unprocessed, hmarked, Option.filter_some]
  split
  · simp [hstatus]
  · rfl

theorem marking_holds (ht : AtWork id c n row t) :
    DeliveryHolds id c (Handled id c row) (markWebhook id .processed none) t := by
  refine holds_journaledWrite fun u hu _ i ho => ⟨fun e he => ?_, fun b s' hf h => ?_⟩
  · have hu := ht.stable hu
    -- the row is there, so the call itself failed, and the status was not applied
    have hfails : i.fails = true := by
      rcases he with hf | he
      · exact hf
      · simp [existing, hu.row, bind, Except.bind, pure, Except.pure] at he
    have hzero : n = 0 := by
      by_contra hne
      have hone : n = 1 := by
        have := ht.le_one
        omega
      have := ho.2 (hu.applied hone)
      rw [hfails] at this
      cases this
    subst hzero
    have hu' : AtWork id c 0 row (u.record c (.payment (.markWebhook id .processed)) i u.state) := by
      refine hu.record ?_ ?_ ?_ (Nat.zero_le 1) rfl
      · simp [takesUp]
      · simp [closes, hfails]
      · simp [completesStatus]
    exact ⟨hu'.inv, alone_record hu.alone, fun v hv _ => hu'.stable hv⟩
  · have hu := ht.stable hu
    refine ⟨hu.close ?_ ?_ (.inr ?_), alone_record hu.alone, fun _ _ _ => trivial⟩
    · simp [closes, hf]
    · simp [completesStatus]
    · simp only [existing_eq_ok, bind_eq_ok, pure_eq_ok, Prod.mk.injEq] at h
      obtain ⟨w, hw, -, rfl⟩ := h
      have hkey := (Table.find?_mem hw).2
      have hmarked := unprocessed_markWebhook hu.row (g := fun w => { w with
        processingStatus := .processed
        processedAt := if WebhookProcessingStatus.processed = .processed then some i.now
          else w.processedAt
        errorMessage := ((none : Option Failure).map Failure.message).or w.errorMessage
        retryCount := if (none : Option Failure).isSome then w.retryCount + 1 else w.retryCount })
        (fun _ => rfl) fun _ => rfl
      exact hmarked

theorem failing_holds {e : Failure} {Q : Except Failure Unit → ShopJournal → Prop}
    (hQ : ∀ r u, Q r u) (ht : AtWork id c 0 row t) :
    DeliveryHolds id c Q ((markWebhook id .failed (some e)).bind fun _ => .done (.error e)) t := by
  have hclosed : ∀ i s, AppliedOnce id (t.record c (.payment (.markWebhook id .failed)) i s) := by
    intro i s
    refine ht.close ?_ ?_ (.inl rfl)
    · simp [closes]
    · simp [completesStatus]
  refine holds_journaledAtomic fun u hu _ i _ => ?_
  obtain rfl := hu.2 ht.busy
  refine ⟨fun _ _ => ?_, fun _ _ _ _ => ?_⟩
  · exact ⟨hclosed i _, alone_record ht.alone, fun _ _ _ => hQ _ _⟩
  · exact ⟨hclosed i _, alone_record ht.alone, fun _ _ _ => hQ _ _⟩

theorem afterStatus_holds {paymentId : ℕ} (ht : AtWork id c 1 row t) :
    DeliveryHolds id c (Handled id c row)
      ((audit paymentId "webhook" none none none).bind fun _ => markWebhook id .processed none) t := by
  refine holds_journaledAtomic fun u hu _ i ho => ?_
  have hu := ht.stable hu
  have hfails : i.fails = false := ho.2 (hu.applied rfl)
  refine ⟨fun e he => ?_, fun b s' _ hs => ?_⟩
  · rcases he with hf | he
    · rw [hfails] at hf
      cases hf
    · cases he
  · obtain ⟨-, rfl⟩ := Prod.mk.inj (Except.ok.inj hs)
    have hu' := hu.neutral (l := .payment (.createAudit paymentId "webhook")) (i := i) rfl
      (s := { u.state with paymentAudits := u.state.paymentAudits.insert fun n =>
        ⟨n, paymentId, "webhook", none, none, none⟩ }) rfl
    exact ⟨hu'.inv, alone_record hu.alone, marking_holds hu'⟩

theorem neutral_query {α : Type} {l : ShopCall} {f : ShopInput → Shop → α} (hl : neutral l = true) :
    Neutral (query l f) := every_query fun _ _ _ => ⟨hl, rfl⟩

theorem neutral_audit (paymentId : ℕ) (action : String) (actorId : Option ℕ)
    (before after : Option PaymentStatus) : Neutral (audit paymentId action actorId before after) := by
  refine every_atomic (fun _ _ _ => ⟨rfl, rfl⟩) fun i s b s' _ _ h => ?_
  cases h
  exact ⟨rfl, rfl⟩

theorem neutral_updatePayment (paymentId : ℕ) (before : PaymentStatus) (write : PaymentWrite) :
    Neutral (updatePayment paymentId before write) := by
  refine every_atomic (fun _ _ _ => ⟨rfl, rfl⟩) fun i s b s' _ _ h => ?_
  simp only [writePayment, bind_eq_ok, pure_eq_ok, Prod.mk.injEq] at h
  obtain ⟨_, _, _, _, _, rfl⟩ := h
  exact ⟨rfl, rfl⟩

theorem neutral_findWebhookPayment (entity : Option WebhookEntity) :
    Neutral (findWebhookPayment entity) := by
  refine Prog.Every.bind ?_ fun found => ?_
  · unfold findNamedPayment
    split
    · trivial
    · exact neutral_query rfl
  · split
    · trivial
    · exact neutral_query rfl
    · trivial

theorem sequential_findWebhookPayment (entity : Option WebhookEntity) :
    (findWebhookPayment entity).Sequential := by
  refine Prog.Sequential.bind ?_ fun found => ?_
  · unfold findNamedPayment
    split
    · trivial
    · exact Prog.sequential_call _ _
  · split
    · trivial
    · exact Prog.sequential_call _ _
    · trivial

theorem applying_holds {payment : Payment} {status : PaymentStatus} {gatewayId : Option String}
    (ht : AtWork id c 0 row t) : DeliveryHolds id c (Handled id c row)
      ((applyGatewayStatus payment.id status gatewayId).bind fun _ =>
        (audit payment.id "webhook" none none none).bind fun _ => markWebhook id .processed none) t := by
  have herr : ∀ e u, AtWork id c 0 row u → Handled id c row (.error e) u := fun _ _ h => h
  simp only [applyGatewayStatus, requirePayment, Prog.bind_eq, Prog.bind_assoc]
  refine holds_neutralBind (Prog.sequential_call _ _) (neutral_query rfl) ht (fun found u hu => ?_) herr
  refine holds_neutralBind (Prog.sequential_orThrow _ _) (Prog.every_orThrow _ _) hu
    (fun before u hu => ?_) herr
  refine holds_neutralBind (Prog.sequential_call _ _) (neutral_updatePayment _ _ _) hu
    (fun updated u hu => ?_) herr
  refine holds_neutralBind (Prog.sequential_call _ _) (neutral_audit _ _ _ _ _) hu (fun _ u hu => ?_) herr
  refine holds_journaledAtomic fun v hv _ i _ => ?_
  have hv := hu.stable hv
  refine ⟨fun e he => ?_, fun b s' hf hs => ?_⟩
  · have hfails : i.fails = true := by
      rcases he with hf | he
      · exact hf
      · cases he
    have hv' : AtWork id c 0 row
        (v.record c (.payment (.createEvent payment.id ("payment." ++ status.text))) i v.state) := by
      refine hv.record ?_ rfl ?_ (Nat.zero_le 1) rfl
      · simp [takesUp]
      · simp [completesStatus, hfails]
    exact ⟨hv'.inv, alone_record hv.alone, fun w hw _ => hv'.stable hw⟩
  · obtain ⟨-, rfl⟩ := Prod.mk.inj (Except.ok.inj hs)
    have hv' : AtWork id c 1 row
        (v.record c (.payment (.createEvent payment.id ("payment." ++ status.text))) i
          { v.state with paymentEvents := v.state.paymentEvents.insert fun n =>
            ⟨n, payment.id, "payment." ++ status.text⟩ }) := by
      refine hv.record ?_ rfl ?_ (Nat.le_refl 1) rfl
      · simp [takesUp]
      · simp [completesStatus, hf]
    exact ⟨hv'.inv, alone_record hv.alone, afterStatus_holds hv'⟩

theorem handling_holds (ht : AtWork id c 0 row t) :
    DeliveryHolds id c (Handled id c row) (handleWebhook row) t := by
  have herr : ∀ e u, AtWork id c 0 row u → Handled id c row (.error e) u := fun _ _ h => h
  have hid : row.id = id := (Table.find?_mem ht.row).2
  simp only [handleWebhook, Prog.bind_eq, hid]
  refine holds_neutralBind (sequential_findWebhookPayment _) (neutral_findWebhookPayment _) ht
    (fun found u hu => ?_) herr
  cases found with
  | none => exact marking_holds hu
  | some payment =>
    simp only [settleWebhook, Prog.bind_eq, Prog.bind_assoc]
    unfold applyWebhook
    split
    · simp only [Prog.pure_eq, Prog.done_ok_bind]
      exact holds_neutralBind (Prog.sequential_call _ _) (neutral_audit _ _ _ _ _) hu
        (fun _ u hu => marking_holds hu) herr
    · simp only [Prog.bind_eq, Prog.bind_assoc]
      exact applying_holds hu

theorem reading_holds {Q : Except Failure Unit → ShopJournal → Prop} (hQ : ∀ r u, Q r u)
    (hfresh : t.own c = []) : DeliveryHolds id c Q (processWebhook id) t := by
  refine holds_journaledQuery fun u hu hi i ho => ?_
  have hidle : ∀ c', working id c' u = false := nobody_working (ho.1 rfl)
  have hown : u.own c = [] := hu.1.trans hfresh
  have hcompletions : completions (u.record c (.payment (.findWebhook id)) i u.state) = completions u := by
    rw [completions, Journaled.journal_record, List.countP_cons, if_neg (by simp [completesStatus])]
    rfl
  have hother : ∀ c', c' ≠ c →
      working id c' (u.record c (.payment (.findWebhook id)) i u.state) = false := fun c' hne => by
    rw [working_of_own (Journaled.own_record_of_ne hne)]
    exact hidle c'
  have hself : working id c (u.record c (.payment (.findWebhook id)) i u.state) =
      takesUp id ⟨c, .payment (.findWebhook id), i, u.state⟩ := by
    rw [working, Journaled.own_record_self, hown]
    simp [closes]
  have hsettled : completions u = 0 ∨ unprocessed id u.state = false := by
    rcases hi.settled with h | h | ⟨c', h⟩
    · exact .inl h
    · exact .inr h
    · rw [hidle c'] at h
      cases h
  -- whatever was read, at most this execution is at work now
  have hinv : AppliedOnce id (u.record c (.payment (.findWebhook id)) i u.state) := by
    refine ⟨hcompletions ▸ hi.once, fun a b ha hb => ?_, hcompletions ▸ hsettled.imp_right .inl⟩
    have hmine : ∀ a, working id a (u.record c (.payment (.findWebhook id)) i u.state) = true →
        a = c := fun a ha => by
      by_contra hne
      rw [hother a hne] at ha
      cases ha
    rw [hmine a ha, hmine b hb]
  refine ⟨hinv, alone_record fun c' _ => hidle c', fun _ v _ _ => hQ _ v, fun hf => ?_⟩
  split
  · exact fun v _ _ => hQ _ v
  next row hrow =>
    split
    · exact fun v _ _ => hQ _ v
    next hstatus =>
      have hup : unprocessed id u.state = true := by
        rw [unprocessed, hrow]
        simp [hstatus]
      have hwork : AtWork id c 0 row (u.record c (.payment (.findWebhook id)) i u.state) := by
        refine ⟨?_, hother, ?_, Nat.zero_le 1, fun h => (nomatch h), ?_⟩
        · rw [hself, takesUp, hup]
          simp [hf]
        · rw [hcompletions]
          refine hsettled.resolve_right ?_
          rw [hup]
          simp
        · exact (Option.filter_eq_some_iff.mp hrow).1
      rw [Prog.tryCatch_eq, Prog.journaled_bind, Prog.journaled_attempt, Prog.journaled_orElse]
      refine Holds.tryCatch (Holds.mono ?_ (handling_holds hwork)) hinv
      rintro (e | a) v - hv
      · exact failing_holds hQ hv
      · exact fun w _ _ => hQ _ w

theorem execution_holds (e : Execution) (hi : AppliedOnce id t) (hfresh : t.own c = []) :
    DeliveryHolds id c (fun _ _ => True) (e.prog id) t := by
  cases e with
  | job => exact reading_holds (fun _ _ => trivial) hfresh
  | inline =>
    rw [Execution.prog, DeliveryHolds, Prog.tryCatch_eq, Prog.journaled_bind, Prog.journaled_attempt,
      Prog.journaled_orElse]
    refine Holds.tryCatch (reading_holds (fun r u => ?_) hfresh) hi
    cases r with
    | ok _ => exact fun _ _ _ => trivial
    | error _ => exact fun _ _ _ => trivial

/-! ### Whole runs -/

/-- Whatever the schedule, if the executions of a row follow one another and none fails between the
status and the mark, `applyGatewayStatus` is completed at most once. -/
theorem applied_at_most_once (id : ℕ) (es : List Execution) (s : Shop)
    (sched : List (ℕ × ShopInput)) (hok : (delivering id es s).journaled.Admits (OneAtATime id) sched) :
    let t := ((delivering id es s).journaled.run sched).state
    t.state = ((delivering id es s).run sched).state ∧ completions t ≤ 1 := by
  refine ⟨(Pool.journaled_run _ sched).state, ?_⟩
  have hstart : AppliedOnce id (delivering id es s).journaled.state := by
    refine ⟨Nat.zero_le 1, fun a _ ha => ?_, .inl rfl⟩
    cases ha
  refine (Pool.run_each (W := deliveries id) (D := alongside id) (Q := fun _ _ _ => True) ?_ ?_ hstart
    hok).1.once
  · rintro j j' l i u u' hne - - - hg
    obtain ⟨hown, hidle⟩ := hg j' (Ne.symm hne)
    refine ⟨hown, fun hw => ?_⟩
    rw [hidle] at hw
    cases hw
  · intro j p hp
    simp only [delivering, Pool.journaled, List.getElem?_mapIdx, List.getElem?_map,
      Option.map_eq_some_iff] at hp
    obtain ⟨_, ⟨e, -, rfl⟩, rfl⟩ := hp
    exact execution_holds e hstart rfl

def capturedWebhook : Shop :=
  { pendingDesk.shop with webhooks := captureReport }

def stepsOf (threads : List ℕ) : List (ℕ × ShopInput) := threads.map fun j => (j, { reply := {} })

/-- The receiver processes the row, and then the job does. -/
theorem applied_at_most_once_in_turn :
    let sched := stepsOf (List.replicate 8 0 ++ [1])
    let t := ((delivering 0 [.inline, .job] capturedWebhook).journaled.run sched).state
    completions t = 1 ∧ t.state = ((delivering 0 [.inline, .job] capturedWebhook).run sched).state ∧
      completions t ≤ 1 :=
  ⟨by decide +kernel, applied_at_most_once 0 [.inline, .job] capturedWebhook
    (stepsOf (List.replicate 8 0 ++ [1])) (by decide +kernel)⟩

/-- Both read the row before either marks it. -/
theorem applied_twice :
    ¬ ∀ (id : ℕ) (es : List Execution) (s : Shop) (sched : List (ℕ × ShopInput)),
      (∀ a ∈ sched, a.2.fails = false) →
      completions ((delivering id es s).journaled.run sched).state ≤ 1 := by
  intro h
  have hboth := h 0 [.inline, .job] capturedWebhook
    (stepsOf ([0, 1] ++ List.replicate 7 0 ++ List.replicate 7 1)) (by decide)
  exact absurd hboth (by decide +kernel)

end ElectronicsCart.Payments
