import ElectronicsCart.Cases.Runs
import ElectronicsCart.Core.Journal
import Mathlib.Data.List.Permutation

/-!
# Extensions of one registration

`extend` reads the end date, computes a later one and writes that, with no lock.  The journal tells which
transactions went through and when each call read its plan, so what the calls would do one after the
other can be computed from it.
-/

namespace ElectronicsCart.Cases

open Interleaving Relational WarrantyService Calendar

structure ExtendRequest where
  actorId : ℕ
  planId : ℕ
  purchaseAmount : Option ℚ := none
deriving DecidableEq

def extendPool (registrationId : ℕ) (requests : List ExtendRequest) (s : CareState) :
    CarePool WarrantyExtension :=
  ⟨requests.map fun r => extend r.actorId registrationId r.planId r.purchaseAmount, s⟩

abbrev CareJournal := Journaled CareCall CareInput CareState

def purchases (x : Entry CareCall CareInput CareState × CareState) : Bool :=
  match x.1.label with
  | .extend _ _ => x.2.extensions.rows.length != x.1.before.extensions.rows.length
  | _ => false

/-- The calls whose extension went through, in the order of their transactions. -/
def bought (t : CareJournal) : List ℕ := ((t.trace.filter purchases).map fun x => x.1.caller).reverse

def readsPlan : CareCall → Bool
  | .findPlan _ => true
  | _ => false

/-- The `new Date()` of a call, which comes with its plan. -/
def planTime (caller : ℕ) (t : CareJournal) : ℕ :=
  (((t.turns caller).find? fun x => readsPlan x.1.label).map fun x => x.1.input.now).getD 0

/-- The end date that the extension of a caller gives when the present one is `endDate`. -/
def lengthen (plans : Table WarrantyPlan) (requests : List ExtendRequest) (t : CareJournal)
    (endDate caller : ℕ) : ℕ :=
  match requests[caller]?.bind fun r => plans.find? r.planId with
  | some plan => toDate (extensionEnd plan endDate (planTime caller t))
  | none => endDate

/-- The end date is `start` after the extensions that went through, one after the other in some
order. -/
def Serial (registrationId start : ℕ) (plans : Table WarrantyPlan) (requests : List ExtendRequest)
    (t : CareJournal) : Prop :=
  ∃ order : List ℕ, order.Perm (bought t) ∧ ∃ r, t.state.registrations.find? registrationId = some r ∧
    r.endDate = order.foldl (lengthen plans requests t) start

/-- The start that a call has computed is the one that the present end date gives. -/
def Timely (registrationId : ℕ) : ℕ × CareCall → CareInput → CareJournal → Prop
  | (caller, .extend _ endDate), i, t => i.fails = true ∨
    ∀ r, t.state.registrations.find? registrationId = some r →
      extensionStart endDate (planTime caller t) = extensionStart r.endDate (planTime caller t)
  | _, _, _ => True

/-! ### The journal -/

variable {t u : CareJournal} {s : CareState} {c caller : ℕ} {l : CareCall} {i : CareInput}
  {plans : Table WarrantyPlan} {requests : List ExtendRequest} {registrationId endDate : ℕ}

theorem mem_bought : c ∈ bought t ↔ ∃ x ∈ t.turns c, purchases x = true := by
  simp only [bought, List.mem_reverse, List.mem_map, List.mem_filter, Journaled.mem_turns]
  constructor
  · rintro ⟨x, ⟨hx, hp⟩, rfl⟩
    exact ⟨x, ⟨hx, rfl⟩, hp⟩
  · rintro ⟨x, ⟨hx, rfl⟩, hp⟩
    exact ⟨x, ⟨hx, hp⟩, rfl⟩

theorem mem_bought_of_turns (h : u.turns c = t.turns c) : c ∈ bought u ↔ c ∈ bought t := by
  rw [mem_bought, mem_bought, h]

theorem planTime_of_turns (h : u.turns c = t.turns c) : planTime c u = planTime c t := by
  rw [planTime, planTime, h]

theorem bought_record (h : purchases (⟨caller, l, i, t.state⟩, s) = false) :
    bought (t.record caller l i s) = bought t := by
  rw [bought, Journaled.trace_record, List.filter_cons_of_neg (by simp [h])]
  rfl

theorem bought_purchase (h : purchases (⟨caller, l, i, t.state⟩, s) = true) :
    bought (t.record caller l i s) = bought t ++ [caller] := by
  rw [bought, Journaled.trace_record, List.filter_cons_of_pos h, List.map_cons, List.reverse_cons]
  rfl

theorem planTime_record (h : c = caller → readsPlan l = false) :
    planTime c (t.record caller l i s) = planTime c t := by
  by_cases hc : c = caller
  · subst hc
    rw [planTime, Journaled.turns_record_self, List.find?_cons_of_neg (by simp [h rfl])]
    rfl
  · exact planTime_of_turns (Journaled.turns_record_of_ne hc)

theorem planTime_read (h : readsPlan l = true) : planTime c (t.record c l i s) = i.now := by
  rw [planTime, Journaled.turns_record_self, List.find?_cons_of_pos (by exact h)]
  rfl

theorem lengthen_record (h : c = caller → readsPlan l = false) :
    lengthen plans requests (t.record caller l i s) endDate c = lengthen plans requests t endDate c := by
  rw [lengthen, lengthen, planTime_record h]

/-! ### The end date -/

structure Extended (plans : Table WarrantyPlan) (registrationId start : ℕ) (requests : List ExtendRequest)
    (t : CareJournal) : Prop where
  samePlans : t.state.plans = plans
  endDate : ∃ r, t.state.registrations.find? registrationId = some r ∧
    r.endDate = (bought t).foldl (lengthen plans requests t) start
  once : (bought t).Nodup

variable {α : Type} {start now : ℕ} {plan : WarrantyPlan}

theorem foldl_lengthen_record (h : readsPlan l = true → caller ∉ bought t) (start : ℕ) :
    (bought t).foldl (lengthen plans requests (t.record caller l i s)) start =
      (bought t).foldl (lengthen plans requests t) start := by
  apply List.foldl_ext
  intro endDate c hc
  apply lengthen_record
  intro hcaller
  by_contra hread
  exact h (by simpa using hread) (hcaller ▸ hc)

theorem Extended.quiet (h : Extended plans registrationId start requests t)
    (hp : purchases (⟨caller, l, i, t.state⟩, s) = false) (hl : readsPlan l = true → caller ∉ bought t)
    (hplans : s.plans = t.state.plans) (hregs : s.registrations = t.state.registrations) :
    Extended plans registrationId start requests (t.record caller l i s) where
  samePlans := hplans.trans h.samePlans
  endDate := by
    obtain ⟨r, hr, hend⟩ := h.endDate
    refine ⟨r, ?_, ?_⟩
    · rw [Journaled.state_record, hregs]
      exact hr
    · rw [bought_record hp, foldl_lengthen_record hl]
      exact hend
  once := by
    rw [bought_record hp]
    exact h.once

theorem Extended.purchase {oldEnd : ℕ} {r : ExtendRequest} {row : WarrantyExtension}
    (h : Extended plans registrationId start requests t) (hr : requests[caller]? = some r)
    (hplan : plans.find? r.planId = some plan) (hnew : caller ∉ bought t)
    (htimely : ∀ r, t.state.registrations.find? registrationId = some r →
      extensionStart oldEnd (planTime caller t) = extensionStart r.endDate (planTime caller t))
    (hw : writeExtension registrationId plan (extensionStart oldEnd (planTime caller t))
      (extensionEnd plan oldEnd (planTime caller t)) r.purchaseAmount t.state = .ok (row, s)) :
    Extended plans registrationId start requests
      (t.record caller (.extend registrationId oldEnd) i s) ∧
      caller ∈ bought (t.record caller (.extend registrationId oldEnd) i s) := by
  obtain ⟨-, -, mk, hmk, -, -, hs⟩ := writeExtension_cases hw
  have hbought : bought (t.record caller (.extend registrationId oldEnd) i s) = bought t ++ [caller] :=
    bought_purchase (by simp [purchases, hs, Table.insert])
  obtain ⟨reg, hreg, hend⟩ := h.endDate
  refine ⟨⟨?_, ?_, ?_⟩, ?_⟩
  · rw [Journaled.state_record, hs]
    exact h.samePlans
  · let finish := toDate (extensionEnd plan oldEnd (planTime caller t))
    refine ⟨setEndDate finish reg, ?_, ?_⟩
    · rw [Journaled.state_record, hs]
      exact Table.find?_update_self (key_setEndDate finish) hreg
    rw [hbought, List.foldl_append, foldl_lengthen_record (fun h => by cases h), ← hend]
    show finish = lengthen plans requests _ reg.endDate caller
    rw [lengthen_record fun _ => rfl, lengthen, hr, Option.bind_some, hplan]
    simp only [finish, extensionEnd, htimely reg hreg]
  · rw [hbought]
    refine List.nodup_append.mpr ⟨h.once, List.nodup_singleton _, ?_⟩
    intro a ha b hb hab
    rw [hab, List.mem_singleton.mp hb] at ha
    exact hnew ha
  · rw [hbought]
    exact List.mem_append_right _ (List.mem_singleton_self _)

/-! ### One call -/

def extensionWorld (plans : Table WarrantyPlan) (registrationId start : ℕ) (requests : List ExtendRequest) :
    World (ℕ × CareCall) CareInput CareJournal :=
  ⟨Timely registrationId, Extended plans registrationId start requests⟩

/-- A thread enters its calls under its own name. -/
def extending (caller : ℕ) : Discipline (ℕ × CareCall) CareInput CareJournal where
  rely t u := u.turns caller = t.turns caller
  guar _ _ t u := ∀ other, other ≠ caller → u.turns other = t.turns other
  refl _ := rfl
  trans h h' := h'.trans h

abbrev ExtensionHolds {α : Type} (plans : Table WarrantyPlan) (registrationId start : ℕ)
    (requests : List ExtendRequest) (caller : ℕ) (Q : Except Failure α → CareJournal → Prop)
    (p : CareProg α) (t : CareJournal) : Prop :=
  Holds (extensionWorld plans registrationId start requests) .silent (extending caller) Q
    (p.journaled caller) t

theorem guar_record : (extending caller).guar (caller, l) i t (t.record caller l i s) :=
  fun _ hne => Journaled.turns_record_of_ne hne

theorem record_bought (hi : Extended plans registrationId start requests t) (ht : caller ∈ bought t)
    (hl : readsPlan l = false) (hp : purchases (⟨caller, l, i, t.state⟩, s) = false)
    (hplans : s.plans = t.state.plans) (hregs : s.registrations = t.state.registrations) :
    Extended plans registrationId start requests (t.record caller l i s) ∧
      (extending caller).guar (caller, l) i t (t.record caller l i s) ∧
      caller ∈ bought (t.record caller l i s) := by
  refine ⟨hi.quiet hp (fun hread => ?_) hplans hregs, guar_record, ?_⟩
  · rw [hl] at hread
    cases hread
  · rw [bought_record hp]
    exact ht

theorem rest_holds {actorId : ℕ} {ext : WarrantyExtension} {cached : Bool}
    (ht : caller ∈ bought t) :
    ExtensionHolds plans registrationId start requests caller (fun _ u => caller ∈ bought u)
      ((repoAudit {} "warranty.extend" (some actorId) none).bind fun _ =>
        if cached = true then invalidateCache.bind fun _ => pure ext else pure ext) t := by
  have hstable : ∀ {u v}, (extending caller).rely u v → caller ∈ bought u → caller ∈ bought v :=
    fun hr h => (mem_bought_of_turns hr).mpr h
  refine holds_journaledAtomic fun u hu hi i _ => ⟨fun e _ => ?_, fun b s _ hs => ?_⟩
  · obtain ⟨hinv, hguar, hb⟩ := record_bought (l := .audit {}) (i := i) hi (hstable hu ht) rfl rfl rfl rfl
    exact ⟨hinv, hguar, fun v hv _ => hstable hv hb⟩
  · obtain ⟨-, hs⟩ := writeServiceAudit_cases hs
    obtain ⟨hinv, hguar, hb⟩ := record_bought (l := .audit {}) (i := i) (s := s) hi (hstable hu ht) rfl rfl
      (by rw [hs]) (by rw [hs])
    refine ⟨hinv, hguar, ?_⟩
    split
    · refine holds_journaledAtomic fun v hv hi i _ => ⟨fun e _ => ?_, fun b s _ hs => ?_⟩
      · obtain ⟨hinv, hguar, hb⟩ := record_bought (l := .invalidate) (i := i) hi (hstable hv hb) rfl rfl rfl rfl
        exact ⟨hinv, hguar, fun w hw _ => hstable hw hb⟩
      · obtain ⟨-, rfl⟩ := Prod.mk.inj (Except.ok.inj hs)
        obtain ⟨hinv, hguar, hb⟩ := record_bought (l := .invalidate) (i := i) hi (hstable hv hb) rfl rfl rfl rfl
        exact ⟨hinv, hguar, fun w hw _ => hstable hw hb⟩
    · exact fun v hv _ => hstable hv hb

theorem record_read (hi : Extended plans registrationId start requests t) (ht : caller ∉ bought t)
    (hp : purchases (⟨caller, l, i, t.state⟩, t.state) = false) :
    Extended plans registrationId start requests (t.record caller l i t.state) ∧
      (extending caller).guar (caller, l) i t (t.record caller l i t.state) ∧
      caller ∉ bought (t.record caller l i t.state) := by
  refine ⟨hi.quiet hp (fun _ => ht) rfl rfl, guar_record, ?_⟩
  rw [bought_record hp]
  exact ht

theorem extend_holds {r : ExtendRequest} (hr : requests[caller]? = some r) (ht : caller ∉ bought t) :
    ExtensionHolds plans registrationId start requests caller
      (fun res u => ∀ ext, res = .ok ext → caller ∈ bought u)
      (extend r.actorId registrationId r.planId r.purchaseAmount) t := by
  have hstable : ∀ {u v}, (extending caller).rely u v → caller ∉ bought u → caller ∉ bought v :=
    fun hr h hv => h ((mem_bought_of_turns hr).mp hv)
  -- the registration
  refine holds_journaledQuery fun u hu hi i _ => ?_
  obtain ⟨hinv, hguar, hb⟩ := record_read (l := .findRegistration registrationId) (i := i) hi
    (hstable hu ht) rfl
  refine ⟨hinv, hguar, ?_, fun _ => ?_⟩
  · intro _ v _ _ ext hext
    cases hext
  apply holds_journaledOrThrow _ fun _ _ _ _ _ hext => by cases hext
  intro reg _
  -- the plan, and the time
  refine holds_journaledQuery fun v hv hi' i' _ => ?_
  obtain ⟨hinv', hguar', hb'⟩ := record_read (l := .findPlan r.planId) (i := i') hi' (hstable hv hb) rfl
  refine ⟨hinv', hguar', ?_, fun _ => ?_⟩
  · intro _ w _ _ ext hext
    cases hext
  have htime : planTime caller (v.record caller (.findPlan r.planId) i' v.state) = i'.now := planTime_read rfl
  apply holds_journaledOrThrow _ fun _ _ _ _ _ hext => by cases hext
  intro plan hplan
  obtain ⟨hplan, -⟩ := Option.filter_eq_some_iff.mp hplan
  obtain ⟨hplan, -⟩ := Option.filter_eq_some_iff.mp hplan
  rw [hi'.samePlans] at hplan
  -- the transaction
  refine holds_journaledAtomic fun w hw hi₂ i₂ ho => ?_
  have hb₂ := hstable hw hb'
  rw [← planTime_of_turns hw] at htime
  refine ⟨fun e _ => ?_, fun row s hf hs => ?_⟩
  · have hsame : purchases (⟨caller, .extend registrationId reg.endDate, i₂, w.state⟩, w.state) = false := by
      simp [purchases]
    obtain ⟨hinv₂, hguar₂, -⟩ := record_read hi₂ hb₂ hsame
    refine ⟨hinv₂, hguar₂, ?_⟩
    intro x _ _ ext hext
    cases hext
  · have htimely := ho.resolve_left (by simp [hf])
    simp only [← htime] at hs
    obtain ⟨hinv₂, hbought⟩ := hi₂.purchase hr hplan hb₂ htimely hs
    exact ⟨hinv₂, guar_record, (rest_holds hbought).mono fun _ _ _ h _ _ => h⟩

/-! ### Whole runs -/

/-- Whatever the order of the calls, and whichever of them fail, the extensions that went through add up,
as long as each one starts where the present end date says; every call that answers has gone through. -/
theorem extensions_serial (registrationId : ℕ) (requests : List ExtendRequest) (s : CareState)
    (sched : List (ℕ × CareInput)) (reg : WarrantyRegistration)
    (hreg : s.registrations.find? registrationId = some reg)
    (hok : (extendPool registrationId requests s).journaled.Admits (Timely registrationId) sched) :
    let t := ((extendPool registrationId requests s).journaled.run sched).state
    t.state = ((extendPool registrationId requests s).run sched).state ∧
      Serial registrationId reg.endDate s.plans requests t ∧ (bought t).Nodup ∧
      ∀ caller < requests.length, ∀ ext, ((extendPool registrationId requests s).run sched).threads[caller]? =
        some (.done (.ok ext)) → caller ∈ bought t := by
  intro t
  have hkeeps := (extendPool registrationId requests s).journaled_run sched
  have hstart : Extended s.plans registrationId reg.endDate requests
      (extendPool registrationId requests s).journaled.state :=
    ⟨rfl, ⟨reg, hreg, rfl⟩, List.nodup_nil⟩
  have hthreads : ∀ j p, (extendPool registrationId requests s).journaled.threads[j]? = some p →
      Holds (extensionWorld s.plans registrationId reg.endDate requests) .silent (extending j)
        (fun res u => ∀ ext, res = .ok ext → j ∈ bought u) p
        (extendPool registrationId requests s).journaled.state := by
    intro j p hp
    simp only [extendPool, Pool.journaled, List.getElem?_mapIdx, List.getElem?_map, Option.map_map,
      Option.map_eq_some_iff] at hp
    obtain ⟨r, hr, rfl⟩ := hp
    refine extend_holds hr ?_
    exact List.not_mem_nil
  have hrely : ∀ {j j' l i} {t u : CareJournal}, j ≠ j' → (extending j).guar l i t u →
      (extending j').rely t u := fun hne hg => hg _ hne.symm
  obtain ⟨hinv, hdone⟩ := Pool.run_each (fun hne _ _ _ hg => hrely hne hg) hthreads hstart hok
  refine ⟨hkeeps.state, ?_, hinv.once, ?_⟩
  · obtain ⟨r, hr, hend⟩ := hinv.endDate
    exact ⟨bought t, .refl _, r, hr, hend⟩
  · intro caller hlt ext hext
    refine hdone caller _ ?_ (hkeeps.done hext) ext rfl
    simpa [extendPool, Pool.journaled] using hlt

/-- A registration that ends after ten days, and a plan of a year. -/
def tenDays : CareState where
  plans := Table.empty.insert fun n => { id := n, durationMonths := 12 }
  registrations := Table.empty.insert fun n => { id := n, endDate := 10 * msPerDay }

def twoExtensions : List ExtendRequest := [⟨1, 0, none⟩, ⟨2, 0, none⟩]

instance (registrationId : ℕ) (c : ℕ × CareCall) (i : CareInput) (t : CareJournal) :
    Decidable (Timely registrationId c i t) := by
  unfold Timely
  split <;> infer_instance

/-- The second call reads the end date when the first has written it. -/
theorem extensions_serial_in_turn :
    let p := extendPool 0 twoExtensions tenDays
    let turns := careTurns 0 [0, 0, 0, 1, 0, 1, 1, 1]
    Serial 0 (10 * msPerDay) tenDays.plans twoExtensions (p.journaled.run turns).state ∧
      bought (p.journaled.run turns).state = [0, 1] ∧
      ((p.run turns).state.registrations.find? 0).map WarrantyRegistration.endDate =
        some (740 * msPerDay) := by
  have hserial := extensions_serial 0 twoExtensions tenDays (careTurns 0 [0, 0, 0, 1, 0, 1, 1, 1]) _ rfl
    (by decide +kernel)
  exact ⟨hserial.2.1, by decide +kernel, by decide +kernel⟩

/-- Both calls read the first end date, and one of the years is lost. -/
theorem extension_lost : ¬ ∀ registrationId requests s sched reg,
    s.registrations.find? registrationId = some reg →
    Serial registrationId reg.endDate s.plans requests
      ((extendPool registrationId requests s).journaled.run sched).state := by
  intro h
  obtain ⟨order, horder, r, hr, hend⟩ :=
    h 0 twoExtensions tenDays (careTurns 0 [0, 1, 0, 1, 0, 1, 0, 1]) _ rfl
  let t := ((extendPool 0 twoExtensions tenDays).journaled.run (careTurns 0 [0, 1, 0, 1, 0, 1, 0, 1])).state
  have hlost : ∀ order ∈ (bought t).permutations',
      (t.state.registrations.find? 0).map WarrantyRegistration.endDate ≠
        some (order.foldl (lengthen tenDays.plans twoExtensions t) (10 * msPerDay)) := by decide +kernel
  refine hlost order (List.mem_permutations'.mpr horder) ?_
  rw [hr, Option.map_some, hend]

end ElectronicsCart.Cases
