import ElectronicsCart.Cases.Guarding

/-!
# One open claim of a registration

The lock of `createClaim` guards which claims a registration has, the one of `patchClaim` the status of
its claim.  Nobody opens a claim again, so a registration that had no open claim when it was looked up
has none when the claim is created.  The locks are named by the spelling of an id, so this takes that
nobody holds one under another spelling of the same id.
-/

namespace ElectronicsCart.Cases

open Interleaving Relational WarrantyService

def OneOpenClaim (s : CareState) : Prop :=
  ∀ registrationId, ∀ r ∈ s.claims.rows, ∀ r' ∈ s.claims.rows, isOpenFor registrationId r = true →
    isOpenFor registrationId r' = true → r.id = r'.id

structure Later (r r' : WarrantyClaim) : Prop where
  id : r'.id = r.id
  registration : r'.registrationId = r.registrationId
  closed : ∀ registrationId, isOpenFor registrationId r' = true → isOpenFor registrationId r = true

theorem Later.refl (r : WarrantyClaim) : Later r r := ⟨rfl, rfl, fun _ h => h⟩

theorem Later.trans {a b c : WarrantyClaim} (h : Later a b) (h' : Later b c) : Later a c where
  id := h'.id.trans h.id
  registration := h'.registration.trans h.registration
  closed := fun n hn => h.closed n (h'.closed n hn)

/-- The claims stay, and none is opened again. -/
def ClaimsGoOn (s s' : CareState) : Prop :=
  ∀ r ∈ s.claims.rows, ∃ r' ∈ s'.claims.rows, Later r r'

def claimIds (registrationId : ℕ) (s : CareState) : List ℕ :=
  (s.claims.rows.filter fun r => r.registrationId == registrationId).map WarrantyClaim.id

/-- The status of a claim; one that does not exist is as good as submitted. -/
def claimStatus (id : ℕ) (s : CareState) : CaseStatus :=
  ((s.claims.find? id).map WarrantyClaim.status).getD .submitted

def CareLock.subject (uuids : String → Option ℕ) : CareLock → Option (ℕ ⊕ ℕ)
  | .claim text => (uuids text).map .inl
  | .claimApprove text => (uuids text).map .inr
  | _ => none

def CareCall.acquired? : CareCall → Option CareLock
  | .acquire key _ => some key
  | _ => none

/-- When a lock is asked for, nobody holds one on the same row under another spelling. -/
def SpelledAlike (uuids : String → Option ℕ) (l : CareCall) (_ : CareInput) (s : CareState) : Prop :=
  Protection.AskedAlike (CareLock.subject uuids) CareCall.acquired? l s

def claimView (uuids : String → Option ℕ) : CareLock → CareState → List ℕ × CaseStatus
  | .claim text, s => (((uuids text).map (claimIds · s)).getD [], .submitted)
  | .claimApprove text, s => ([], ((uuids text).map (claimStatus · s)).getD .submitted)
  | _, _ => ([], .submitted)

/-- What the locks on a registration and on a claim guard. -/
def claimProtection (uuids : String → Option ℕ) :
    Protection CareCall CareState CareLock (List ℕ × CaseStatus) where
  view := claimView uuids
  frame := ClaimsGoOn
  refl _ r hr := ⟨r, hr, .refl r⟩
  trans h h' r hr := by
    obtain ⟨r', hr', hl⟩ := h r hr
    obtain ⟨r'', hr'', hl'⟩ := h' r' hr'
    exact ⟨r'', hr'', hl.trans hl'⟩
  view_setLocks key _ _ := by cases key <;> rfl
  frame_setLocks _ _ r hr := ⟨r, hr, .refl r⟩

def claimWorld (uuids : String → Option ℕ) : World CareCall CareInput CareState :=
  ⟨SpelledAlike uuids, fun s => OneOpenClaim s ∧ Protection.OneHeld CareCall (CareLock.subject uuids) s⟩

variable {uuids : String → Option ℕ} {s s' t u : CareState} {token registrationId : ℕ}
  {regId claimId : UuidText uuids} {status : CaseStatus} {l : CareCall} {i : CareInput} {α β : Type}

abbrev claimDiscipline (uuids : String → Option ℕ) (token : ℕ) :
    Discipline CareCall CareInput CareState :=
  (claimProtection uuids).discipline token

theorem claimView_of_eq (h : s'.claims = s.claims) (key : CareLock) :
    claimView uuids key s' = claimView uuids key s := by
  cases key <;> simp only [claimView, claimIds, claimStatus, h]

theorem oneOpenClaim_of_eq (h : OneOpenClaim s) (hc : s'.claims = s.claims) : OneOpenClaim s' := by
  rw [OneOpenClaim, hc]
  exact h

theorem claimGuarding : Guarding (claimProtection uuids) (claimWorld uuids) where
  frame h r hr := ⟨r, h.claims ▸ hr, .refl r⟩
  view key h := claimView_of_eq h.claims key
  inv h hl hi := ⟨oneOpenClaim_of_eq hi.1 h.claims, Protection.oneHeld_of_eq hi.2 hl⟩
  take hok _ hi := ⟨oneOpenClaim_of_eq hi.1 rfl, Protection.oneHeld_take hi.2 (hok _ rfl)⟩
  drop {key token s} hi := by
    refine ⟨oneOpenClaim_of_eq hi.1 ?_, Protection.oneHeld_drop hi.2⟩
    rcases LockService.drop_cases (L := CareCall) key token s with ⟨-, hd⟩ | hd <;> rw [hd]
    rfl

/-! ### What the holder of a lock knows -/

def Reserved (token : ℕ) (regId : UuidText uuids) (s : CareState) : Prop :=
  s.locks (.claim regId.text) = some token

def Unclaimed (token : ℕ) (regId : UuidText uuids) (s : CareState) : Prop :=
  Reserved token regId s ∧ ∀ r ∈ s.claims.rows, isOpenFor regId.id r = false

def Standing (token : ℕ) (claimId : UuidText uuids) (status : CaseStatus) (s : CareState) : Prop :=
  s.locks (.claimApprove claimId.text) = some token ∧
    ∃ r, s.claims.find? claimId.id = some r ∧ r.status = status

theorem subject_claim (regId : UuidText uuids) :
    (CareLock.claim regId.text).subject uuids = some (.inl regId.id) := by
  rw [CareLock.subject, regId.reads]
  rfl

theorem subject_claimApprove (claimId : UuidText uuids) :
    (CareLock.claimApprove claimId.text).subject uuids = some (.inr claimId.id) := by
  rw [CareLock.subject, claimId.reads]
  rfl

theorem claimView_claim (regId : UuidText uuids) (s : CareState) :
    claimView uuids (.claim regId.text) s = (claimIds regId.id s, .submitted) := by
  rw [claimView, regId.reads]
  rfl

theorem claimView_claimApprove (claimId : UuidText uuids) (s : CareState) :
    claimView uuids (.claimApprove claimId.text) s = ([], claimStatus claimId.id s) := by
  rw [claimView, claimId.reads]
  rfl

theorem steady_reserved : Steady (claimProtection uuids) token (Reserved token regId) where
  rely h hs := (h.2 _ hs).1
  calm _ hl hs := by rw [Reserved, hl]; exact hs

theorem steady_unclaimed : Steady (claimProtection uuids) token (Unclaimed token regId) where
  rely := by
    rintro t t' h ⟨hheld, hnone⟩
    obtain ⟨hheld', hview⟩ := h.2 _ hheld
    refine ⟨hheld', ?_⟩
    intro r' hr'
    by_contra hopen
    have hopen' : isOpenFor regId.id r' = true := by simpa using hopen
    -- the claim was there before, and nobody opens one again
    have hids : claimIds regId.id t' = claimIds regId.id t := by
      have hboth : claimView uuids (.claim regId.text) t' = claimView uuids (.claim regId.text) t := hview
      rw [claimView_claim, claimView_claim] at hboth
      exact congrArg Prod.fst hboth
    have hreg : r'.registrationId = regId.id := by
      simp only [isOpenFor, Bool.and_eq_true, beq_iff_eq] at hopen'
      exact hopen'.1.1
    have hmem : r'.id ∈ claimIds regId.id t := by
      rw [← hids]
      exact List.mem_map.mpr ⟨r', List.mem_filter.mpr ⟨hr', by simp [hreg]⟩, rfl⟩
    obtain ⟨r, hr, hid⟩ := List.mem_map.mp hmem
    have hrm := (List.mem_filter.mp hr).1
    obtain ⟨r'', hr'', hl⟩ := h.1 r hrm
    obtain rfl : r'' = r' := Table.eq_of_key_eq hr'' hr' (hl.id.trans hid)
    have hwas := hl.closed _ hopen'
    rw [hnone r hrm] at hwas
    cases hwas
  calm hc hl hs := ⟨steady_reserved.calm hc hl hs.1, fun r hr => hs.2 r (hc.claims ▸ hr)⟩

theorem steady_standing : Steady (claimProtection uuids) token (Standing token claimId status) where
  rely := by
    rintro t t' h ⟨hheld, r, hr, rfl⟩
    obtain ⟨hheld', hview⟩ := h.2 _ hheld
    refine ⟨hheld', ?_⟩
    obtain ⟨hmem, hkey⟩ := Table.find?_mem hr
    obtain ⟨r', hr', hl⟩ := h.1 r hmem
    have hfound : t'.claims.find? claimId.id = some r' :=
      Table.find?_eq_some_iff.mpr ⟨hr', hl.id.trans hkey⟩
    have hstatus : claimStatus claimId.id t' = claimStatus claimId.id t := by
      have hboth : claimView uuids (.claimApprove claimId.text) t' =
          claimView uuids (.claimApprove claimId.text) t := hview
      rw [claimView_claimApprove, claimView_claimApprove] at hboth
      exact congrArg Prod.snd hboth
    rw [claimStatus, claimStatus, hfound, hr] at hstatus
    exact ⟨r', hfound, hstatus⟩
  calm hc hl hs := by
    rw [Standing, hc.claims, hl]
    exact hs

/-! ### `createClaim` -/

theorem claimStatus_insert {mk : ℕ → WarrantyClaim} {hmk : ∀ n, key (mk n) = n}
    (hnew : ∀ n, (mk n).status = .submitted) (n : ℕ) :
    claimStatus n { s with claims := s.claims.insert mk hmk } = claimStatus n s := by
  rw [claimStatus, claimStatus, Table.find?_insert hmk]
  split
  next hn =>
    subst hn
    have hnone : s.claims.find? s.claims.next = none := by
      rw [Table.find?_eq_none_iff]
      exact fun r hr => (s.claims.fresh r hr).ne
    rw [hnone]
    exact hnew _
  next => rfl

theorem insertClaim_keeps {customerId : ℕ} {reg : WarrantyRegistration} {amount : Option ℚ} {now : ℕ}
    {row : WarrantyClaim} (hid : reg.id = regId.id) (hs : Unclaimed token regId s)
    (hinv : (claimWorld uuids).inv s) (h : insertClaim customerId reg amount now s = .ok (row, u)) :
    (claimWorld uuids).inv u ∧ (claimDiscipline uuids token).guar l i s u := by
  simp only [insertClaim, bind_eq_ok, check_eq_ok, pure_eq_ok, Prod.mk.injEq, exists_const] at h
  obtain ⟨-, -, -, rfl, rfl⟩ := h
  let mk (n : ℕ) : WarrantyClaim :=
    { id := n, claimNumber := now, registrationId := reg.id, customerId := some customerId
      serialNumberId := reg.serialNumberId, status := .submitted, submittedAt := now }
  have hmk : ∀ n, key (mk n) = n := fun _ => rfl
  have hfirst : ∀ n, ∀ r ∈ s.claims.rows, isOpenFor n r = true →
      ¬ isOpenFor n (mk s.claims.next) = true := by
    intro n r hr hopen hnew
    simp only [isOpenFor, Bool.and_eq_true, beq_iff_eq] at hnew
    obtain rfl : reg.id = n := hnew.1.1
    rw [hid, hs.2 r hr] at hopen
    cases hopen
  refine ⟨⟨fun n => Table.insert_single hmk (hinv.1 n) (hfirst n), hinv.2⟩, ?_⟩
  refine Protection.guar_write_held ?_ rfl ?_
  · exact fun r hr => ⟨r, (Table.mem_insert hmk).mpr (.inl hr), .refl r⟩
  · intro holder other hne hother
    have hsubject := hinv.2.other hs.1 hother hne (subject_claim regId)
    cases other with
    | claim text =>
      refine congrArg (fun ids => (ids, CaseStatus.submitted)) ?_
      cases hread : uuids text with
      | none => rfl
      | some n =>
        have hne : ¬ reg.id = n := by
          rintro rfl
          rw [CareLock.subject, hread, hid] at hsubject
          exact hsubject rfl
        have hids : claimIds n { s with claims := s.claims.insert mk hmk } = claimIds n s := by
          simp [claimIds, Table.insert, List.filter_append, mk, hne]
        exact hids
    | claimApprove text =>
      refine congrArg (fun status => (([] : List ℕ), status)) ?_
      cases uuids text with
      | none => rfl
      | some n => exact @claimStatus_insert s mk hmk (fun _ => rfl) n
    | _ => rfl

theorem createClaim_holds (customerId : ℕ) (dto : CreateClaimDto uuids) :
    Holds (claimWorld uuids) bystander (claimDiscipline uuids token) (fun _ _ => True)
      (createClaim token customerId dto) s := by
  apply claimGuarding.withLock
  intro t hi hheld
  have hreserved : Reserved token dto.registrationId t := hheld
  apply Guarding.readBind steady_reserved hreserved
  intro t₁ i₁ _ ht₁
  apply Holds.orThrowBind _ fun _ _ _ _ => trivial
  intro reg hreg
  obtain ⟨hreg, -⟩ := Option.filter_eq_some_iff.mp hreg
  have hid : reg.id = dto.registrationId.id := (Table.find?_mem hreg).2
  apply Holds.ensureBind _ fun _ _ _ _ => trivial
  intro _
  apply Holds.ensureBind _ fun _ _ _ _ => trivial
  intro _
  apply Guarding.readBind steady_reserved ht₁
  intro t₂ _ _ ht₂
  apply Holds.ensureBind _ fun _ _ _ _ => trivial
  intro hnone
  have hunclaimed : Unclaimed token dto.registrationId t₂ := by
    refine ⟨ht₂, ?_⟩
    intro r hr
    rw [← hid]
    simpa using List.find?_eq_none.mp hnone r hr
  apply holds_atomicBind
  intro t₃ ht₃ hi₃ i₃ _
  refine ⟨Protection.guar_refl, fun _ _ _ _ _ => trivial, ?_⟩
  intro claim u _ hu
  obtain ⟨hinv, hguar⟩ := insertClaim_keeps hid (steady_unclaimed.rely ht₃ hunclaimed) hi₃ hu
  refine ⟨hinv, hguar, ?_⟩
  apply claimGuarding.calm_rest
  refine calls_recordOpened.bind fun _ => (calls_publish rfl).bind fun _ => ?_
  exact calls_enqueue.bind fun _ => calls_repoAudit.bind fun _ => .done _

/-! ### `patchClaim` -/

theorem open_of_transition {current target : CaseStatus}
    (h : warrantyClaimStateMachine.canTransition current target = true)
    (hopen : openStatuses.contains target = true) : openStatuses.contains current = true := by
  unfold StateMachineDefinition.canTransition at h
  split at h
  next hsame => exact hsame ▸ hopen
  next =>
    -- a claim that is not open has no status ahead
    cases current <;> first | rfl | cases h

theorem claimIds_update {n id : ℕ} {g : WarrantyClaim → WarrantyClaim} {hg : ∀ r, key (g r) = key r}
    (hreg : ∀ r, (g r).registrationId = r.registrationId) :
    claimIds n { s with claims := s.claims.update id g hg } = claimIds n s := by
  unfold claimIds
  rw [Table.rows_update, List.filter_map, List.map_map]
  have hsame : (fun r : WarrantyClaim => r.registrationId == n) ∘
      (fun r => if key r = id then g r else r) = fun r => r.registrationId == n := by
    funext r
    simp only [Function.comp]
    split <;> simp [hreg]
  rw [hsame]
  refine List.map_congr_left fun r _ => ?_
  simp only [Function.comp]
  split
  · exact hg r
  · rfl

theorem saveStatus_keeps {current : WarrantyClaim} {target : CaseStatus} {now : ℕ} {b : Unit}
    (hs : Standing token claimId status s) (hinv : (claimWorld uuids).inv s)
    (hlegal : warrantyClaimStateMachine.canTransition status target = true)
    (h : WarrantyClaimStore.writeStatus current claimId.id target now s = .ok (b, u)) :
    (claimWorld uuids).inv u ∧ (claimDiscipline uuids token).guar l i s u := by
  obtain ⟨-, rfl⟩ := WarrantyClaimStore.writeStatus_cases h
  obtain ⟨hheld, r, hr, rfl⟩ := hs
  let g := WarrantyClaimStore.save current target now
  have hg : ∀ r, key (g r) = key r := WarrantyClaimStore.key_save current target now
  have hlater : ∀ a ∈ s.claims.rows, Later a (if key a = claimId.id then g a else a) := by
    intro a ha
    split
    next hid =>
      obtain rfl : a = r := Option.some.inj ((Table.find?_eq_some_iff.mpr ⟨ha, hid⟩).symm.trans hr)
      refine ⟨rfl, rfl, ?_⟩
      intro n hopen
      simp only [isOpenFor, Bool.and_eq_true] at hopen ⊢
      exact ⟨⟨hopen.1.1, open_of_transition hlegal hopen.1.2⟩, hopen.2⟩
    next => exact .refl a
  refine ⟨⟨?_, hinv.2⟩, ?_⟩
  · intro n b hb b' hb' hopen hopen'
    obtain ⟨a, ha, rfl⟩ := (Table.mem_update hg).mp hb
    obtain ⟨a', ha', rfl⟩ := (Table.mem_update hg).mp hb'
    have hid := hinv.1 n a ha a' ha' ((hlater a ha).closed n hopen) ((hlater a' ha').closed n hopen')
    rw [(hlater a ha).id, (hlater a' ha').id, hid]
  refine Protection.guar_write_held ?_ rfl ?_
  · exact fun a ha => ⟨_, (Table.mem_update hg).mpr ⟨a, ha, rfl⟩, hlater a ha⟩
  · intro holder other hne hother
    have hsubject := hinv.2.other hheld hother hne (subject_claimApprove claimId)
    cases other with
    | claim text =>
      refine congrArg (fun ids => (ids, CaseStatus.submitted)) ?_
      cases uuids text with
      | none => rfl
      | some n => exact @claimIds_update s n claimId.id g hg fun _ => rfl
    | claimApprove text =>
      refine congrArg (fun status => (([] : List ℕ), status)) ?_
      cases hread : uuids text with
      | none => rfl
      | some n =>
        have hne : n ≠ claimId.id := by
          rintro rfl
          rw [CareLock.subject, hread] at hsubject
          exact hsubject rfl
        have hstatus : claimStatus n { s with claims := s.claims.update claimId.id g hg } =
            claimStatus n s := by
          rw [claimStatus, claimStatus, Table.find?_update_ne hg hne]
        exact hstatus
    | _ => rfl

theorem saveStatus_holds {target : CaseStatus} (actorId : Option ℕ) (hs : Standing token claimId status s)
    (hlegal : warrantyClaimStateMachine.canTransition status target = true) :
    Holds (claimWorld uuids) bystander (claimDiscipline uuids token) (fun _ _ => True)
      (WarrantyClaimStore.saveStatus ⟨.warrantyClaim, claimId.id⟩ target actorId) s := by
  apply Guarding.readBind steady_standing hs
  intro t _ _ ht
  apply Holds.orThrowBind _ fun _ _ _ _ => trivial
  intro current _
  apply holds_atomicBind
  intro t₁ ht₁ hi₁ i₁ _
  refine ⟨Protection.guar_refl, fun _ _ _ _ _ => trivial, ?_⟩
  intro b u _ hu
  obtain ⟨hinv, hguar⟩ := saveStatus_keeps (steady_standing.rely ht₁ ht) hi₁ hlegal hu
  exact ⟨hinv, hguar, claimGuarding.calm_rest ((calls_claimHistory rfl).bind fun _ => .query rfl)⟩

theorem transition_holds {target : CaseStatus} {actorId : Option ℕ} {reason : Option String}
    (hs : s.locks (.claimApprove claimId.text) = some token) :
    Holds (claimWorld uuids) bystander (claimDiscipline uuids token) (fun _ _ => True)
      (CaseManager.transition ⟨.warrantyClaim, claimId.id⟩ target actorId reason) s := by
  change Holds _ _ _ _ (Prog.bind (Prog.bind (query (CareCall.load ⟨.warrantyClaim, claimId.id⟩)
    fun _ s => (WarrantyClaimStore.findRow claimId.id s).map WarrantyClaimStore.snapshot) _) _) s
  rw [Prog.bind_assoc]
  apply holds_queryBind
  intro t ht hi i _
  refine ⟨Protection.guar_refl, fun _ _ _ => trivial, fun _ => ?_⟩
  have hheld : t.locks (.claimApprove claimId.text) = some token := (ht.2 _ hs).1
  apply Holds.orThrowBind _ fun _ _ _ _ => trivial
  intro snap hsnap
  obtain ⟨row, hrow, rfl⟩ := Option.map_eq_some_iff.mp hsnap
  obtain ⟨hfind, -⟩ := Option.filter_eq_some_iff.mp hrow
  have hstanding : Standing token claimId row.status t := ⟨hheld, row, hfind, rfl⟩
  refine claimGuarding.before_calm ?_ hi fun result => ?_
  · apply Holds.ensureBind _ fun _ _ _ _ => trivial
    intro hlegal
    split
    · exact fun _ _ _ => trivial
    · refine claimGuarding.before_calm (saveStatus_holds actorId hstanding hlegal) hi ?_
      intro saved
      exact (calls_append rfl).bind fun _ => (calls_publish rfl).bind fun _ => .done _
  · exact (calls_settled rfl).bind fun snap => calls_announce.bind fun _ => .done _

theorem patchClaim_holds (actorId : ℕ) (dto : PatchClaimDto) :
    Holds (claimWorld uuids) bystander (claimDiscipline uuids token) (fun _ _ => True)
      (patchClaim token actorId claimId dto) s := by
  apply claimGuarding.withLock
  intro t hi hheld
  refine claimGuarding.before_calm (transition_holds hheld) hi fun snap => ?_
  refine (calls_publishIf rfl).bind fun _ => (calls_publishIf rfl).bind fun _ => ?_
  exact calls_repoAudit.bind fun _ => calls_invalidateCache.bind fun _ => .done _

/-! ### Whole runs -/

inductive ClaimRequest (uuids : String → Option ℕ) where
  | createClaim (customerId : ℕ) (dto : CreateClaimDto uuids)
  | patchClaim (actorId : ℕ) (id : UuidText uuids) (dto : PatchClaimDto)
deriving DecidableEq

def ClaimRequest.prog (token : ℕ) : ClaimRequest uuids → CareProg Unit
  | .createClaim customerId dto => do
    let _ ← WarrantyService.createClaim token customerId dto
  | .patchClaim actorId id dto => do
    let _ ← WarrantyService.patchClaim token actorId id dto

theorem ClaimRequest.holds (r : ClaimRequest uuids) (hinv : (claimWorld uuids).inv s) :
    Holds (claimWorld uuids) bystander (claimDiscipline uuids token) (fun _ _ => True) (r.prog token) s := by
  cases r with
  | createClaim customerId dto =>
    exact claimGuarding.before_calm (createClaim_holds customerId dto) hinv fun _ => .done _
  | patchClaim actorId id dto =>
    exact claimGuarding.before_calm (patchClaim_holds actorId dto) hinv fun _ => .done _

def claimPool (requests : List (ClaimRequest uuids)) (s : CareState) :
    Pool CareCall CareInput CareState Failure Unit :=
  ⟨requests.mapIdx fun j r => r.prog j, s⟩

/-- In whatever order the calls come, and whichever of them fail: where no lock is asked for while
another spelling of its id is locked, no registration has two claims that are submitted, under review,
approved or in service. -/
theorem one_open_claim (requests : List (ClaimRequest uuids)) (s : CareState)
    (sched : List (ℕ × CareInput)) (hs : OneOpenClaim s) (hlocks : ∀ key, s.locks key = none)
    (ha : Pool.Admits (SpelledAlike uuids) (claimPool requests s) sched) :
    OneOpenClaim ((claimPool requests s).run sched).state := by
  have hinv : (claimWorld uuids).inv s := ⟨hs, fun key _ _ _ _ h => absurd (hlocks key) h⟩
  have hrun : Pool.Safe (claimWorld uuids) bystander
      ((claimProtection uuids).tokensBeside bystander requests.length)
      (fun _ _ _ => True) ((claimPool requests s).run sched) := by
    apply Pool.run_requests claimGuarding.compatible hinv _ ha
    intro j r _ hlt
    rw [Protection.tokensBeside, if_pos hlt]
    exact r.holds hinv
  exact hrun.inv.1

/-- A uuid with one letter, which may be small or capital. -/
def firstUuids (text : String) : Option ℕ := if text ∈ ["a", "A"] then some 0 else none

def small : UuidText firstUuids := ⟨"a", 0, rfl⟩

def capital : UuidText firstUuids := ⟨"A", 0, rfl⟩

def firstKeys : List CareLock := [.claim "a", .claim "A", .claimApprove "a", .claimApprove "A"]

theorem mem_firstKeys {key : CareLock} {subject : ℕ ⊕ ℕ} (h : key.subject firstUuids = some subject) :
    key ∈ firstKeys := by
  have hread : ∀ text n, firstUuids text = some n → text = "a" ∨ text = "A" := by
    intro text n h
    unfold firstUuids at h
    split at h
    next hmem => simpa using hmem
    next => cases h
  cases key with
  | claim text =>
    obtain ⟨n, hn, -⟩ := Option.map_eq_some_iff.mp h
    rcases hread text n hn with rfl | rfl <;> simp [firstKeys]
  | claimApprove text =>
    obtain ⟨n, hn, -⟩ := Option.map_eq_some_iff.mp h
    rcases hread text n hn with rfl | rfl <;> simp [firstKeys]
  | _ => cases h

instance (l : CareCall) (i : CareInput) (s : CareState) : Decidable (SpelledAlike firstUuids l i s) :=
  Protection.decidableAskedAlike firstKeys (fun _ _ h => mem_firstKeys h) CareCall.acquired? l s

def registeredOnce : CareState where
  registrations := Table.empty.insert fun n => { id := n, customerId := some 1, endDate := 9 }

/-- Claims on the registration, and a decision on the first one; the last claim is in capitals. -/
def threeClaims : List (ClaimRequest firstUuids) :=
  [.createClaim 1 { registrationId := small }, .createClaim 1 { registrationId := small },
    .patchClaim 2 small { status := .cancelled }, .createClaim 1 { registrationId := capital }]

/-- The second claim waits while the first is created, the last comes when the others are done. -/
def claimTurns : List (ℕ × CareInput) :=
  careTurns 0 ([0, 0, 1] ++ List.replicate 9 0 ++ List.replicate 14 2) ++
    careTurns 1 (List.replicate 9 1 ++ List.replicate 9 3)

theorem one_open_claim_again :
    OneOpenClaim ((claimPool threeClaims registeredOnce).run claimTurns).state ∧
      (((claimPool threeClaims registeredOnce).run claimTurns).state.claims.rows.map fun r =>
        (r.registrationId, r.status)) = [(0, .cancelled), (0, .submitted)] := by
  refine ⟨one_open_claim _ _ _ ?_ (fun _ => rfl) (by decide +kernel), by decide +kernel⟩
  intro registrationId r hr
  cases hr

/-- Two claims on it at once, in small letters and in capitals. -/
def twoSpellings : List (ClaimRequest firstUuids) :=
  [.createClaim 1 { registrationId := small }, .createClaim 1 { registrationId := capital }]

/-- The first one looks for an open claim, then the second one is created. -/
def spelledTurns : List (ℕ × CareInput) :=
  careTurns 0 (List.replicate 3 0 ++ List.replicate 9 1) ++ careTurns 1 (List.replicate 6 0)

/-- Each spelling has a lock of its own. -/
theorem two_spellings_two_claims : OneOpenClaim registeredOnce ∧
    ¬ OneOpenClaim ((claimPool twoSpellings registeredOnce).run spelledTurns).state := by
  refine ⟨fun _ _ hr => (List.not_mem_nil hr).elim, fun h => ?_⟩
  have hopen : (((claimPool twoSpellings registeredOnce).run spelledTurns).state.claims.rows.filter
      (isOpenFor 0)).map WarrantyClaim.id = [0, 1] := by decide +kernel
  have hfirst : 0 ∈ [0, 1] := by simp
  have hsecond : 1 ∈ [0, 1] := by simp
  rw [← hopen] at hfirst hsecond
  obtain ⟨r, hr, hid⟩ := List.mem_map.mp hfirst
  obtain ⟨r', hr', hid'⟩ := List.mem_map.mp hsecond
  obtain ⟨hmem, hr⟩ := List.mem_filter.mp hr
  obtain ⟨hmem', hr'⟩ := List.mem_filter.mp hr'
  have hsame := h 0 r hmem r' hmem' hr hr'
  omega

end ElectronicsCart.Cases
