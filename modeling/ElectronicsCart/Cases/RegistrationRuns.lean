import ElectronicsCart.Cases.Guarding

/-!
# One warranty for a serial

The lock of `register` is the customer's, and the rule is about the serial.  What the lookup under the
lock says of the customer's own registrations still holds at the insert; of another customer's it may
not.
-/

namespace ElectronicsCart.Cases

open Interleaving Relational WarrantyService

def OneWarranty (s : CareState) : Prop :=
  ∀ serialId, ∀ r ∈ s.registrations.rows, ∀ r' ∈ s.registrations.rows, isActiveFor serialId r = true →
    isActiveFor serialId r' = true → r.id = r'.id

/-- When a registration is inserted, no other customer has an active one for the serial. -/
def Unrivalled : ℕ × CareCall → CareInput → CareState → Prop
  | (customerId, .createRegistration serialId), i, s => i.fails = true ∨
    ∀ r ∈ s.registrations.rows, isActiveFor serialId r = true → r.customerId = some customerId
  | _, _, _ => True

def registrationView : CareLock → CareState → List WarrantyRegistration
  | .register customerId, s => s.registrations.rows.filter fun r => r.customerId == some customerId
  | _, _ => []

def registrationProtection : Protection CareCall CareState CareLock (List WarrantyRegistration) where
  view := registrationView
  frame _ _ := True
  refl _ := trivial
  trans _ _ := trivial
  view_setLocks key _ _ := by cases key <;> rfl
  frame_setLocks _ _ := trivial

def registrationWorld (customerId : ℕ) : World CareCall CareInput CareState :=
  ⟨fun l => Unrivalled (customerId, l), OneWarranty⟩

variable {s s' t u : CareState} {token customerId serialId : ℕ} {l : CareCall} {i : CareInput}

abbrev registrationDiscipline (token : ℕ) : Discipline CareCall CareInput CareState :=
  registrationProtection.discipline token

theorem oneWarranty_of_eq (h : OneWarranty s) (hr : s'.registrations = s.registrations) :
    OneWarranty s' := by
  rw [OneWarranty, hr]
  exact h

theorem registrationGuarding {ok : CareCall → CareInput → CareState → Prop} :
    Guarding registrationProtection ⟨ok, OneWarranty⟩ := by
  refine .of_rows (fun _ => trivial) (fun key h => ?_) fun h hi => oneWarranty_of_eq hi h.registrations
  show registrationView key _ = registrationView key _
  cases key <;> simp only [registrationView, h.registrations]

/-! ### What the holder of the lock knows -/

def Registering (token customerId : ℕ) (s : CareState) : Prop :=
  s.locks (.register customerId) = some token

def Vacant (token customerId serialId : ℕ) (s : CareState) : Prop :=
  Registering token customerId s ∧ ∀ r ∈ s.registrations.rows, r.customerId = some customerId →
    isActiveFor serialId r = false

theorem steady_registering : Steady registrationProtection token (Registering token customerId) where
  rely h hs := (h.2 _ hs).1
  calm _ hl hs := by rw [Registering, hl]; exact hs

theorem steady_vacant : Steady registrationProtection token (Vacant token customerId serialId) where
  rely := by
    intro t t' h hs
    obtain ⟨hheld, hview⟩ := h.2 _ hs.1
    refine ⟨hheld, ?_⟩
    intro r hr hcustomer
    have hmem : r ∈ registrationView (.register customerId) t' :=
      List.mem_filter.mpr ⟨hr, by simp [hcustomer]⟩
    have hview : registrationView (.register customerId) t' = registrationView (.register customerId) t := hview
    rw [hview] at hmem
    exact hs.2 r (List.mem_filter.mp hmem).1 hcustomer
  calm hc hl hs := ⟨steady_registering.calm hc hl hs.1, fun r hr => hs.2 r (hc.registrations ▸ hr)⟩

/-! ### `register` -/

theorem insertRegistration_keeps {plan : WarrantyPlan} {now : ℕ} {row : WarrantyRegistration}
    (hs : Vacant token customerId serialId s) (hinv : OneWarranty s)
    (hok : ∀ r ∈ s.registrations.rows, isActiveFor serialId r = true → r.customerId = some customerId)
    (h : insertRegistration customerId plan serialId now s = .ok (row, u)) :
    OneWarranty u ∧ (registrationDiscipline token).guar l i s u := by
  simp only [insertRegistration, bind_eq_ok, check_eq_ok, pure_eq_ok, Prod.mk.injEq, exists_const] at h
  obtain ⟨-, -, rfl, rfl⟩ := h
  let mk (n : ℕ) : WarrantyRegistration :=
    { id := n, registrationNumber := now, planId := plan.id, customerId := some customerId
      serialNumberId := some serialId, startDate := Calendar.toDate now
      endDate := Calendar.toDate (Calendar.addMonths plan.durationMonths now), status := .active }
  have hmk : ∀ n, key (mk n) = n := fun _ => rfl
  -- the serial has no active registration: none of another customer, and none of this one
  have hfirst : ∀ n, ∀ r ∈ s.registrations.rows, isActiveFor n r = true →
      ¬ isActiveFor n (mk s.registrations.next) = true := by
    intro n r hr hactive hnew
    simp only [isActiveFor, Bool.and_eq_true, beq_iff_eq] at hnew
    obtain rfl : serialId = n := Option.some.inj hnew.1.1
    rw [hs.2 r hr (hok r hr hactive)] at hactive
    cases hactive
  constructor
  · exact fun n => Table.insert_single hmk (hinv n) (hfirst n)
  · have hheld : Lockable.locks CareCall s (CareLock.register customerId) = some token := hs.1
    refine Protection.guar_write trivial hheld rfl ?_
    intro other hother
    cases other with
    | register n =>
      have hne : ¬ customerId = n := by
        rintro rfl
        exact hother rfl
      show registrationView (.register n) { s with registrations := s.registrations.insert mk hmk } =
        registrationView (.register n) s
      simp [registrationView, Table.insert, List.filter_append, mk, hne]
    | _ => rfl

theorem calls_resolveSerial {dto : RegisterWarrantyDto} : Calls calm (resolveSerial dto) := by
  have hrest : ∀ found : Option SerialNumber, Calls calm (Prog.orThrow (.throwApp .notFound
      "Serial not found" 404) found : CareProg SerialNumber) := fun _ => .orThrow _ _
  unfold resolveSerial
  dsimp only
  split
  · refine .queryBind rfl fun byId => ?_
    split
    · exact .queryBind rfl hrest
    · exact hrest _
  · cases truthy dto.serialNumber with
    | some number => exact .queryBind rfl hrest
    | none => exact hrest none

theorem calls_checkOrder {orderId : Option ℕ} : Calls calm (checkOrder customerId orderId) := by
  cases orderId with
  | none => exact .done _
  | some orderId => exact .queryBind rfl fun found => .orThrowBind fun order => .done _

theorem calls_updateSerial : Calls calm (updateSerial serialId) := by
  refine .atomic rfl fun _ s _ s' h => .inl ?_
  simp only [bind_eq_ok, existing_eq_ok, pure_eq_ok, Prod.mk.injEq] at h
  obtain ⟨-, -, -, rfl⟩ := h
  rfl

theorem calls_registrationHistory : Calls calm registrationHistory :=
  .atomic rfl fun _ _ _ _ h => .inl (Prod.mk.inj (Except.ok.inj h)).2.symm

theorem register_holds (dto : RegisterWarrantyDto) :
    Holds (registrationWorld customerId) bystander (registrationDiscipline token) (fun _ _ => True)
      (register token customerId dto) s := by
  apply registrationGuarding.withLock
  intro t hi hheld
  apply Guarding.readBind steady_registering hheld
  intro t₁ i₁ hi₁ ht₁
  apply Holds.orThrowBind _ fun _ _ _ _ => trivial
  intro plan _
  apply registrationGuarding.calmBind steady_registering calls_resolveSerial ht₁ hi₁
  intro serial t₂ hi₂ ht₂
  apply registrationGuarding.calmBind steady_registering calls_checkOrder ht₂ hi₂
  intro _ t₃ hi₃ ht₃
  apply Guarding.readBind steady_registering ht₃
  intro t₄ _ _ ht₄
  apply Holds.ensureBind _ fun _ _ _ _ => trivial
  intro hnone
  have hvacant : Vacant token customerId serial.id t₄ := by
    refine ⟨ht₄, ?_⟩
    intro r hr _
    simpa using List.find?_eq_none.mp hnone r hr
  apply holds_atomicBind
  intro t₅ ht₅ hi₅ i₅ ho₅
  refine ⟨Protection.guar_refl, fun _ _ _ _ _ => trivial, ?_⟩
  intro row u hfails hu
  have hunrivalled := ho₅.resolve_left (by simp [hfails])
  obtain ⟨hinv, hguar⟩ := insertRegistration_keeps (steady_vacant.rely ht₅ hvacant) hi₅ hunrivalled hu
  refine ⟨hinv, hguar, ?_⟩
  apply registrationGuarding.calm_rest
  refine calls_updateSerial.bind fun _ => calls_registrationHistory.bind fun _ => ?_
  exact (calls_publish rfl).bind fun _ => calls_invalidateCache.bind fun _ => .done _

/-! ### Whole runs -/

structure RegisterRequest where
  customerId : ℕ
  dto : RegisterWarrantyDto
deriving DecidableEq

def RegisterRequest.prog (token : ℕ) (r : RegisterRequest) :
    Prog (ℕ × CareCall) CareInput CareState Failure WarrantyRegistration :=
  (register token r.customerId r.dto).signed r.customerId

def registerPool (requests : List RegisterRequest) (s : CareState) :
    Pool (ℕ × CareCall) CareInput CareState Failure WarrantyRegistration :=
  ⟨requests.mapIdx fun j r => r.prog j, s⟩

/-- Whatever the order of the calls, a serial has one active registration as long as no other customer's
comes between a lookup and its insert. -/
theorem one_warranty (requests : List RegisterRequest) (s : CareState) (sched : List (ℕ × CareInput))
    (hs : OneWarranty s) (hok : (registerPool requests s).Admits Unrivalled sched) :
    OneWarranty ((registerPool requests s).run sched).state := by
  have hrun : Pool.Safe ⟨Unrivalled, OneWarranty⟩ (bystander.signed ℕ)
      (fun j => (registrationProtection.tokensBeside bystander requests.length j).signed ℕ)
      (fun _ _ _ => True) ((registerPool requests s).run sched) := by
    apply Pool.run_requests registrationGuarding.compatible.signed hs _ hok
    intro j r _ hlt
    rw [Protection.tokensBeside, if_pos hlt]
    exact (register_holds r.dto).signed (fun _ _ _ h => h) fun _ => Iff.rfl
  exact hrun.inv

def oneSerial : CareState where
  plans := Table.empty.insert (fun n => { id := n, durationMonths := 12 }) Eq.refl
  serials := Table.empty.insert fun n => { id := n, serialNumber := "SN-1" }

def threeRegistrations : List RegisterRequest :=
  let dto : RegisterWarrantyDto := { planId := 0, serialNumberId := some 0 }
  [⟨1, dto⟩, ⟨1, dto⟩, ⟨2, dto⟩]

instance (c : ℕ × CareCall) (i : CareInput) (s : CareState) : Decidable (Unrivalled c i s) := by
  obtain ⟨customerId, call⟩ := c
  cases call <;> (dsimp only [Unrivalled]; infer_instance)

/-- The first customer's second request finds the lock taken, and the other comes when the device is
registered. -/
theorem one_warranty_in_turn :
    let turns := careTurns 0 (List.replicate 4 0 ++ [1, 1] ++ List.replicate 6 0 ++ List.replicate 5 2)
    OneWarranty ((registerPool threeRegistrations oneSerial).run turns).state ∧
      ((registerPool threeRegistrations oneSerial).run turns).state.registrations.rows.length = 1 := by
  refine ⟨one_warranty _ _ _ ?_ (by decide +kernel), by decide +kernel⟩
  intro serialId r hr
  cases hr

/-- Both customers look the serial up before one of them is registered. -/
theorem two_warranties : ¬ ∀ requests s sched, OneWarranty s →
    OneWarranty ((registerPool requests s).run sched).state := by
  intro h
  let turns := careTurns 0 (List.replicate 4 0 ++ List.replicate 4 2 ++ [0]) ++ careTurns 1 [2]
  have hone : OneWarranty ((registerPool threeRegistrations oneSerial).run turns).state := by
    refine h _ _ _ ?_
    intro serialId r hr
    cases hr
  have hrows : ∃ r ∈ ((registerPool threeRegistrations oneSerial).run turns).state.registrations.rows,
      ∃ r' ∈ ((registerPool threeRegistrations oneSerial).run turns).state.registrations.rows,
        isActiveFor 0 r = true ∧ isActiveFor 0 r' = true ∧ r.id ≠ r'.id := by decide +kernel
  obtain ⟨r, hr, r', hr', hactive, hactive', hne⟩ := hrows
  exact hne (hone 0 r hr r' hr' hactive hactive')

end ElectronicsCart.Cases
