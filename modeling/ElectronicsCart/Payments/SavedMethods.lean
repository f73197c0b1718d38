import ElectronicsCart.Shop.State
import Mathlib.Data.List.Sort

/-!
# Saved payment methods

`saveMethod`, `deleteSaved`, `setDefaultSaved` and `listSaved` of
`modules/payments/services/payments.service.ts` over the table of
`database/sql/019_payment_extensions.sql`.

The old default is cleared and the new one set by two statements, with no lock and no
transaction around them.  What keeps a customer from having two defaults is the partial unique
index of `020_payment_extension_indexes.sql`: the second setter is refused.
-/

namespace ElectronicsCart.Payments

open Interleaving Relational

/-! ### Rows -/

/-- `record_status`. -/
inductive RecordStatus where
  | active | inactive | suspended | pending | archived
deriving DecidableEq, Repr

structure SavedPaymentMethod where
  id : ℕ
  customerId : ℕ
  gatewayId : ℕ
  token : String
  brand : Option String := none
  lastFour : Option String := none
  expiryMonth : Option ℤ := none
  expiryYear : Option ℤ := none
  isDefault : Bool := false
  status : RecordStatus := .active
  createdAt : ℕ := 0
  deleted : Bool := false
deriving DecidableEq, Repr

instance : Keyed SavedPaymentMethod := ⟨SavedPaymentMethod.id⟩

/-- What `mapSavedMethod` shows of a row: everything but the token. -/
structure SavedMethodView where
  id : ℕ
  gatewayId : ℕ
  brand : Option String
  lastFour : Option String
  expiryMonth : Option ℤ
  expiryYear : Option ℤ
  isDefault : Bool
  status : RecordStatus
  createdAt : ℕ
deriving DecidableEq, Repr

def mapSavedMethod (m : SavedPaymentMethod) : SavedMethodView :=
  ⟨m.id, m.gatewayId, m.brand, m.lastFour, m.expiryMonth, m.expiryYear, m.isDefault, m.status,
    m.createdAt⟩

/-- The body of `saveMethod`; an empty gateway id is `none`. -/
structure SaveMethodInput where
  gatewayId : Option ℕ
  token : String
  brand : Option String := none
  lastFour : Option String := none
  expiryMonth : Option ℚ := none
  expiryYear : Option ℚ := none
  isDefault : Option Bool := none
deriving DecidableEq, Repr

/-- The seeded gateway, `RAZORPAY_GATEWAY_ID`. -/
def razorpayGatewayId : ℕ := 1

structure SavedMethods where
  users : List ℕ
  gateways : List ℕ
  methods : Table SavedPaymentMethod
  /-- the entries `payments:saved:<customer>` of the cache -/
  cached : ℕ → Option (List SavedMethodView) := fun _ => none

inductive SavedMethodCall where
  | clearDefaults (customerId : ℕ)
  | create (customerId : ℕ) (isDefault : Bool)
  | find (customerId id : ℕ)
  | archive (id : ℕ)
  | setDefault (id : ℕ)
  | list (customerId : ℕ)
  | getCache (customerId : ℕ)
  | setCache (customerId : ℕ)
  | delCache (customerId : ℕ)
deriving DecidableEq, Repr

abbrev SavedMethodProg := Prog SavedMethodCall (Input Unit) SavedMethods Failure

/-! ### Statements -/

def isDefaultOf (customerId : ℕ) (m : SavedPaymentMethod) : Bool :=
  m.customerId == customerId && m.isDefault && !m.deleted

/-- `uq_saved_payment_methods_customer_default_active`, for the row `id` of the customer. -/
def defaultFree (customerId id : ℕ) (T : Table SavedPaymentMethod) : Bool :=
  T.rows.all fun m => m.id == id || !isDefaultOf customerId m

def unsetDefault (m : SavedPaymentMethod) : SavedPaymentMethod := { m with isDefault := false }

@[simp] theorem key_unsetDefault (m : SavedPaymentMethod) : key (unsetDefault m) = key m := rfl

def makeDefault (m : SavedPaymentMethod) : SavedPaymentMethod := { m with isDefault := true }

@[simp] theorem key_makeDefault (m : SavedPaymentMethod) : key (makeDefault m) = key m := rfl

def archive (m : SavedPaymentMethod) : SavedPaymentMethod :=
  { m with deleted := true, status := .inactive }

@[simp] theorem key_archive (m : SavedPaymentMethod) : key (archive m) = key m := rfl

/-- `updateMany` over the live methods of the customer. -/
def clearDefaults (customerId : ℕ) (s : SavedMethods) : SavedMethods :=
  let mine := fun m : SavedPaymentMethod => m.customerId == customerId && !m.deleted
  { s with methods := s.methods.updateWhere mine unsetDefault key_unsetDefault }

/-- A month or year column: a whole number in its range. -/
def validPart (low high : ℤ) (x : Option ℚ) : Bool :=
  x.all fun q => decide (q.den = 1) && decide (low ≤ q.num) && decide (q.num ≤ high)

def createMethod (customerId : ℕ) (input : SaveMethodInput) (now : ℕ) (s : SavedMethods) :
    Except Failure (SavedPaymentMethod × SavedMethods) := do
  let gatewayId := input.gatewayId.getD razorpayGatewayId
  let isDefault := input.isDefault.getD false
  check (s.users.contains customerId && s.gateways.contains gatewayId) "saved_payment_methods_fkey"
  check (fitsVarchar 255 input.token && input.brand.all (fitsVarchar 32) &&
    input.lastFour.all (fitsVarchar 4)) "saved_payment_methods"
  check (validPart 1 12 input.expiryMonth) "saved_payment_methods_expiry_month_check"
  check (validPart 2000 2147483647 input.expiryYear) "saved_payment_methods_expiry_year_check"
  check (s.methods.rows.all fun m => m.deleted || m.gatewayId != gatewayId || m.token != input.token)
    "uq_saved_payment_methods_gateway_token_active"
  check (!isDefault || defaultFree customerId s.methods.next s.methods)
    "uq_saved_payment_methods_customer_default_active"
  let mk := fun n =>
    { id := n, customerId, gatewayId, token := input.token, brand := input.brand,
      lastFour := input.lastFour, expiryMonth := input.expiryMonth.map Rat.num,
      expiryYear := input.expiryYear.map Rat.num, isDefault, createdAt := now : SavedPaymentMethod }
  return (mk s.methods.next, { s with methods := s.methods.insert mk })

/-- `savedPaymentMethod.update` by id. -/
def archiveMethod (id : ℕ) (s : SavedMethods) : Except Failure (Unit × SavedMethods) := do
  let _ ← existing s.methods id
  return ((), { s with methods := s.methods.update id archive key_archive })

def setDefault (id : ℕ) (s : SavedMethods) : Except Failure (Unit × SavedMethods) := do
  let m ← existing s.methods id
  check (m.deleted || defaultFree m.customerId id s.methods)
    "uq_saved_payment_methods_customer_default_active"
  return ((), { s with methods := s.methods.update id makeDefault key_makeDefault })

/-- `findFirst` of a live method of the customer. -/
def findSaved (customerId id : ℕ) (s : SavedMethods) : Option SavedPaymentMethod :=
  s.methods.first? fun m => m.id == id && m.customerId == customerId && !m.deleted

/-- `ORDER BY is_default DESC, created_at DESC`. -/
def SavedBefore (rank : ℕ → ℕ) (a b : SavedPaymentMethod) : Prop :=
  b.isDefault < a.isDefault ∨ a.isDefault = b.isDefault ∧
    (b.createdAt < a.createdAt ∨ a.createdAt = b.createdAt ∧ rank a.id ≤ rank b.id)

instance (rank : ℕ → ℕ) : DecidableRel (SavedBefore rank) := fun a b => by
  unfold SavedBefore
  infer_instance

def savedRows (rank : ℕ → ℕ) (customerId : ℕ) (s : SavedMethods) : List SavedPaymentMethod :=
  (s.methods.rows.filter fun m => m.customerId == customerId && m.status == .active && !m.deleted)
    |>.insertionSort (SavedBefore rank)

/-! ### The service -/

/-- Fail-open, like every call of the cache. -/
def invalidateSaved (customerId : ℕ) : SavedMethodProg Unit :=
  Prog.call (.delCache customerId) fun i s =>
    (.ok (), if i.fails then s
      else { s with cached := Function.update s.cached customerId none })

def listSaved (customerId : ℕ) : SavedMethodProg (List SavedMethodView) := do
  let hit ← Prog.call (.getCache customerId) fun i s =>
    (.ok (if i.fails then none else s.cached customerId), s)
  match hit with
  | some views => pure views
  | none =>
    let rows ← query (.list customerId) fun i s => savedRows i.rank customerId s
    let views := rows.map mapSavedMethod
    Prog.call (.setCache customerId) fun i s =>
      (.ok (), if i.fails then s
        else { s with cached := Function.update s.cached customerId (some views) })
    pure views

def saveMethod (customerId : ℕ) (input : SaveMethodInput) : SavedMethodProg SavedMethodView := do
  if input.isDefault = some true then
    atomic (.clearDefaults customerId) fun _ s => .ok ((), clearDefaults customerId s)
  let row ← atomic (.create customerId (input.isDefault.getD false)) fun i s =>
    createMethod customerId input i.now s
  invalidateSaved customerId
  pure (mapSavedMethod row)

def savedMethodNotFound : Failure := .throwApp .notFound "Saved method not found" 404

def deleteSaved (customerId id : ℕ) : SavedMethodProg Unit := do
  let row ← query (.find customerId id) fun _ s => findSaved customerId id s
  let _ ← Prog.orThrow savedMethodNotFound row
  atomic (.archive id) fun _ s => archiveMethod id s
  invalidateSaved customerId

def setDefaultSaved (customerId id : ℕ) : SavedMethodProg (List SavedMethodView) := do
  let row ← query (.find customerId id) fun _ s => findSaved customerId id s
  let _ ← Prog.orThrow savedMethodNotFound row
  atomic (.clearDefaults customerId) fun _ s => .ok ((), clearDefaults customerId s)
  atomic (.setDefault id) fun _ s => setDefault id s
  invalidateSaved customerId
  listSaved customerId

inductive SavedMethodRequest where
  | save (input : SaveMethodInput)
  | delete (id : ℕ)
  | setDefault (id : ℕ)
deriving DecidableEq, Repr

def SavedMethodRequest.prog (customerId : ℕ) : SavedMethodRequest → SavedMethodProg Unit
  | .save input => do let _ ← saveMethod customerId input
  | .delete id => deleteSaved customerId id
  | .setDefault id => do let _ ← setDefaultSaved customerId id

/-! ### One default -/

def defaultsOf (customerId : ℕ) (s : SavedMethods) : List SavedPaymentMethod :=
  s.methods.rows.filter (isDefaultOf customerId)

def OneDefault (customerId : ℕ) (s : SavedMethods) : Prop :=
  ∀ a ∈ s.methods.rows, ∀ b ∈ s.methods.rows, isDefaultOf customerId a = true →
    isDefaultOf customerId b = true → a = b

theorem oneDefault_iff {customerId : ℕ} {s : SavedMethods} :
    OneDefault customerId s ↔ (defaultsOf customerId s).length ≤ 1 := by
  have hnd : (defaultsOf customerId s).Nodup := s.methods.nodup.of_map.filter _
  have hmem : ∀ a, a ∈ defaultsOf customerId s ↔
      a ∈ s.methods.rows ∧ isDefaultOf customerId a = true := fun a => List.mem_filter
  constructor
  · intro h
    cases hl : defaultsOf customerId s with
    | nil => simp
    | cons a rest =>
      cases rest with
      | nil => simp
      | cons b rest =>
        have ha := (hmem a).mp (by simp [hl])
        have hb := (hmem b).mp (by simp [hl])
        rw [hl, List.nodup_cons] at hnd
        exact absurd (h a ha.1 b hb.1 ha.2 hb.2 ▸ List.mem_cons_self) hnd.1
  · intro h a ha b hb hda hdb
    have hma := (hmem a).mpr ⟨ha, hda⟩
    have hmb := (hmem b).mpr ⟨hb, hdb⟩
    rcases Nat.le_one_iff_eq_zero_or_eq_one.mp h with h | h
    · rw [List.eq_nil_of_length_eq_zero h] at hma
      cases hma
    · obtain ⟨x, hx⟩ := List.length_eq_one_iff.mp h
      rw [hx, List.mem_singleton] at hma hmb
      exact hma.trans hmb.symm

variable {customerId : ℕ} {s s' : SavedMethods}

theorem OneDefault.updateWhere {p : SavedPaymentMethod → Bool}
    {g : SavedPaymentMethod → SavedPaymentMethod} {hg : ∀ r, key (g r) = key r}
    (hs : OneDefault customerId s)
    (h : ∀ m, isDefaultOf customerId (g m) = true → isDefaultOf customerId m = true) :
    OneDefault customerId { s with methods := s.methods.updateWhere p g hg } := by
  have hback : ∀ m, isDefaultOf customerId (if p m then g m else m) = true →
      isDefaultOf customerId m = true := by
    intro m hm
    split at hm
    · exact h m hm
    · exact hm
  intro a ha b hb hda hdb
  obtain ⟨a', ha', rfl⟩ := (Table.mem_updateWhere hg).mp ha
  obtain ⟨b', hb', rfl⟩ := (Table.mem_updateWhere hg).mp hb
  rw [hs a' ha' b' hb' (hback a' hda) (hback b' hdb)]

theorem clearDefaults_oneDefault (c : ℕ) (hs : OneDefault customerId s) :
    OneDefault customerId (clearDefaults c s) := by
  refine hs.updateWhere fun m hm => ?_
  simp [isDefaultOf, unsetDefault] at hm

theorem archiveMethod_oneDefault {id : ℕ} {u : Unit} (hs : OneDefault customerId s)
    (h : archiveMethod id s = .ok (u, s')) : OneDefault customerId s' := by
  simp only [archiveMethod, bind_eq_ok, pure_eq_ok, Prod.mk.injEq, true_and] at h
  obtain ⟨-, -, rfl⟩ := h
  refine hs.updateWhere fun m hm => ?_
  simp [isDefaultOf, archive] at hm

theorem setDefault_oneDefault {id : ℕ} {u : Unit} (hs : OneDefault customerId s)
    (h : setDefault id s = .ok (u, s')) : OneDefault customerId s' := by
  simp only [setDefault, bind_eq_ok, existing_eq_ok, check_eq_ok, pure_eq_ok, Prod.mk.injEq,
    true_and, exists_const] at h
  obtain ⟨m, hm, hfree, rfl⟩ := h
  obtain ⟨hmem, hkey⟩ := Table.find?_mem hm
  -- a live row that is not `m` is no default of `m`'s customer
  have hother : ∀ x ∈ s.methods.rows, x.id ≠ id → isDefaultOf customerId x = true →
      isDefaultOf customerId (makeDefault m) = true → False := by
    intro x hx hne hdx hdm
    have hm' : m.customerId = customerId ∧ m.deleted = false := by
      simpa [isDefaultOf, makeDefault] using hdm
    rw [hm'.2, Bool.false_or, defaultFree, List.all_eq_true] at hfree
    have := hfree x hx
    simp [hne, hm'.1, hdx] at this
  have hrow : ∀ x ∈ s.methods.rows, key x = id → x = m := fun x hx hk =>
    Table.eq_of_key_eq hx hmem (hk.trans hkey.symm)
  intro a ha b hb hda hdb
  obtain ⟨a', ha', rfl⟩ := (Table.mem_update key_makeDefault).mp ha
  obtain ⟨b', hb', rfl⟩ := (Table.mem_update key_makeDefault).mp hb
  by_cases hka : key a' = id <;> by_cases hkb : key b' = id
  · rw [hrow a' ha' hka, hrow b' hb' hkb]
  · rw [if_pos hka, hrow a' ha' hka] at hda
    rw [if_neg hkb] at hdb
    exact (hother b' hb' hkb hdb hda).elim
  · rw [if_neg hka] at hda
    rw [if_pos hkb, hrow b' hb' hkb] at hdb
    exact (hother a' ha' hka hda hdb).elim
  · rw [if_neg hka] at hda ⊢
    rw [if_neg hkb] at hdb ⊢
    exact hs a' ha' b' hb' hda hdb

theorem createMethod_oneDefault {c : ℕ} {input : SaveMethodInput} {now : ℕ}
    {row : SavedPaymentMethod} (hs : OneDefault customerId s)
    (h : createMethod c input now s = .ok (row, s')) : OneDefault customerId s' := by
  simp only [createMethod, bind_eq_ok, check_eq_ok, pure_eq_ok, Prod.mk.injEq, exists_const] at h
  obtain ⟨-, -, -, -, -, hfree, -, rfl⟩ := h
  -- the index refuses a second default
  have hother : ∀ x ∈ s.methods.rows, isDefaultOf customerId x = true →
      (c == customerId && input.isDefault.getD false) = true → False := by
    intro x hx hdx hnew
    simp only [Bool.and_eq_true, beq_iff_eq] at hnew
    rw [hnew.1, hnew.2, Bool.not_true, Bool.false_or, defaultFree, List.all_eq_true] at hfree
    have hlt : x.id ≠ s.methods.next := Nat.ne_of_lt (s.methods.fresh x hx)
    have := hfree x hx
    simp [hlt, hdx] at this
  have hflag : ∀ n : ℕ, ∀ x : SavedPaymentMethod, x.customerId = c →
      x.isDefault = input.isDefault.getD false → isDefaultOf customerId x = true →
      (c == customerId && input.isDefault.getD false) = true := by
    intro _ x hc hd hx
    simp only [isDefaultOf, Bool.and_eq_true] at hx
    rw [← hc, ← hd, hx.1.1, hx.1.2, Bool.and_self]
  intro a ha b hb hda hdb
  rcases (Table.mem_insert fun _ => by rfl).mp ha with ha | rfl <;>
    rcases (Table.mem_insert fun _ => by rfl).mp hb with hb | rfl
  · exact hs a ha b hb hda hdb
  · exact (hother a ha hda (hflag 0 _ rfl rfl hdb)).elim
  · exact (hother b hb hdb (hflag 0 _ rfl rfl hda)).elim
  · rfl

/-! ### Every call keeps one default -/

/-- A program all of whose calls keep the customer's one default. -/
abbrev KeepsDefault {α : Type} (customerId : ℕ) (p : SavedMethodProg α) : Prop :=
  p.Every (fun _ _ t => True ∧ OneDefault customerId t) fun _ _ _ t => OneDefault customerId t

theorem keepsDefault_query {α : Type} {l : SavedMethodCall} {f : Input Unit → SavedMethods → α} :
    KeepsDefault customerId (query l f) :=
  every_query fun _ _ h => h.2

theorem keepsDefault_atomic {α : Type} {l : SavedMethodCall}
    {f : Input Unit → SavedMethods → Except Failure (α × SavedMethods)}
    (h : ∀ i s a s', OneDefault customerId s → f i s = .ok (a, s') → OneDefault customerId s') :
    KeepsDefault customerId (atomic l f) :=
  every_atomic (fun _ _ hs => hs.2) fun i s a s' hs _ hf => h i s a s' hs.2 hf

theorem keepsDefault_cached {α : Type} {l : SavedMethodCall}
    {f : Input Unit → SavedMethods → Except Failure α × SavedMethods}
    (h : ∀ i s, (f i s).2.methods = s.methods) : KeepsDefault customerId (Prog.call l f) := by
  refine Prog.every_call fun i s hs => ?_
  have hold := hs.2
  unfold OneDefault at hold ⊢
  rwa [h i s]

theorem invalidateSaved_keepsDefault (c : ℕ) : KeepsDefault customerId (invalidateSaved c) := by
  refine keepsDefault_cached fun i s => ?_
  dsimp only
  split <;> rfl

theorem listSaved_keepsDefault (c : ℕ) : KeepsDefault customerId (listSaved c) := by
  refine Prog.Every.bind (keepsDefault_cached fun _ _ => rfl) fun hit => ?_
  cases hit with
  | some views => trivial
  | none =>
    refine Prog.Every.bind keepsDefault_query fun rows => ?_
    refine Prog.Every.bind (keepsDefault_cached fun i s => ?_) fun _ => trivial
    dsimp only
    split <;> rfl

theorem clear_keepsDefault (c : ℕ) : KeepsDefault customerId
    (atomic (.clearDefaults c) fun _ s => .ok ((), clearDefaults c s) : SavedMethodProg Unit) := by
  refine keepsDefault_atomic fun i s a s' hs h => ?_
  obtain ⟨-, rfl⟩ := Prod.mk.inj (Except.ok.inj h)
  exact clearDefaults_oneDefault c hs

theorem saveMethod_keepsDefault (c : ℕ) (input : SaveMethodInput) :
    KeepsDefault customerId (saveMethod c input) := by
  have hinsert : KeepsDefault customerId (do
      let row ← atomic (.create c (input.isDefault.getD false)) fun i s =>
        createMethod c input i.now s
      invalidateSaved c
      pure (mapSavedMethod row) : SavedMethodProg SavedMethodView) := by
    refine Prog.Every.bind (keepsDefault_atomic fun i s a s' hs h =>
      createMethod_oneDefault hs h) fun row => ?_
    exact Prog.Every.bind (invalidateSaved_keepsDefault c) fun _ => trivial
  unfold saveMethod
  split
  · exact Prog.Every.bind (clear_keepsDefault c) fun _ => hinsert
  · exact hinsert

theorem deleteSaved_keepsDefault (c id : ℕ) : KeepsDefault customerId (deleteSaved c id) := by
  refine Prog.Every.bind keepsDefault_query fun row => ?_
  refine Prog.Every.bind (Prog.every_orThrow _ _) fun _ => ?_
  refine Prog.Every.bind (keepsDefault_atomic fun i s a s' hs h =>
    archiveMethod_oneDefault hs h) fun _ => ?_
  exact invalidateSaved_keepsDefault c

theorem setDefaultSaved_keepsDefault (c id : ℕ) : KeepsDefault customerId (setDefaultSaved c id) := by
  refine Prog.Every.bind keepsDefault_query fun row => ?_
  refine Prog.Every.bind (Prog.every_orThrow _ _) fun _ => ?_
  refine Prog.Every.bind (clear_keepsDefault c) fun _ => ?_
  refine Prog.Every.bind (keepsDefault_atomic fun i s a s' hs h =>
    setDefault_oneDefault hs h) fun _ => ?_
  exact Prog.Every.bind (invalidateSaved_keepsDefault c) fun _ => listSaved_keepsDefault c

theorem request_keepsDefault (c : ℕ) (r : SavedMethodRequest) : KeepsDefault customerId (r.prog c) := by
  cases r with
  | save input => exact Prog.Every.bind (saveMethod_keepsDefault c input) fun _ => trivial
  | delete id => exact deleteSaved_keepsDefault c id
  | setDefault id => exact Prog.Every.bind (setDefaultSaved_keepsDefault c id) fun _ => trivial

def savedMethodCalls (customerId : ℕ) (requests : List SavedMethodRequest) (s : SavedMethods) :
    Pool SavedMethodCall (Input Unit) SavedMethods Failure Unit :=
  ⟨requests.map fun r => r.prog customerId, s⟩

/-- Whatever order the statements of the calls come in, and whatever fails, at no moment has the
customer two defaults. -/
theorem at_most_one_default {requests : List SavedMethodRequest} {sched : List (ℕ × Input Unit)}
    (hs : (defaultsOf customerId s).length ≤ 1) :
    (defaultsOf customerId ((savedMethodCalls customerId requests s).run sched).state).length ≤ 1 := by
  rw [← oneDefault_iff] at hs ⊢
  refine @Pool.inv_run _ _ _ _ _ _ (fun _ _ _ => True) (OneDefault customerId) _ ?_ hs ?_
  · intro p hp
    obtain ⟨r, -, rfl⟩ := List.mem_map.mp hp
    exact request_keepsDefault customerId r
  · exact Pool.admits_of_forall (fun _ _ _ => trivial) _ _

def twoMethods : SavedMethods where
  users := [7]
  gateways := [1]
  methods := (Table.empty.insert fun n =>
    { id := n, customerId := 7, gatewayId := 1, token := "tok_a", isDefault := true }).insert fun n =>
    { id := n, customerId := 7, gatewayId := 1, token := "tok_b" }

/-- Both calls clear the defaults before either sets its own. -/
def crossedDefaults : List (ℕ × Input Unit) :=
  [0, 1, 0, 1, 0, 1, 0, 0, 0].map fun j => (j, { reply := () })

theorem at_most_one_default_crossed :
    (defaultsOf 7 ((savedMethodCalls 7 [.setDefault 0, .save ⟨none, "tok_c", none, none, none, none,
      some true⟩] twoMethods).run crossedDefaults).state).length ≤ 1 :=
  at_most_one_default (by decide)

/-- There the index refuses the setter that comes second. -/
example : ((savedMethodCalls 7 [.setDefault 0, .save ⟨none, "tok_c", none, none, none, none, some true⟩]
    twoMethods).run crossedDefaults).threads.map Prog.hasThrown = [true, false] := by decide

end ElectronicsCart.Payments
