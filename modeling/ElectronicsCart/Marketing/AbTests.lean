import ElectronicsCart.Core.Alone
import ElectronicsCart.Lib.Table
import ElectronicsCart.Lib.WeightedScan
import ElectronicsCart.Marketing.Coupons

/-!
# A/B tests

`AbTestService.expose` of `growth.services.ts`.  The hash of a customer and a test falls into one of
a hundred buckets, and a scan over the weights of the variants turns the bucket into a variant.  The
query names no order for the variants.
-/

namespace ElectronicsCart.Marketing

open Interleaving Relational

/-- `ab_test_status`. -/
inductive AbTestStatus where
  | draft | running | paused | completed | cancelled
deriving DecidableEq, Repr

structure AbTestRow where
  id : String
  code : String
  status : AbTestStatus := .draft
  deleted : Bool := false
deriving DecidableEq, Repr

/-- An `ab_test_variants` row; `config` is the text of `config_json`. -/
structure AbTestVariantRow where
  id : ℕ
  testId : String
  code : String
  weightPercent : ℚ := 50
  config : Option String := none
  status : RecordStatus := .active
  deleted : Bool := false
deriving DecidableEq, Repr

instance : Keyed AbTestVariantRow := ⟨AbTestVariantRow.id⟩

structure AbTestResultRow where
  testId : String
  variantId : ℕ
  metricKey : String
  metricValue : ℚ
  sampleSize : ℕ
  createdBy : Option String
deriving DecidableEq, Repr

structure AbTestExposureEvent where
  testId : String
  variantId : ℕ
  customerId : Option String
deriving DecidableEq, Repr

structure AbTests where
  users : List String
  tests : List AbTestRow
  variants : Table AbTestVariantRow
  results : List AbTestResultRow := []
  published : List AbTestExposureEvent := []
  /-- `uq_ab_tests_code_active` -/
  codes : ((tests.filter fun t => !t.deleted).map AbTestRow.code).Nodup

inductive AbTestCall where
  | findTest (code : String)
  | createResult (testId : String) (variantId : ℕ)
  | publish
deriving DecidableEq, Repr

abbrev AbTestProg := Prog AbTestCall (Input Unit) AbTests Failure

/-! ### Buckets -/

/-- What `charCodeAt` reads of a character: its code, or a surrogate pair. -/
def charCodes (c : Char) : List ℕ :=
  if c.toNat < 0x10000 then [c.toNat]
  else [0xD800 + (c.toNat - 0x10000) / 0x400, 0xDC00 + (c.toNat - 0x10000) % 0x400]

def hashPercent (input : String) : ℕ :=
  ((input.toList.flatMap charCodes).foldl (fun h code => (h * 31 + code) % 2 ^ 32) 0) % 100

theorem hashPercent_lt (input : String) : hashPercent input < 100 :=
  Nat.mod_lt _ (by decide)

def bucketOf (customerId : Option String) (testId : String) : ℕ :=
  hashPercent (customerId.getD "anon" ++ testId)

/-! ### The service -/

/-- The variants that the query includes, in no particular order. -/
def liveVariants (testId : String) (s : AbTests) : List AbTestVariantRow :=
  s.variants.rows.filter fun v => v.testId == testId && !v.deleted && v.status = .active

def isRunning (t : AbTestRow) : Bool := !t.deleted && t.status = .running

structure RunningTest where
  id : String
  variants : List AbTestVariantRow

def findRunning (rank : ℕ → ℕ) (code : String) (s : AbTests) : Option RunningTest :=
  (s.tests.find? fun t => t.code == code && isRunning t).map fun t =>
    ⟨t.id, (liveVariants t.id s).insertionSort fun a b => rank a.id ≤ rank b.id⟩

/-- The scan of `expose`; nothing changes `chosen` when no total passes the bucket. -/
def chooseVariant (bucket : ℕ) (chosen : AbTestVariantRow) :
    ℚ → List AbTestVariantRow → AbTestVariantRow
  | _, [] => chosen
  | cursor, v :: vs =>
    if bucket < cursor + v.weightPercent then v
    else chooseVariant bucket chosen (cursor + v.weightPercent) vs

def abTestNotFound : Failure := .throwApp .notFound "A/B test not found" 404

structure Exposure where
  testId : String
  variantId : ℕ
  variantCode : String
  config : Option String
deriving DecidableEq, Repr

def createResult (row : AbTestResultRow) (s : AbTests) : Except Failure (Unit × AbTests) := do
  check (row.createdBy.all s.users.contains) "ab_test_results_created_by_fkey"
  return ((), { s with results := s.results ++ [row] })

def expose (testCode : String) (customerId : Option String) : AbTestProg Exposure := do
  let found ← query (.findTest testCode) fun i s => findRunning i.rank testCode s
  let test ← Prog.orThrow abTestNotFound found
  let first ← Prog.orThrow abTestNotFound test.variants.head?
  let chosen := chooseVariant (bucketOf customerId test.id) first 0 test.variants
  atomic (.createResult test.id chosen.id) fun _ s =>
    createResult
      { testId := test.id, variantId := chosen.id, metricKey := "exposure", metricValue := 1,
        sampleSize := 1, createdBy := customerId } s
  Prog.call .publish fun _ s =>
    (.ok (), { s with published := s.published ++ [⟨test.id, chosen.id, customerId⟩] })
  pure ⟨test.id, chosen.id, chosen.code, chosen.config⟩

structure ExposeRequest where
  testCode : String
  customerId : Option String
deriving DecidableEq, Repr

def ExposeRequest.prog (q : ExposeRequest) : AbTestProg Exposure := expose q.testCode q.customerId

/-! ### What one exposure does -/

variable {s s' t : AbTests} {test : AbTestRow} {code : String} {customerId : Option String}
  {rank : ℕ → ℕ}

def SameTests (s s' : AbTests) : Prop :=
  s'.users = s.users ∧ s'.tests = s.tests ∧ s'.variants = s.variants

theorem SameTests.trans (h : SameTests s s') (h' : SameTests s' t) : SameTests s t :=
  ⟨h'.1.trans h.1, h'.2.1.trans h.2.1, h'.2.2.trans h.2.2⟩

theorem SameTests.liveVariants (h : SameTests s s') (testId : String) :
    liveVariants testId s' = liveVariants testId s := by
  simp only [Marketing.liveVariants, h.2.2]

theorem SameTests.findRunning (h : SameTests s s') :
    findRunning rank code s' = findRunning rank code s := by
  simp only [Marketing.findRunning, h.2.1, h.liveVariants]

/-- The customer's id may stand in `created_by`. -/
def Recordable (s : AbTests) (customerId : Option String) : Prop :=
  customerId.all s.users.contains = true

theorem SameTests.recordable (h : SameTests s s') :
    Recordable s' customerId ↔ Recordable s customerId := by
  simp only [Recordable, h.1]

/-- Some order of the rows leads to the exposure. -/
def Chosen (s : AbTests) (q : ExposeRequest) (e : Exposure) : Prop :=
  Recordable s q.customerId ∧ ∃ rank found first, findRunning rank q.testCode s = some found ∧
    found.variants.head? = some first ∧
    e.variantId = (chooseVariant (bucketOf q.customerId found.id) first 0 found.variants).id

theorem createResult_eq_ok {row : AbTestResultRow} {u : Unit} :
    createResult row s = .ok (u, s') ↔
      Recordable s row.createdBy ∧ s' = { s with results := s.results ++ [row] } := by
  simp only [createResult, bind_eq_ok, check_eq_ok, pure_eq_ok, Prod.mk.injEq, true_and, Recordable]
  constructor
  · rintro ⟨-, huser, hs⟩
    exact ⟨huser, hs.symm⟩
  · rintro ⟨huser, hs⟩
    exact ⟨(), huser, hs.symm⟩

theorem expose_alone (q : ExposeRequest) (s : AbTests) :
    Alone (fun _ _ _ => True) (fun r s' => SameTests s s' ∧ ∀ e, r = .ok e → Chosen s q e)
      q.prog s := by
  have hsame : SameTests s s := ⟨rfl, rfl, rfl⟩
  refine Alone.queryBind (fun i _ _ => ?_) fun _ _ _ => ⟨hsame, fun e he => nomatch he⟩
  refine Alone.orThrowBind (fun found hfound => ?_) fun _ => ⟨hsame, fun e he => nomatch he⟩
  refine Alone.orThrowBind (fun first hfirst => ?_) fun _ => ⟨hsame, fun e he => nomatch he⟩
  refine Alone.atomicBind (fun _ _ u _ _ hu => ?_) fun _ _ _ _ => ⟨hsame, fun e he => nomatch he⟩
  obtain ⟨huser, rfl⟩ := createResult_eq_ok.mp hu
  refine Alone.callBind fun _ _ => ⟨fun _ _ => Alone.done ?_, fun _ he => nomatch he⟩
  refine ⟨hsame, fun e he => ?_⟩
  obtain rfl := Except.ok.inj he
  exact ⟨huser, i.rank, found, first, hfound, hfirst, rfl⟩

theorem expose_ran {found : RunningTest} {first : AbTestVariantRow}
    (hfound : findRunning rank code s = some found) (hfirst : found.variants.head? = some first)
    (huser : Recordable s customerId) :
    ∃ e s', Pool.Ran (fun _ _ _ => True) (expose code customerId) s (.ok e) s' ∧
      e.variantId = (chooseVariant (bucketOf customerId found.id) first 0 found.variants).id := by
  let chosen := chooseVariant (bucketOf customerId found.id) first 0 found.variants
  have hcreate : ∀ row : AbTestResultRow, row.createdBy = customerId →
      createResult row s = .ok ((), { s with results := s.results ++ [row] }) :=
    fun row hrow => createResult_eq_ok.mpr ⟨hrow ▸ huser, rfl⟩
  refine ⟨⟨found.id, chosen.id, chosen.code, chosen.config⟩, _,
    ⟨[{ rank, reply := () }, { reply := () }, { reply := () }],
      Pool.soloAdmits_of_forall fun _ _ _ _ => trivial, ?_, rfl⟩, rfl⟩
  unfold expose
  simp only [Prog.bind_eq, Prog.pure_eq]
  rw [solo_queryBind rfl]
  simp only [hfound, hfirst, Prog.orThrow, Prog.done_ok_bind]
  rw [solo_atomicBind rfl (hcreate _ rfl)]
  rfl

theorem exposures_chosen {calls : List (ExposeRequest × Except Failure Exposure)}
    (h : Pool.History (fun _ _ _ => True) ExposeRequest.prog s calls t) :
    SameTests s t ∧ ∀ q e, (q, .ok e) ∈ calls → Chosen s q e := by
  refine h.invariant (P := fun calls t => SameTests s t ∧ ∀ q e, (q, .ok e) ∈ calls → Chosen s q e)
    ⟨⟨rfl, rfl, rfl⟩, fun q e he => nomatch he⟩ ?_
  rintro calls t q r u ⟨hsame, hcalls⟩ hr
  obtain ⟨hstep, hlast⟩ := ran_alone (expose_alone q t) hr
  refine ⟨hsame.trans hstep, fun q' e he => ?_⟩
  rcases List.mem_append.mp he with he | he
  · exact hcalls q' e he
  · obtain ⟨rfl, rfl⟩ := Prod.mk.inj (List.mem_singleton.mp he)
    obtain ⟨huser, rank, found, first, hfound, hchosen⟩ := hlast e rfl
    exact ⟨hsame.recordable.mp huser, rank, found, first, hsame.findRunning ▸ hfound, hchosen⟩

/-! ### Weights and orders -/

variable {vs rs : List AbTestVariantRow} {v : AbTestVariantRow} {bucket : ℕ}

def weight (v : AbTestVariantRow) : ℕ := v.weightPercent.num.toNat

def WholeWeights (vs : List AbTestVariantRow) : Prop :=
  (∀ v ∈ vs, ∃ n : ℕ, v.weightPercent = n) ∧ (vs.map AbTestVariantRow.weightPercent).sum = 100

/-- In every order, each variant has as many of the hundred buckets as its weight says. -/
def BucketsShared (vs : List AbTestVariantRow) : Prop :=
  ∀ rs first, rs.Perm vs → rs.head? = some first → ∀ v ∈ vs,
    ((((Finset.range 100).filter fun bucket => chooseVariant bucket first 0 rs = v).card : ℕ) : ℚ) =
      v.weightPercent

theorem WholeWeights.perm (h : WholeWeights vs) (hp : rs.Perm vs) : WholeWeights rs := by
  refine ⟨fun v hv => h.1 v (hp.mem_iff.mp hv), ?_⟩
  rw [(hp.map AbTestVariantRow.weightPercent).sum_eq]
  exact h.2

theorem WholeWeights.whole (h : WholeWeights vs) (hv : v ∈ vs) : v.weightPercent = weight v := by
  obtain ⟨n, hn⟩ := h.1 v hv
  simp [weight, hn]

theorem WholeWeights.total (h : WholeWeights vs) : WeightedScan.total weight vs = 100 := by
  have hmap : vs.map AbTestVariantRow.weightPercent = vs.map fun v => (weight v : ℚ) :=
    List.map_congr_left fun v hv => h.whole hv
  have hsum := h.2
  rw [hmap] at hsum
  have hcast : ((WeightedScan.total weight vs : ℕ) : ℚ) = (vs.map fun v => (weight v : ℚ)).sum := by
    have hmapped := map_list_sum (Nat.castRingHom ℚ) (vs.map weight)
    rw [List.map_map] at hmapped
    exact hmapped
  exact_mod_cast hcast.trans hsum

theorem chooseVariant_eq (hw : ∀ v ∈ vs, v.weightPercent = weight v) (first : AbTestVariantRow)
    (cursor : ℕ) : chooseVariant bucket first cursor vs =
      (WeightedScan.pick weight vs cursor bucket).getD first := by
  induction vs generalizing cursor with
  | nil => rfl
  | cons v vs ih =>
    have hcursor : (cursor : ℚ) + v.weightPercent = ((cursor + weight v : ℕ) : ℚ) := by
      rw [hw v List.mem_cons_self, Nat.cast_add]
    simp only [chooseVariant, WeightedScan.pick, hcursor, Nat.cast_lt]
    by_cases hlt : bucket < cursor + weight v
    · rw [if_pos hlt, if_pos hlt, Option.getD_some]
    · rw [if_neg hlt, if_neg hlt]
      exact ih (fun u hu => hw u (List.mem_cons_of_mem v hu)) _

theorem chooseVariant_of_pick (hw : WholeWeights vs) (h : WeightedScan.pick weight vs 0 bucket = some v)
    (first : AbTestVariantRow) : chooseVariant bucket first 0 vs = v := by
  have hscan : chooseVariant bucket first (0 : ℕ) vs = _ :=
    chooseVariant_eq (fun u hu => hw.whole hu) first 0
  rw [Nat.cast_zero, h, Option.getD_some] at hscan
  exact hscan

theorem buckets_shared (hw : WholeWeights vs) (hnd : vs.Nodup) : BucketsShared vs := by
  intro rs first hp hfirst v hv
  have hrs := hw.perm hp
  have hchosen : ∀ bucket ∈ Finset.range 100, chooseVariant bucket first 0 rs = v ↔
      WeightedScan.pick weight rs 0 bucket = some v := by
    intro bucket hb
    have hpick : ∃ u, WeightedScan.pick weight rs 0 bucket = some u :=
      WeightedScan.exists_pick (by simpa [hrs.total] using hb) (Nat.zero_le _)
    obtain ⟨u, hu⟩ := hpick
    rw [chooseVariant_of_pick hrs hu, hu, Option.some.injEq]
  rw [Finset.filter_congr hchosen, hw.whole hv]
  have hcard := WeightedScan.card_pick weight (hp.nodup_iff.mpr hnd) (hp.mem_iff.mpr hv)
  rw [hrs.total] at hcard
  exact congrArg Nat.cast hcard

/-! ### The variant of a customer -/

/-- Whatever order each call gets the variants in, the customer is shown one of them only. -/
def SameVariant (s : AbTests) (q : ExposeRequest) : Prop :=
  ∀ calls t, Pool.History (fun _ _ _ => True) ExposeRequest.prog s calls t →
    ∀ a b, (q, .ok a) ∈ calls → (q, .ok b) ∈ calls → a.variantId = b.variantId

theorem nodup_liveVariants (testId : String) (s : AbTests) :
    ((liveVariants testId s).map key).Nodup :=
  s.variants.nodup.sublist (List.filter_sublist.map key)

theorem findRunning_eq (ht : test ∈ s.tests) (hrun : isRunning test = true) (rank : ℕ → ℕ) :
    findRunning rank test.code s = some
      ⟨test.id, (liveVariants test.id s).insertionSort fun a b => rank a.id ≤ rank b.id⟩ := by
  have hdeleted : test.deleted = false := by
    simp only [isRunning, Bool.and_eq_true, Bool.not_eq_true'] at hrun
    exact hrun.1
  have hfind : s.tests.find? (fun t => t.code == test.code && isRunning t) = some test := by
    cases hf : s.tests.find? fun t => t.code == test.code && isRunning t with
    | none =>
      have hnone := List.find?_eq_none.mp hf test ht
      simp [hrun] at hnone
    | some t =>
      have hp := List.find?_some hf
      simp only [isRunning, Bool.and_eq_true, beq_iff_eq, Bool.not_eq_true'] at hp
      have hmem : t ∈ s.tests.filter fun t => !t.deleted :=
        List.mem_filter.mpr ⟨List.mem_of_find?_eq_some hf, by simp [hp.2.1]⟩
      have hmem' : test ∈ s.tests.filter fun t => !t.deleted :=
        List.mem_filter.mpr ⟨ht, by simp [hdeleted]⟩
      rw [List.inj_on_of_nodup_map s.codes hmem hmem' hp.1]
  rw [findRunning, hfind]
  rfl

theorem exposes_pick (ht : test ∈ s.tests) (hrun : isRunning test = true)
    (hw : WholeWeights (liveVariants test.id s)) (huser : Recordable s customerId)
    (hp : rs.Perm (liveVariants test.id s))
    (hpick : WeightedScan.pick weight rs 0 (bucketOf customerId test.id) = some v) :
    ∃ e s', Pool.Ran (fun _ _ _ => True) (ExposeRequest.prog ⟨test.code, customerId⟩) s (.ok e) s' ∧
      e.variantId = v.id := by
  obtain ⟨rank, hrank⟩ := Table.exists_rank (nodup_liveVariants test.id s) hp
  have hfound : findRunning rank test.code s = some ⟨test.id, rs⟩ :=
    (findRunning_eq ht hrun rank).trans
      (congrArg (fun vs => some (RunningTest.mk test.id vs)) hrank)
  have hne : rs ≠ [] := List.ne_nil_of_mem (WeightedScan.mem_of_pick hpick)
  obtain ⟨e, s', hran, he⟩ := expose_ran hfound (List.head?_eq_some_head hne) huser
  refine ⟨e, s', hran, ?_⟩
  rw [he, chooseVariant_of_pick (hw.perm hp) hpick]

theorem exposes_always (ht : test ∈ s.tests) (hrun : isRunning test = true)
    (hw : WholeWeights (liveVariants test.id s))
    (hall : ∀ rs, rs.Perm (liveVariants test.id s) →
      WeightedScan.pick weight rs 0 (bucketOf customerId test.id) = some v) {e : Exposure}
    (h : Chosen s ⟨test.code, customerId⟩ e) : e.variantId = v.id := by
  obtain ⟨-, rank, found, first, hfound, -, hid⟩ := h
  obtain rfl := Option.some.inj ((findRunning_eq ht hrun rank).symm.trans hfound)
  have hp := List.perm_insertionSort (fun a b : AbTestVariantRow => rank a.id ≤ rank b.id)
    (liveVariants test.id s)
  rw [hid, chooseVariant_of_pick (hw.perm hp) (hall _ hp)]

theorem SameVariant.picks (ht : test ∈ s.tests) (hrun : isRunning test = true)
    (hw : WholeWeights (liveVariants test.id s)) (huser : Recordable s customerId)
    (hsame : SameVariant s ⟨test.code, customerId⟩) :
    ∃ v ∈ liveVariants test.id s, ∀ rs, rs.Perm (liveVariants test.id s) →
      WeightedScan.pick weight rs 0 (bucketOf customerId test.id) = some v := by
  have hsome : ∀ rs, rs.Perm (liveVariants test.id s) →
      ∃ v, WeightedScan.pick weight rs 0 (bucketOf customerId test.id) = some v := by
    intro rs hp
    refine WeightedScan.exists_pick ?_ (Nat.zero_le _)
    rw [(hw.perm hp).total, Nat.zero_add]
    exact hashPercent_lt _
  obtain ⟨v, hv⟩ := hsome _ (List.Perm.refl _)
  have hmem := WeightedScan.mem_of_pick hv
  refine ⟨v, hmem, fun rs hp => ?_⟩
  obtain ⟨u, hu⟩ := hsome rs hp
  -- two calls, the second of which gets the rows in the order `rs`
  obtain ⟨a, t, hrun₁, hidv⟩ := exposes_pick ht hrun hw huser (List.Perm.refl _) hv
  have hkept := (ran_alone (expose_alone ⟨test.code, customerId⟩ s) hrun₁).1
  have hlive := hkept.liveVariants test.id
  obtain ⟨b, t', hrun₂, hidu⟩ := exposes_pick (s := t) (hkept.2.1 ▸ ht) hrun (hlive ▸ hw)
    (hkept.recordable.mpr huser) (hlive ▸ hp) hu
  have hid := hsame _ _ (.snoc (.snoc .nil hrun₁) hrun₂) a b (by simp) (by simp)
  have heq : u = v := by
    refine s.variants.eq_of_key_eq ?_ (List.mem_of_mem_filter hmem) ?_
    · exact List.mem_of_mem_filter (hp.mem_iff.mp (WeightedScan.mem_of_pick hu))
    · exact hidu.symm.trans (hid.symm.trans hidv)
  rw [hu, heq]

/-- The buckets are shared out as the weights say, in every order.  A customer keeps one variant
exactly when the bucket of the customer lies in the intervals that some variant has in first and in
last place. -/
theorem exposure_steady_iff (s : AbTests) (test : AbTestRow) (customerId : Option String)
    (ht : test ∈ s.tests) (hrun : isRunning test = true)
    (hw : WholeWeights (liveVariants test.id s)) :
    (BucketsShared (liveVariants test.id s) ∧ SameVariant s ⟨test.code, customerId⟩) ↔
      (Recordable s customerId → ∃ v ∈ liveVariants test.id s,
        100 - v.weightPercent ≤ bucketOf customerId test.id ∧
          bucketOf customerId test.id < v.weightPercent) := by
  have hnd : (liveVariants test.id s).Nodup := (nodup_liveVariants test.id s).of_map
  have hcond : ∀ v ∈ liveVariants test.id s,
      ((∀ rs, rs.Perm (liveVariants test.id s) →
        WeightedScan.pick weight rs 0 (bucketOf customerId test.id) = some v) ↔
      100 - v.weightPercent ≤ bucketOf customerId test.id ∧
        bucketOf customerId test.id < v.weightPercent) := by
    intro v hv
    rw [WeightedScan.pick_perm_iff hnd hv, hw.total, hw.whole hv, sub_le_iff_le_add]
    norm_cast
  constructor
  · rintro ⟨-, hsame⟩ huser
    obtain ⟨v, hv, hall⟩ := hsame.picks ht hrun hw huser
    exact ⟨v, hv, (hcond v hv).mp hall⟩
  · intro h
    refine ⟨buckets_shared hw hnd, fun calls t hcalls a b ha hb => ?_⟩
    have hchosen := (exposures_chosen hcalls).2
    obtain ⟨v, hv, hbucket⟩ := h (hchosen _ a ha).1
    have hall := (hcond v hv).mpr hbucket
    rw [exposes_always ht hrun hw hall (hchosen _ a ha),
      exposes_always ht hrun hw hall (hchosen _ b hb)]

def bannerTest : AbTestRow :=
  { id := "94000000-0000-0000-0000-000000000001", code := "banner", status := .running }

def bannerVariant (n : ℕ) (weightPercent : ℚ) : AbTestVariantRow :=
  { id := n, testId := bannerTest.id, code := toString n, weightPercent }

/-- One test with two variants of the given weights, and one user. -/
def bannerTests (a b : ℚ) : AbTests where
  users := ["00000000-0000-0000-0000-000000000001"]
  tests := [bannerTest]
  variants := (Table.empty.insert fun n => bannerVariant n a).insert fun n => bannerVariant n b
  codes := by decide

theorem liveVariants_banner (a b : ℚ) :
    liveVariants bannerTest.id (bannerTests a b) = [bannerVariant 0 a, bannerVariant 1 b] := by
  simp [liveVariants, bannerTests, Table.insert, Table.empty, bannerVariant]

/-- The user of `bannerTests`. -/
def bannerUser : Option String := some "00000000-0000-0000-0000-000000000001"

theorem wholeWeights_banner {a b : ℕ} (h : a + b = 100) :
    WholeWeights (liveVariants bannerTest.id (bannerTests a b)) := by
  rw [liveVariants_banner]
  refine ⟨fun v hv => ?_, ?_⟩
  · rcases List.mem_pair.mp hv with rfl | rfl
    · exact ⟨a, rfl⟩
    · exact ⟨b, rfl⟩
  · simp only [bannerVariant, List.map_cons, List.map_nil, List.sum_cons, List.sum_nil, add_zero]
    exact_mod_cast h

theorem exposure_steady_large :
    BucketsShared (liveVariants bannerTest.id (bannerTests (90 : ℕ) (10 : ℕ))) ∧
      SameVariant (bannerTests (90 : ℕ) (10 : ℕ)) ⟨bannerTest.code, bannerUser⟩ := by
  refine (exposure_steady_iff (bannerTests (90 : ℕ) (10 : ℕ)) bannerTest bannerUser
    List.mem_cons_self rfl (wholeWeights_banner rfl)).mpr fun _ => ?_
  have hbucket : bucketOf bannerUser bannerTest.id = 85 := by decide +kernel
  rw [hbucket, liveVariants_banner]
  exact ⟨bannerVariant 0 (90 : ℕ), List.mem_cons_self, by decide +kernel, by decide +kernel⟩

/-- With two halves, the customer is shown whichever comes first or whichever comes last. -/
theorem exposed_to_both :
    ¬ ∀ (s : AbTests) (test : AbTestRow) (customerId : Option String), test ∈ s.tests →
      isRunning test = true → WholeWeights (liveVariants test.id s) →
        BucketsShared (liveVariants test.id s) ∧ SameVariant s ⟨test.code, customerId⟩ := by
  intro h
  have hw : WholeWeights (liveVariants bannerTest.id (bannerTests (50 : ℕ) (50 : ℕ))) :=
    wholeWeights_banner rfl
  obtain ⟨-, hsame⟩ := h (bannerTests (50 : ℕ) (50 : ℕ)) bannerTest bannerUser List.mem_cons_self rfl hw
  obtain ⟨v, -, hall⟩ := hsame.picks List.mem_cons_self rfl hw
    (by simp [Recordable, bannerTests, bannerUser])
  rw [liveVariants_banner] at hall
  have hfirst := hall _ (List.Perm.refl _)
  have hlast := hall _ (List.Perm.swap ..)
  have hdiffer : WeightedScan.pick weight [bannerVariant 0 (50 : ℕ), bannerVariant 1 (50 : ℕ)] 0
      (bucketOf bannerUser bannerTest.id) ≠ WeightedScan.pick weight
        [bannerVariant 1 (50 : ℕ), bannerVariant 0 (50 : ℕ)] 0 (bucketOf bannerUser bannerTest.id) := by
    decide +kernel
  exact hdiffer (hfirst.trans hlast.symm)

end ElectronicsCart.Marketing
