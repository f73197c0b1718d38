import ElectronicsCart.Core.Lock
import ElectronicsCart.Lib.Table
import Mathlib.Data.Rat.Floor

/-!
# Loyalty points

`LoyaltyService.ensureAccount`, `earn` and `redeem` of
`modules/marketing/services/growth.services.ts`, over the tables `loyalty_accounts`,
`loyalty_transactions` and `reward_rules` of `database/sql/034_marketing.sql`.

Both calls read the account, compute the new balance from what they read and store
it as an absolute value in one transaction.  They take different locks, so an earn
and a redeem of one customer can overlap.
-/

namespace ElectronicsCart.Marketing

open Interleaving Relational

inductive LoyaltyTier where
  | bronze | silver | gold | platinum
deriving DecidableEq, Repr

def LoyaltyTier.text : LoyaltyTier → String
  | .bronze => "bronze"
  | .silver => "silver"
  | .gold => "gold"
  | .platinum => "platinum"

inductive LoyaltyTxType where
  | earn | redeem | expire | adjust | referralBonus | refund
deriving DecidableEq, Repr

structure LoyaltyAccount where
  id : ℕ
  customerId : ℕ
  pointsBalance : ℤ
  lifetimePoints : ℤ
  tier : LoyaltyTier
  deleted : Bool
deriving DecidableEq, Repr

structure LoyaltyTransaction where
  id : ℕ
  accountId : ℕ
  txType : LoyaltyTxType
  points : ℤ
  balanceAfter : ℤ
  referenceId : Option ℕ
  expiresAt : Option ℕ
  notes : Option String
deriving DecidableEq, Repr

structure RewardRule where
  id : ℕ
  code : String
  pointsPerRupee : Option ℚ
  fixedPoints : Option ℤ
  minOrderAmount : Option ℚ
  expiryDays : Option ℕ
  tierRequired : Option LoyaltyTier
  active : Bool
  deleted : Bool
deriving DecidableEq, Repr

instance : Keyed LoyaltyAccount := ⟨LoyaltyAccount.id⟩
instance : Keyed LoyaltyTransaction := ⟨LoyaltyTransaction.id⟩
instance : Keyed RewardRule := ⟨RewardRule.id⟩

inductive LoyaltyLock where
  | loyalty (customerId : ℕ)
  | loyaltyRedeem (customerId : ℕ)
deriving DecidableEq, Repr

structure LoyaltyState where
  users : List ℕ
  accounts : Table LoyaltyAccount
  transactions : Table LoyaltyTransaction
  rules : Table RewardRule
  locks : LockStore LoyaltyLock := fun _ => none

/-- The external calls of the two operations.  A balance write names the account and
the balance its call had read. -/
inductive LoyaltyCall where
  | acquire (key : LoyaltyLock) (token : ℕ)
  | release (key : LoyaltyLock) (token : ℕ)
  | findAccount (customerId : ℕ)
  | createAccount (customerId : ℕ)
  | findRule (code : Option String)
  | writeBalance (accountId : ℕ) (read : ℤ)
deriving DecidableEq, Repr

instance : Lockable LoyaltyCall LoyaltyState LoyaltyLock where
  locks := LoyaltyState.locks
  setLocks m s := { s with locks := m }
  acquireCall := .acquire
  releaseCall := .release
  resource
    | .loyalty c => ["marketing", "loyalty", toString c]
    | .loyaltyRedeem c => ["marketing", "loyalty-redeem", toString c]
  locks_setLocks _ _ := rfl

abbrev LoyaltyProg := Prog LoyaltyCall (Input Unit) LoyaltyState Failure

structure LoyaltyEarnDto where
  customerId : ℕ
  orderTotal : ℚ
  orderId : Option ℕ := none
  ruleCode : Option String := none
deriving DecidableEq, Repr

structure LoyaltyRedeemDto where
  points : ℤ
  notes : Option String := none
deriving DecidableEq, Repr

structure PointsResult where
  points : ℤ
  balance : ℤ
deriving DecidableEq, Repr

/-! ### Accounts -/

def createAccount (customerId : ℕ) (s : LoyaltyState) :
    Except Failure (LoyaltyAccount × LoyaltyState) := do
  check (s.users.contains customerId) "loyalty_accounts_customer_id_fkey"
  check (s.accounts.rows.all fun a => a.deleted || a.customerId != customerId)
    "uq_loyalty_accounts_customer_active"
  let mk := fun n => LoyaltyAccount.mk n customerId 0 0 .bronze false
  return (mk s.accounts.next, { s with accounts := s.accounts.insert mk })

def ensureAccount (customerId : ℕ) : LoyaltyProg LoyaltyAccount := do
  let account ← query (.findAccount customerId) fun _ s =>
    s.accounts.first? fun a => a.customerId == customerId && !a.deleted
  match account with
  | some a => pure a
  | none => atomic (.createAccount customerId) fun _ s => createAccount customerId s

/-! ### Eligibility -/

/-- The leaves `buildRewardConditions` makes for a rule, each with its reason text and
its value on the facts of this call (`utils/rule-builders.ts`). -/
def rewardConditions (rule : RewardRule) (orderTotal : ℚ) (tier : LoyaltyTier) :
    List (String × Bool) :=
  (rule.minOrderAmount.toList.map fun m =>
      ("order.total >= " ++ stringifyAmount m, decide (m ≤ orderTotal))) ++
    (rule.tierRequired.toList.map fun t => ("customer.tier == " ++ t.text, tier == t))

/-- The short-circuiting `all` group of `ConditionEvaluator`: the reasons up to the
first leaf that fails, or none of them when every leaf matches. -/
def firstUnmet (reasons : List String) : List (String × Bool) → Option (List String)
  | [] => none
  | (reason, matched) :: rest =>
    if matched then firstUnmet (reasons ++ [reason]) rest else some (reasons ++ [reason])

def notEligible (reasons : List String) : Failure :=
  let text := "; ".intercalate reasons
  .throwApp .conflict (if text.isEmpty then "Not eligible" else text) 409

def rewardPoints (rule : RewardRule) (orderTotal : ℚ) : ℤ :=
  rule.fixedPoints.getD (orderTotal * rule.pointsPerRupee.getD 0).floor

/-! ### Earn and redeem -/

def writeBalance (accountId : ℕ) (balance lifetime : ℤ) (tx : ℕ → LoyaltyTransaction)
    (htx : ∀ n, key (tx n) = n) (s : LoyaltyState) : Except Failure (Unit × LoyaltyState) := do
  let account ← (s.accounts.find? accountId).elim (.error (.constraint "P2025")) .ok
  check (fitsInt4 balance && decide (0 ≤ balance)) "loyalty_accounts_points_balance_check"
  let total := account.lifetimePoints + lifetime
  check (fitsInt4 total && decide (0 ≤ total)) "loyalty_accounts_lifetime_points_check"
  check (fitsInt4 (tx s.transactions.next).points) "loyalty_transactions_points"
  return ((), { s with
    accounts := s.accounts.update accountId fun a =>
      { a with pointsBalance := balance, lifetimePoints := total }
    transactions := s.transactions.insert tx htx })

def earn (token : ℕ) (dto : LoyaltyEarnDto) : LoyaltyProg PointsResult :=
  LockService.withLock (LoyaltyLock.loyalty dto.customerId) token do
    let account ← ensureAccount dto.customerId
    let found ← query (.findRule dto.ruleCode) fun _ s =>
      s.rules.first? fun r => !r.deleted && r.active && (truthy dto.ruleCode).all (r.code == ·)
    let rule ← Prog.orThrow (.throwApp .notFound "Reward rule not found" 404) found
    match firstUnmet [] (rewardConditions rule dto.orderTotal account.tier) with
    | some reasons => throw (notEligible reasons)
    | none =>
      let points := rewardPoints rule dto.orderTotal
      if points ≤ 0 then
        pure ⟨0, account.pointsBalance⟩
      else do
        let balance := account.pointsBalance + points
        atomic (.writeBalance account.id account.pointsBalance) fun i s =>
          writeBalance account.id balance points
            (fun n => ⟨n, account.id, .earn, points, balance, dto.orderId,
              rule.expiryDays.map fun d => i.now + d * 86400000, none⟩) (fun _ => rfl) s
        pure ⟨points, balance⟩

def redeem (token : ℕ) (customerId : ℕ) (dto : LoyaltyRedeemDto) : LoyaltyProg PointsResult :=
  LockService.withLock (LoyaltyLock.loyaltyRedeem customerId) token do
    let account ← ensureAccount customerId
    Prog.ensure (dto.points ≤ account.pointsBalance)
      (.throwApp .conflict "Insufficient points" 409)
    let balance := account.pointsBalance - dto.points
    atomic (.writeBalance account.id account.pointsBalance) fun _ s =>
      writeBalance account.id balance 0
        (fun n => ⟨n, account.id, .redeem, -dto.points, balance, none, none, dto.notes⟩)
        (fun _ => rfl) s
    pure ⟨dto.points, balance⟩

inductive LoyaltyRequest where
  | earn (dto : LoyaltyEarnDto)
  | redeem (customerId : ℕ) (dto : LoyaltyRedeemDto)
deriving DecidableEq, Repr

def LoyaltyRequest.prog (token : ℕ) : LoyaltyRequest → LoyaltyProg PointsResult
  | .earn dto => Marketing.earn token dto
  | .redeem customerId dto => Marketing.redeem token customerId dto

/-- The requests as concurrent calls, each with its own lock token. -/
def loyaltyPool (requests : List LoyaltyRequest) (s : LoyaltyState) :
    Pool LoyaltyCall (Input Unit) LoyaltyState Failure PointsResult :=
  ⟨requests.mapIdx fun token r => r.prog token, s⟩

/-! ### The ledger -/

/-- Every balance is the sum of the account's ledger rows and is not negative; every
ledger row belongs to an account. -/
def Balanced (s : LoyaltyState) : Prop :=
  (∀ a ∈ s.accounts.rows,
    a.pointsBalance = s.transactions.total (fun t => t.accountId == a.id) LoyaltyTransaction.points ∧
      0 ≤ a.pointsBalance) ∧
    ∀ t ∈ s.transactions.rows, ∃ a ∈ s.accounts.rows, a.id = t.accountId

instance (s : LoyaltyState) : Decidable (Balanced s) := by
  unfold Balanced
  infer_instance

/-- A balance is written while the account still has the balance its call read. -/
def ReadIsCurrent : LoyaltyCall → Input Unit → LoyaltyState → Prop
  | .writeBalance accountId read, _, s =>
    (s.accounts.find? accountId).all fun a => a.pointsBalance == read
  | _, _, _ => True

instance (l : LoyaltyCall) (i : Input Unit) (s : LoyaltyState) : Decidable (ReadIsCurrent l i s) := by
  cases l <;> unfold ReadIsCurrent <;> infer_instance

theorem total_eq_zero_of_no_account {s : LoyaltyState} (hs : Balanced s) {n : ℕ}
    (hn : ∀ a ∈ s.accounts.rows, a.id ≠ n) :
    s.transactions.total (fun t => t.accountId == n) LoyaltyTransaction.points = 0 := by
  refine List.sum_eq_zero ?_
  intro x hx
  obtain ⟨t, ht, rfl⟩ := List.mem_map.mp hx
  obtain ⟨a, ha, hat⟩ := hs.2 t ht
  have hne : t.accountId ≠ n := hat ▸ hn a ha
  simp [hne]

theorem createAccount_balanced {s s' : LoyaltyState} {customerId : ℕ} {a : LoyaltyAccount}
    (hs : Balanced s) (h : createAccount customerId s = .ok (a, s')) : Balanced s' := by
  simp only [createAccount, bind, Except.bind] at h
  split at h
  · cases h
  split at h
  · cases h
  obtain ⟨-, rfl⟩ := Prod.mk.inj (Except.ok.inj h)
  refine ⟨?_, ?_⟩
  · intro b hb
    rcases (Table.mem_insert fun _ => by rfl).mp hb with hb | rfl
    · exact hs.1 b hb
    · have hnew : ∀ c ∈ s.accounts.rows, c.id ≠ s.accounts.next := by
        intro c hc
        exact Nat.ne_of_lt (s.accounts.fresh c hc)
      exact ⟨(total_eq_zero_of_no_account hs hnew).symm, le_refl _⟩
  · intro t ht
    obtain ⟨b, hb, hbt⟩ := hs.2 t ht
    exact ⟨b, (Table.mem_insert fun _ => by rfl).mpr (.inl hb), hbt⟩

theorem writeBalance_cases {s s' : LoyaltyState} {accountId : ℕ} {balance lifetime : ℤ}
    {tx : ℕ → LoyaltyTransaction} {htx : ∀ n, key (tx n) = n} {u : Unit}
    (h : writeBalance accountId balance lifetime tx htx s = .ok (u, s')) :
    ∃ a, s.accounts.find? accountId = some a ∧ 0 ≤ balance ∧
      s' = { s with
        accounts := s.accounts.update accountId fun b =>
          { b with pointsBalance := balance, lifetimePoints := a.lifetimePoints + lifetime }
        transactions := s.transactions.insert tx htx } := by
  cases ha : s.accounts.find? accountId with
  | none => simp [writeBalance, ha, bind, Except.bind] at h
  | some a =>
    simp only [writeBalance, ha, Option.elim_some, bind, Except.bind] at h
    split at h
    · cases h
    next hb =>
      split at h
      · cases h
      split at h
      · cases h
      obtain ⟨-, rfl⟩ := Prod.mk.inj (Except.ok.inj h)
      have hpos := check_eq_ok.mp hb
      simp only [Bool.and_eq_true, decide_eq_true_eq] at hpos
      exact ⟨a, rfl, hpos.2, rfl⟩

theorem writeBalance_balanced {s s' : LoyaltyState} {accountId : ℕ} {balance lifetime : ℤ}
    {tx : ℕ → LoyaltyTransaction} {htx : ∀ n, key (tx n) = n} {u : Unit} (hs : Balanced s)
    (hacc : ∀ n, (tx n).accountId = accountId)
    (hread : ∀ a n, s.accounts.find? accountId = some a → balance = a.pointsBalance + (tx n).points)
    (h : writeBalance accountId balance lifetime tx htx s = .ok (u, s')) : Balanced s' := by
  obtain ⟨a, ha, hpos, rfl⟩ := writeBalance_cases h
  obtain ⟨hmem, hid⟩ := Table.find?_mem ha
  refine ⟨?_, ?_⟩
  · intro b hb
    obtain ⟨c, hc, rfl⟩ := (Table.mem_update fun _ => by rfl).mp hb
    by_cases hk : key c = accountId
    · obtain rfl : c = a := Table.eq_of_key_eq hc hmem (hk.trans hid.symm)
      have hbal := (hs.1 c hc).1
      have hck : c.id = accountId := hk
      simp only [hk, if_true, Table.total_insert, hacc, hck, beq_self_eq_true] at hbal ⊢
      exact ⟨by rw [hread c s.transactions.next ha, hbal], hpos⟩
    · have hck : accountId ≠ c.id := fun h => hk h.symm
      simpa [hk, Table.total_insert, hacc, hck] using hs.1 c hc
  · intro t ht
    have hex : ∃ c ∈ s.accounts.rows, c.id = t.accountId := by
      rcases (Table.mem_insert htx).mp ht with ht | rfl
      · exact hs.2 t ht
      · exact ⟨a, hmem, hid.trans (hacc _).symm⟩
    obtain ⟨c, hc, hct⟩ := hex
    refine ⟨_, List.mem_map_of_mem hc, ?_⟩
    split <;> exact hct

/-! ### Whole runs -/

theorem ensureAccount_every (customerId : ℕ) :
    (ensureAccount customerId).Every (fun l i s => ReadIsCurrent l i s ∧ Balanced s)
      fun _ _ _ s' => Balanced s' := by
  refine Prog.Every.bind (every_query fun _ _ ho => ho.2) fun account => ?_
  cases account with
  | some a => trivial
  | none => exact every_atomic (fun _ _ ho => ho.2) fun _ _ _ _ ho _ h => createAccount_balanced ho.2 h

theorem writeBalance_every {account : LoyaltyAccount} {lifetime points : ℤ}
    {tx : Input Unit → ℕ → LoyaltyTransaction} {htx : ∀ i n, key (tx i n) = n}
    (hacc : ∀ i n, (tx i n).accountId = account.id) (hpts : ∀ i n, (tx i n).points = points) :
    (atomic (.writeBalance account.id account.pointsBalance) fun i s =>
      writeBalance account.id (account.pointsBalance + points) lifetime (tx i) (htx i) s).Every
      (fun l i s => ReadIsCurrent l i s ∧ Balanced s) fun _ _ _ s' => Balanced s' := by
  refine every_atomic (fun _ _ ho => ho.2) ?_
  intro i s u s' ho _ h
  refine writeBalance_balanced ho.2 (hacc i) ?_ h
  intro a n ha
  have hread := ho.1
  simp only [ReadIsCurrent, ha, Option.all_some, beq_iff_eq] at hread
  rw [hpts, hread]

theorem earn_every (token : ℕ) (dto : LoyaltyEarnDto) :
    (earn token dto).Every (fun l i s => ReadIsCurrent l i s ∧ Balanced s)
      fun _ _ _ s' => Balanced s' := by
  refine LockService.every_withLock (fun _ _ _ _ _ ho => ⟨ho.2, ho.2⟩) ?_
  refine Prog.Every.bind (ensureAccount_every dto.customerId) fun account => ?_
  refine Prog.Every.bind (every_query fun _ _ ho => ho.2) fun found => ?_
  refine Prog.Every.bind (Prog.every_orThrow _ found) fun rule => ?_
  split
  · trivial
  dsimp only
  split
  · trivial
  refine Prog.Every.bind ?_ fun _ => trivial
  exact writeBalance_every (fun _ _ => rfl) fun _ _ => rfl

theorem redeem_every (token : ℕ) (customerId : ℕ) (dto : LoyaltyRedeemDto) :
    (redeem token customerId dto).Every (fun l i s => ReadIsCurrent l i s ∧ Balanced s)
      fun _ _ _ s' => Balanced s' := by
  refine LockService.every_withLock (fun _ _ _ _ _ ho => ⟨ho.2, ho.2⟩) ?_
  refine Prog.Every.bind (ensureAccount_every customerId) fun account => ?_
  refine Prog.Every.bind (Prog.every_ensure _ _) fun _ => ?_
  refine Prog.Every.bind ?_ fun _ => trivial
  simp only [sub_eq_add_neg]
  exact writeBalance_every (fun _ _ => rfl) fun _ _ => rfl

/-- Whatever the order of the calls, the balances agree with the ledger as long as no
balance is written from a read that has become stale. -/
theorem balanced_run (requests : List LoyaltyRequest) (s : LoyaltyState)
    (sched : List (ℕ × Input Unit)) (hs : Balanced s)
    (hread : (loyaltyPool requests s).Admits ReadIsCurrent sched) :
    Balanced ((loyaltyPool requests s).run sched).state := by
  refine Pool.inv_run ?_ hs hread
  intro t ht
  obtain ⟨token, hlt, rfl⟩ := List.mem_mapIdx.mp ht
  cases requests[token] with
  | earn dto => exact earn_every token dto
  | redeem customerId dto => exact redeem_every token customerId dto

/-- Customer 7 with a hundred points, and a rule worth ten. -/
def hundredPoints : LoyaltyState where
  users := [7]
  accounts := Table.empty.insert fun n => ⟨n, 7, 100, 100, .bronze, false⟩
  transactions := Table.empty.insert fun n => ⟨n, 0, .adjust, 100, 100, none, none, none⟩
  rules := Table.empty.insert fun n => ⟨n, "TEN", none, some 10, none, none, none, true, false⟩

def earnAndRedeem : List LoyaltyRequest := [.earn ⟨7, 500, none, none⟩, .redeem 7 ⟨30, none⟩]

def turns (threads : List ℕ) : List (ℕ × Input Unit) := threads.map fun j => (j, { reply := () })

/-- One call after the other. -/
theorem balanced_run_in_turn :
    Balanced hundredPoints ∧
      (loyaltyPool earnAndRedeem hundredPoints).Admits ReadIsCurrent (turns [0, 0, 0, 0, 0, 1, 1, 1, 1]) ∧
      Balanced ((loyaltyPool earnAndRedeem hundredPoints).run
        (turns [0, 0, 0, 0, 0, 1, 1, 1, 1])).state :=
  ⟨by decide, by decide,
    balanced_run earnAndRedeem hundredPoints (turns [0, 0, 0, 0, 0, 1, 1, 1, 1]) (by decide) (by decide)⟩

/-- Both calls read a hundred points, the earn stores 110, the redeem stores 70: the
ledger adds up to 80. -/
theorem earn_lost_to_redeem :
    Balanced hundredPoints ∧
      ((loyaltyPool earnAndRedeem hundredPoints).run (turns [0, 0, 1, 1, 0, 0, 1, 0, 1])).quiescent ∧
      ¬ Balanced ((loyaltyPool earnAndRedeem hundredPoints).run
        (turns [0, 0, 1, 1, 0, 0, 1, 0, 1])).state := by
  decide

end ElectronicsCart.Marketing
