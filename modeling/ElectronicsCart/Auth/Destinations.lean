import ElectronicsCart.Auth.OtpRuns
import ElectronicsCart.Core.Alone

/-!
# Destinations of one-time passwords

`issueOtp` stores an address in small letters and without white space around it; `verifyOtp` looks
for the address in small letters as it was typed.  The two agree on a destination without an at sign,
and on an address exactly when there is no white space around it.
-/

namespace ElectronicsCart.Auth

open Interleaving Relational OtpService

/-! ### Texts -/

/-- `toLowerCase`, as far as white space is concerned. -/
structure LowerCase where
  fold : String → String
  /-- what stands around a text has no influence on its letters, and white space is no letter -/
  trim_fold : ∀ s, jsTrim (fold s) = fold (jsTrim s)
  keeps_space : ∀ s, jsTrim (fold s) = fold s → jsTrim s = s

/-- The service takes a destination with an at sign for an address. -/
def isAddress (destination : String) : Bool := destination.toList.contains '@'

def Matching (destination : String) (channel : OtpChannel) : Prop :=
  channel = .email ↔ isAddress destination = true

/-- Two destinations that differ in the letter case of an address or in the white space around it. -/
structure Variants (lower : LowerCase) (a b : String) : Prop where
  address : isAddress a = isAddress b
  same : if isAddress a = true then lower.fold (jsTrim a) = lower.fold (jsTrim b)
    else jsTrim a = jsTrim b

/-- The white space around a destination plays no part: there is none, or it is not an address. -/
def PlainlyTyped (destination : String) : Prop :=
  isAddress destination = false ∨ jsTrim destination = destination

variable {lower : LowerCase} {a b d : String} {channel : OtpChannel}

theorem normalized_eq (d : String) : normalized lower.fold d =
    if isAddress d = true then lower.fold d else jsTrim d := rfl

theorem normalizeDestination_eq (h : Matching d channel) : normalizeDestination lower.fold d channel =
    if isAddress d = true then lower.fold (jsTrim d) else jsTrim d := by
  unfold normalizeDestination
  by_cases haddress : isAddress d = true
  · rw [if_pos (h.mpr haddress), if_pos haddress, lower.trim_fold]
  · rw [if_neg fun hc => haddress (h.mp hc), if_neg haddress]

theorem normalized_eq_iff (h : Matching d channel) :
    normalized lower.fold d = normalizeDestination lower.fold d channel ↔ PlainlyTyped d := by
  rw [normalized_eq, normalizeDestination_eq h, PlainlyTyped]
  by_cases haddress : isAddress d = true
  · rw [if_pos haddress, if_pos haddress, haddress]
    constructor
    · intro heq
      exact .inr (lower.keeps_space d (by rw [lower.trim_fold, ← heq]))
    · rintro (hne | htrim)
      · exact absurd hne Bool.true_eq_false.mp
      · rw [htrim]
  · rw [if_neg haddress, if_neg haddress]
    exact iff_of_true rfl (.inl (Bool.eq_false_of_not_eq_true haddress))

theorem Variants.issued (h : Variants lower a b) (ha : Matching a channel) :
    normalizeDestination lower.fold a channel = normalizeDestination lower.fold b channel := by
  have hb : Matching b channel := by rwa [Matching, ← h.address]
  rw [normalizeDestination_eq ha, normalizeDestination_eq hb, ← h.address]
  have hsame := h.same
  split
  next haddress => rwa [if_pos haddress] at hsame
  next haddress => rwa [if_neg haddress] at hsame

theorem Variants.verified (h : Variants lower a b) (ha : PlainlyTyped a) (hb : PlainlyTyped b) :
    normalized lower.fold a = normalized lower.fold b := by
  rw [normalized_eq, normalized_eq, ← h.address]
  have hsame := h.same
  split
  next haddress =>
    rw [if_pos haddress] at hsame
    rw [PlainlyTyped, haddress] at ha
    rw [PlainlyTyped, ← h.address, haddress] at hb
    rwa [ha.resolve_left Bool.true_eq_false.mp, hb.resolve_left Bool.true_eq_false.mp] at hsame
  next haddress => rwa [if_neg haddress] at hsame

/-! ### The calls -/

variable {sha256 : String → String}

def issuedRow (sha256 toLowerCase : String → String) (r : IssueOtpInput) (draw created : OtpInput) :
    ℕ → Otp :=
  newOtp sha256 toLowerCase r (generateCode draw.reply.random) (draw.now + otpTtl) created.now

@[simp] theorem key_issuedRow (sha256 toLowerCase : String → String) (r : IssueOtpInput)
    (draw created : OtpInput) (n : ℕ) : key (issuedRow sha256 toLowerCase r draw created n) = n := rfl

def withOtp (row : ℕ → Otp) (hrow : ∀ n, key (row n) = n) (s : OtpState) : OtpState :=
  { s with otps := s.otps.insert row hrow }

theorem createOtp_ok {row : ℕ → Otp} (hrow : ∀ n, key (row n) = n) {s : OtpState}
    (h : (row s.otps.next).userId.all s.users.contains = true) :
    OtpRepository.create row hrow s = .ok (row s.otps.next, withOtp row hrow s) := by
  simp only [OtpRepository.create, h]
  rfl

theorem solo_issueOtp (r : IssueOtpInput) (s : OtpState) (draw created : OtpInput) :
    Pool.solo (issueOtp sha256 lower.fold r) s [draw, created] =
      Pool.solo ((atomic (.create (normalizeDestination lower.fold r.destination r.channel) r.purpose)
        fun i s => OtpRepository.create (newOtp sha256 lower.fold r (generateCode draw.reply.random)
          (draw.now + otpTtl) i.now) (fun _ => rfl) s).bind fun otp =>
            (.done (.ok ⟨generateCode draw.reply.random, draw.now + otpTtl, otp.id⟩)))
        s [created] :=
  rfl

theorem issued_spec {r : IssueOtpInput} {s : OtpState} {draw created : OtpInput} {res : IssueOtpResult}
    (h : (Pool.solo (issueOtp sha256 lower.fold r) s [draw, created]).result? = some (.ok res)) :
    res = ⟨generateCode draw.reply.random, draw.now + otpTtl, s.otps.next⟩ ∧
      (Pool.solo (issueOtp sha256 lower.fold r) s [draw, created]).state =
        withOtp (issuedRow sha256 lower.fold r draw created) (key_issuedRow _ _ _ _ _) s := by
  rw [solo_issueOtp] at h ⊢
  obtain ⟨hf, row, hrow⟩ := ok_of_solo_atomicBind h
  have hu : r.userId.all s.users.contains = true := by
    simp only [OtpRepository.create, bind_eq_ok, check_eq_ok] at hrow
    exact hrow.choose_spec.1
  have hcreate := createOtp_ok (key_issuedRow sha256 lower.fold r draw created) hu
  rw [solo_atomicBind hf hcreate] at h ⊢
  exact ⟨(Except.ok.inj (Option.some.inj h)).symm, rfl⟩

/-! ### Looking for the row -/

theorem newest_concat {os : List Otp} {o : Otp} (h : ∀ x ∈ os, x.createdAt < o.createdAt) :
    OtpRepository.newest (os ++ [o]) = some o := by
  induction os with
  | nil => rfl
  | cons x os ih =>
    have hx : x.createdAt < o.createdAt := h x (List.mem_cons_self ..)
    rw [List.cons_append, OtpRepository.newest, ih fun y hy => h y (List.mem_cons_of_mem x hy)]
    exact if_neg (by omega)

/-- No OTP of the destination and the purpose that can still be used is as new as the time. -/
def NoneAsNew (destination : String) (purpose : OtpPurpose) (now created : ℕ) (s : OtpState) : Prop :=
  ∀ o ∈ s.otps.rows, OtpRepository.isActive destination purpose now o = true → o.createdAt < created

theorem isActive_issuedRow {r : IssueOtpInput} {draw created : OtpInput} {n now : ℕ}
    {destination : String} (hnow : now < draw.now + otpTtl) :
    OtpRepository.isActive destination r.purpose now (issuedRow sha256 lower.fold r draw created n) =
      (normalizeDestination lower.fold r.destination r.channel == destination) := by
  simp [OtpRepository.isActive, issuedRow, newOtp, hnow]

theorem findLatestActive_withOtp {row : ℕ → Otp} {hrow : ∀ n, key (row n) = n} {s : OtpState}
    {destination : String} {purpose : OtpPurpose} {now : ℕ}
    (hactive : OtpRepository.isActive destination purpose now (row s.otps.next) = true)
    (hlatest : NoneAsNew destination purpose now (row s.otps.next).createdAt s) :
    OtpRepository.findLatestActive destination purpose now (withOtp row hrow s) =
      some (row s.otps.next) := by
  have hrows : (withOtp row hrow s).otps.rows = s.otps.rows ++ [row s.otps.next] := rfl
  rw [OtpRepository.findLatestActive, hrows, List.filter_append, List.filter_singleton, hactive]
  refine newest_concat fun x hx => ?_
  obtain ⟨hmem, hx⟩ := List.mem_filter.mp hx
  exact hlatest x hmem hx

/-! ### A verification -/

def verifyFound (sha256 : String → String) (code : String) (found : Option Otp) :
    OtpProg VerifyOtpResult := do
  let otp ← Prog.orThrow otpExpired found
  if otp.maxAttempts ≤ otp.attempts then throw otpMaxAttempts
  else if sha256 code = otp.codeHash then accept otp
  else reject otp.id

theorem solo_verifyOtp (r : VerifyOtpInput) (s : OtpState) {found used : OtpInput}
    (hfound : found.fails = false) :
    Pool.solo (verifyOtp sha256 lower.fold r) s [found, used] =
      Pool.solo (verifyFound sha256 r.code (OtpRepository.findLatestActive
        (normalized lower.fold r.destination) r.purpose found.now s)) s [used] :=
  solo_queryBind hfound

theorem solo_verifyFound_none (code : String) (s : OtpState) (inputs : List OtpInput) :
    (Pool.solo (verifyFound sha256 code none) s inputs).result? = some (.error otpExpired) := by
  have hdone : verifyFound sha256 code none = .done (.error otpExpired) := rfl
  rw [hdone, Pool.solo_done]
  rfl

theorem solo_verifyFound_some {code : String} {s : OtpState} {used : OtpInput} {o : Otp}
    (hused : used.fails = false) (hattempts : o.attempts < o.maxAttempts)
    (hcode : sha256 code = o.codeHash) (hrow : (s.otps.find? o.id).isSome = true) :
    (Pool.solo (verifyFound sha256 code (some o)) s [used]).result? = some (.ok ⟨o.userId, o.id⟩) := by
  have haccept : verifyFound sha256 code (some o) = accept o := by
    show (if o.maxAttempts ≤ o.attempts then throw otpMaxAttempts
      else if sha256 code = o.codeHash then accept o else reject o.id) = accept o
    rw [if_neg (not_le.mpr hattempts), if_pos hcode]
  have hconsume : ∃ s', OtpRepository.consume o.id used.now s = .ok ((), s') := by
    simp only [OtpRepository.consume, hrow]
    exact ⟨_, rfl⟩
  obtain ⟨s', hs'⟩ := hconsume
  rw [haccept]
  show (Pool.solo ((atomic (OtpCall.consume o.id) fun i s =>
    OtpRepository.consume o.id i.now s).bind fun _ =>
      .done (.ok (⟨o.userId, o.id⟩ : VerifyOtpResult))) s [used]).result? = _
  rw [solo_atomicBind hused hs']
  rfl

/-! ### The round trip -/

/-- An OTP issued for the destination by a caller alone is found when the same destination, purpose
and code are verified before it expires. -/
def RoundTrip (sha256 toLowerCase : String → String) (d : String) : Prop :=
  ∀ (r : IssueOtpInput) (s : OtpState) (draw created found used : OtpInput) (res : IssueOtpResult),
    r.destination = d → Matching d r.channel →
    (Pool.solo (issueOtp sha256 toLowerCase r) s [draw, created]).result? = some (.ok res) →
    NoneAsNew (normalizeDestination toLowerCase d r.channel) r.purpose found.now created.now s →
    found.now < res.expiresAt → found.fails = false → used.fails = false →
    (Pool.solo (verifyOtp sha256 toLowerCase ⟨d, r.purpose, res.code⟩)
      (Pool.solo (issueOtp sha256 toLowerCase r) s [draw, created]).state [found, used]).result? =
        some (.ok ⟨r.userId, res.otpId⟩)

theorem roundTrip_of_plain (hd : PlainlyTyped d) : RoundTrip sha256 lower.fold d := by
  intro r s draw created found used res hr hchannel hissued hnew hnow hfound hused
  obtain ⟨rfl, hstate⟩ := issued_spec hissued
  rw [hstate, solo_verifyOtp _ _ hfound]
  dsimp only at *
  rw [(normalized_eq_iff hchannel).mpr hd]
  subst hr
  have hactive := @isActive_issuedRow lower sha256 r draw created s.otps.next found.now
    (normalizeDestination lower.fold r.destination r.channel) hnow
  rw [beq_self_eq_true] at hactive
  rw [findLatestActive_withOtp hactive hnew]
  refine solo_verifyFound_some hused (show 0 < 5 by decide) rfl ?_
  exact Option.isSome_of_eq_some
    (Table.find?_insert_next (key_issuedRow sha256 lower.fold r draw created))

def channelOf (d : String) : OtpChannel := if isAddress d then .email else .sms

theorem matching_channelOf (d : String) : Matching d (channelOf d) := by
  unfold Matching channelOf
  cases isAddress d <;> simp

theorem plain_of_roundTrip (h : RoundTrip sha256 lower.fold d) : PlainlyTyped d := by
  by_contra hd
  let r : IssueOtpInput := { destination := d, channel := channelOf d, purpose := .login }
  let i : OtpInput := { reply := {} }
  have hnow : i.now < i.now + otpTtl := Nat.lt_add_of_pos_right (by decide)
  have hissued : (Pool.solo (issueOtp sha256 lower.fold r) {} [i, i]).result? =
      some (.ok ⟨generateCode i.reply.random, i.now + otpTtl, 0⟩) := rfl
  have hverified := h r {} i i i i _ rfl (matching_channelOf d) hissued
    (fun o ho => absurd ho List.not_mem_nil) hnow rfl rfl
  rw [(issued_spec hissued).2, solo_verifyOtp _ _ rfl] at hverified
  have hne : normalizeDestination lower.fold d (channelOf d) ≠ normalized lower.fold d := fun heq =>
    hd ((normalized_eq_iff (matching_channelOf d)).mp heq.symm)
  have hinactive : OtpRepository.isActive (normalized lower.fold d) r.purpose i.now
      (issuedRow sha256 lower.fold r i i 0) = false := by
    rw [isActive_issuedRow hnow]
    exact beq_false_of_ne hne
  have hnone : OtpRepository.findLatestActive (normalized lower.fold d) r.purpose i.now
      (withOtp (issuedRow sha256 lower.fold r i i) (key_issuedRow _ _ _ _ _) {}) = none := by
    show OtpRepository.newest ([issuedRow sha256 lower.fold r i i 0].filter _) = none
    rw [List.filter_singleton, hinactive]
    rfl
  rw [hnone, solo_verifyFound_none] at hverified
  cases Option.some.inj hverified

/-! ### Destinations that are the same -/

/-- Each of the two destinations makes the round trip, and both calls take them for the same. -/
structure SameDestination (sha256 toLowerCase : String → String) (a b : String) : Prop where
  first : RoundTrip sha256 toLowerCase a
  second : RoundTrip sha256 toLowerCase b
  issue : ∀ channel, Matching a channel →
    normalizeDestination toLowerCase a channel = normalizeDestination toLowerCase b channel
  verify : normalized toLowerCase a = normalized toLowerCase b

/-- Two spellings of a destination work alike exactly when neither is an address with white space
around it. -/
theorem sameDestination_iff (sha256 : String → String) (lower : LowerCase) {a b : String}
    (h : Variants lower a b) :
    SameDestination sha256 lower.fold a b ↔ PlainlyTyped a ∧ PlainlyTyped b := by
  constructor
  · intro hs
    exact ⟨plain_of_roundTrip hs.first, plain_of_roundTrip hs.second⟩
  · rintro ⟨ha, hb⟩
    exact ⟨roundTrip_of_plain ha, roundTrip_of_plain hb, fun _ hc => h.issued hc, h.verified ha hb⟩

/-! ### Small letters -/

theorem isJsSpace_toLower (c : Char) : isJsSpace c.toLower = isJsSpace c := by
  have hletters : ∀ n < 91, isJsSpace (Char.ofNat n).toLower = isJsSpace (Char.ofNat n) := by
    decide +kernel
  by_cases h : c.toNat < 91
  · have hc := hletters c.toNat h
    rwa [Char.ofNat_toNat] at hc
  · -- beyond the capitals nothing is changed
    have hlower : c.toLower = c := dif_neg fun hc => h (Nat.lt_succ_of_le hc.2)
    rw [hlower]

theorem trim_sublist (s : String) : (jsTrim s).toList.Sublist s.toList := by
  rw [jsTrim, String.toList_ofList]
  have hback := (List.dropWhile_sublist (p := isJsSpace)
    (l := (s.toList.dropWhile isJsSpace).reverse)).reverse
  rw [List.reverse_reverse] at hback
  exact hback.trans (List.dropWhile_sublist isJsSpace)

theorem trim_map {f : Char → Char} (hf : ∀ c, isJsSpace (f c) = isJsSpace c) (cs : List Char) :
    jsTrim (String.ofList (cs.map f)) = String.ofList ((jsTrim (String.ofList cs)).toList.map f) := by
  have hdrop : ∀ l : List Char, (l.map f).dropWhile isJsSpace = (l.dropWhile isJsSpace).map f := by
    intro l
    rw [List.dropWhile_map]
    congr 2
    exact funext hf
  simp only [jsTrim, String.toList_ofList]
  rw [hdrop, ← List.map_reverse, hdrop, ← List.map_reverse]

def smallLetters : LowerCase where
  fold s := String.ofList (s.toList.map Char.toLower)
  trim_fold s := by
    rw [trim_map isJsSpace_toLower, String.ofList_toList]
  keeps_space s h := by
    rw [trim_map isJsSpace_toLower, String.ofList_toList] at h
    have hlength := congrArg (fun t => t.toList.length) h
    simp only [String.toList_ofList, List.length_map] at hlength
    exact String.toList_inj.mp ((trim_sublist s).eq_of_length hlength)

/-- An address typed in capitals. -/
theorem capitals_same : SameDestination id smallLetters.fold "User@x.in" "user@x.in" :=
  (sameDestination_iff id smallLetters ⟨by decide +kernel, by decide +kernel⟩).mpr
    ⟨.inr (by decide +kernel), .inr (by decide +kernel)⟩

/-- An address typed behind a space is issued an OTP that it does not find. -/
theorem space_lost : Variants smallLetters " a@x.in" "a@x.in" ∧
    ¬ RoundTrip id smallLetters.fold " a@x.in" := by
  refine ⟨⟨by decide +kernel, by decide +kernel⟩, fun h => ?_⟩
  exact absurd (plain_of_roundTrip h) (by unfold PlainlyTyped; decide +kernel)

end ElectronicsCart.Auth
