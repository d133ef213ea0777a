import GameRewards.PayoutConditions

/-!
# When the reward arithmetic fails

A tier is computed as the total times its percentage, by 100, by the number of
decimals: the product can leave the range of an asset although the reward would
not, and a token without decimals makes the last division trap. The loop comes
to one tier for each contender, and an empty tier ends it with a check of its
own.
-/

namespace GameRewards

-- ---------------------------------------------------------------------------
-- Arithmetic failures
-- ---------------------------------------------------------------------------

def Asset.operatorMessages : List String :=
  ["multiplication overflow", "multiplication underflow", "divide by zero",
    "signed division overflow", "subtraction underflow", "subtraction overflow",
    "addition underflow", "addition overflow"]

/-- A division that traps, or a value out of range. -/
def Abort.isArithmetic : Abort → Bool
  | .divideByZero => true
  | .check message => message ∈ Asset.operatorMessages
  | .missingAuthority | .outOfRange => false

/-- The action may be refused, but not for its arithmetic. -/
def Calculable (x : Result α) : Prop := FailsOnly (fun abort => abort.isArithmetic = false) x

-- ---------------------------------------------------------------------------
-- One tier
-- ---------------------------------------------------------------------------

/-- Nothing but its arithmetic stops the computation of a tier. -/
theorem tierReward_failsOnly (total : Asset) (percentage : UInt8) :
    FailsOnly (fun abort => abort.isArithmetic = true) (tierReward total percentage) := by
  refine .bind (.bind (.check (by decide)) fun _ => .bind (.check (by decide)) fun _ => .ok _)
    fun product => ?_
  refine .bind (.bind (.check (by decide)) fun _ => .bind (.check (by decide)) fun _ => .ok _)
    fun reward => ?_
  refine .bind ?_ fun amount => .ok _
  unfold adjustToPrecision
  split
  · rintro _ ⟨⟩
    rfl
  · exact .ok _

theorem tierReward_calculable_iff : Calculable (tierReward total percentage) ↔
    ∃ reward, tierReward total percentage = .ok reward := by
  constructor
  · intro h
    cases hreward : tierReward total percentage with
    | ok reward => exact ⟨reward, rfl⟩
    | error abort =>
      have htrap : abort.isArithmetic = true := tierReward_failsOnly total percentage abort hreward
      have hfine : abort.isArithmetic = false := h abort hreward
      rw [hfine] at htrap
      cases htrap
  · rintro ⟨reward, hreward⟩
    rw [hreward]
    exact .ok reward

/-- A share that rounds down to nothing belongs to a total far inside the
range. -/
theorem product_le_of_share_eq_zero {total : Asset} (ht : 0 < total.amount.toInt)
    (hprecision : total.symbol.precision ≠ 0) (hp : percentage ≠ 0)
    (hshare : tierShare total percentage = 0) (q : UInt8) :
    total.amount.toInt * q.toNat ≤ Asset.maxAmount := by
  have hunit : 0 < total.symbol.precision.toNat :=
    Nat.pos_iff_ne_zero.mpr fun hzero => hprecision (UInt8.toNat_inj.mp hzero)
  have hpos : 0 < percentage.toNat :=
    Nat.pos_iff_ne_zero.mpr fun hzero => hp (UInt8.toNat_inj.mp hzero)
  have hlt := Shares.lt_share_mul (show 0 < 100 by decide) hunit total.amount.toInt.toNat
    percentage.toNat
  rw [Int.natCast_eq_zero.mp hshare, Nat.zero_mul, Nat.zero_add] at hlt
  have hle : total.amount.toInt.toNat ≤ total.amount.toInt.toNat * percentage.toNat :=
    Nat.le_mul_of_pos_right _ hpos
  have hunitLt := total.symbol.precision.toNat_lt
  have hq := q.toNat_lt
  have hproduct : total.amount.toInt.toNat * q.toNat ≤ 25600 * 256 :=
    Nat.mul_le_mul (by omega) hq.le
  have hcast : total.amount.toInt = total.amount.toInt.toNat := (Int.toNat_of_nonneg ht.le).symm
  rw [hcast]
  refine le_trans (Int.ofNat_le.mpr hproduct) ?_
  decide

-- ---------------------------------------------------------------------------
-- The payment loop
-- ---------------------------------------------------------------------------

/-- The tiers of a list are computed up to the first empty one, which is
refused for what it pays. -/
def TiersCalculable (total : Asset) (percentages : List UInt8) : Prop :=
  percentages = [] ∨ total.symbol.precision ≠ 0 ∧
    ∀ percentage ∈ percentages.takeWhile (· ≠ 0),
      total.amount.toInt * percentage.toNat ≤ Asset.maxAmount

theorem tiersCalculable_cons_iff {total : Asset} (ht : 0 < total.amount.toInt) :
    TiersCalculable total (percentage :: percentages) ↔
      (total.symbol.precision ≠ 0 ∧ total.amount.toInt * percentage.toNat ≤ Asset.maxAmount) ∧
        (0 < tierShare total percentage → TiersCalculable total percentages) := by
  unfold TiersCalculable
  rw [or_iff_right (List.cons_ne_nil _ _)]
  by_cases hp : percentage = 0
  · -- Nothing behind an empty tier is computed.
    have hshare : tierShare total 0 = 0 := by simp [tierShare, Shares.share]
    rw [hp, hshare]
    simp [Asset.maxAmount]
  · rw [List.takeWhile_cons_of_pos (by simpa using hp), List.forall_mem_cons]
    constructor
    · rintro ⟨hprecision, hle, hrest⟩
      exact ⟨⟨hprecision, hle⟩, fun _ => .inr ⟨hprecision, hrest⟩⟩
    · rintro ⟨⟨hprecision, hle⟩, hrest⟩
      refine ⟨hprecision, hle, fun q hq => ?_⟩
      rcases (tierShare_nonneg total percentage).lt_or_eq with hpays | hnothing
      · obtain rfl | ⟨-, hrest⟩ := hrest hpays
        · simp at hq
        · exact hrest q hq
      · exact product_le_of_share_eq_zero ht hprecision hp hnothing.symm q

theorem payTiers_calculable_iff (ht : 0 < args.totalReward.amount.toInt)
    (hfunds : LoopFunds args p) :
    Calculable (payTiers env args distConfig players p) ↔
      TiersCalculable args.totalReward
        ((args.rewardPercentages.drop p.currentTier).take players.length) := by
  induction players generalizing p with
  | nil => exact iff_of_true (.ok p) (.inl rfl)
  | cons entry players ih =>
    unfold payTiers
    cases hget : args.rewardPercentages[p.currentTier]? with
    | none =>
      have hlen := List.getElem?_eq_none_iff.mp hget
      rw [List.drop_eq_nil_of_le hlen, List.take_nil]
      exact iff_of_true (.ok p) (.inl rfl)
    | some percentage =>
      obtain ⟨hlen, hpct⟩ := List.getElem?_eq_some_iff.mp hget
      have hdrop : args.rewardPercentages.drop p.currentTier =
          percentage :: args.rewardPercentages.drop (p.currentTier + 1) := by
        rw [List.drop_eq_getElem_cons hlen, hpct]
      rw [hdrop, List.length_cons, List.take_succ_cons, tiersCalculable_cons_iff ht,
        ← tierReward_ok_iff (Int64.lt_iff_toInt_lt.mpr ht), ← tierReward_calculable_iff]
      refine FailsOnly.bind_iff.trans (and_congr_right fun hcalculable => ?_)
      obtain ⟨reward, hreward⟩ := tierReward_calculable_iff.mp hcalculable
      obtain ⟨hamount, hsymbol, -⟩ := tierReward_ok ht hreward
      have hpositive : 0 < reward.amount ↔ 0 < tierShare args.totalReward percentage := by
        rw [Int64.lt_iff_toInt_lt, hamount, Int64.toInt_zero]
        rfl
      have hcheck : Calculable
          (check (0 < reward.amount) "Reward amount too small to distribute") := .check (by decide)
      simp only [hreward, Except.ok.injEq, forall_eq']
      -- A reward of nothing stops the loop here.
      refine FailsOnly.bind_iff.trans ((and_iff_right hcheck).trans ?_)
      simp only [check_ok, hpositive, forall_const]
      refine imp_congr_right fun hpays => ?_
      have hmax : args.totalReward.amount.toInt ≤ Asset.maxAmount :=
        ((tierPaid_exists_iff ht).mp ⟨reward, hreward, hpositive.mpr hpays⟩).total_le ht
      obtain ⟨remaining, distributed, hsub, hadd, hnext⟩ :=
        hfunds.step hdrop hamount hsymbol hmax
      rw [hsub, hadd]
      exact ih (hnext _ _ _)

-- ---------------------------------------------------------------------------
-- The whole call
-- ---------------------------------------------------------------------------

theorem make_zero_calculable (symbol : Symbol) : Calculable (Asset.make 0 symbol) :=
  .bind (.check (by decide)) fun _ => .bind (.check (by decide)) fun _ => .ok _

theorem make_zero_ok_iff {symbol : Symbol} :
    Asset.make 0 symbol = .ok zero ↔ symbol.isValid = true ∧ zero = ⟨0, symbol⟩ := by
  simp only [Asset.make, bind_ok, check_ok, pure_ok]
  constructor
  · rintro ⟨_, -, _, hvalid, rfl⟩
    exact ⟨hvalid, rfl⟩
  · rintro ⟨hvalid, rfl⟩
    exact ⟨(), by decide, (), hvalid, rfl⟩

theorem distributeRewards_calculable_iff (ht : 0 < args.totalReward.amount.toInt)
    (hsum : (args.rewardPercentages.map UInt8.toNat).sum = 100) :
    Calculable (distributeRewards env ctx rewardsrec args distConfig players) ↔
      (args.totalReward.symbol.isValid = true →
        TiersCalculable args.totalReward (args.rewardPercentages.take players.length)) := by
  refine FailsOnly.bind_iff.trans ((and_iff_right (make_zero_calculable _)).trans ?_)
  simp only [make_zero_ok_iff, and_imp, forall_eq_apply_imp_iff]
  refine imp_congr_right fun hvalid => ?_
  have hstart : LoopFunds args
      ⟨0, [], [], args.totalReward, ⟨0, args.totalReward.symbol⟩, []⟩ := .start ht hsum
  refine FailsOnly.bind_iff.trans ((and_iff_left ?_).trans (payTiers_calculable_iff ht hstart))
  -- The room in the log is checked last.
  intro p _
  exact .bind (.need (by decide)) fun _ => .bind (.need (by decide)) fun _ => .ok _

theorem settle_calculable_iff {s : State}
    (hlen : ∀ r ∈ s.gamerecords.rows, r.statsNames.length = r.statsValues.length)
    (ht : 0 < args.totalReward.amount.toInt)
    (htiers : args.rewardPercentages.length ≤ found.1.maxRewardTiers.toNat)
    (hsum : (args.rewardPercentages.map UInt8.toNat).sum = 100) :
    Calculable (settle env ctx s args found) ↔ (args.totalReward.symbol.isValid = true →
      TiersCalculable args.totalReward
        (args.rewardPercentages.take (s.contenders args).length)) := by
  let players := (env.sorter.sort (s.scores args)).take found.1.maxRewardTiers.toNat
  have hreached : args.rewardPercentages.take players.length =
      args.rewardPercentages.take (s.contenders args).length := by
    rw [List.take_eq_take_iff, List.length_take, (env.sorter.perm _).length_eq, scores_length hlen]
    omega
  simp only [settle, State.scan_eq_bucket, collectScores_bucket hlen]
  refine FailsOnly.bind_iff.trans ((and_iff_right (.ok _)).trans ?_)
  simp only [Except.ok.injEq, forall_eq']
  refine FailsOnly.bind_iff.trans ((and_iff_left fun paid _ => .ok _).trans ?_)
  rw [← hreached]
  exact distributeRewards_calculable_iff ht hsum

/-- An admitted call does not fail for its arithmetic exactly when the symbol
is refused first, nobody is to be paid, or the token has decimals and no product
of a tier that the loop comes to leaves the range. -/
theorem distribute_calculable_iff (env : Env) (actions : List Action) (ctx : Context)
    (args : DistributeArgs) (h : admission env ctx (run env actions) args = .ok found) :
    (∀ abort, distribute env ctx (run env actions) args = .error abort →
        abort.isArithmetic = false) ↔
      args.totalReward.symbol.isValid = false ∨ (run env actions).contenders args = [] ∨
        args.totalReward.symbol.precision ≠ 0 ∧
          ∀ percentage ∈ (args.rewardPercentages.take
              ((run env actions).contenders args).length).takeWhile (· ≠ 0),
            args.totalReward.amount.toInt * percentage.toNat ≤ Asset.maxAmount := by
  obtain ⟨-, htiers⟩ := admission_ok h
  have hlen := (run_invariant env actions).stats_lengths
  change Calculable _ ↔ _
  rw [distribute_eq, h]
  refine (settle_calculable_iff hlen (admission_positive h) htiers.tiers_le
    htiers.percentages_sum).trans ?_
  rw [TiersCalculable, List.take_eq_nil_iff, List.length_eq_zero_iff, or_iff_left htiers.nonempty,
    imp_iff_not_or, Bool.not_eq_true]

theorem boid_rewards_calculable :
    (∀ abort, distribute Sample.env (Sample.context 1100) (run Sample.env Sample.oneRecord)
        (Sample.payoutOf 1000000) = .error abort → abort.isArithmetic = false) ↔
      Sample.boid.isValid = false ∨
        (run Sample.env Sample.oneRecord).contenders (Sample.payoutOf 1000000) = [] ∨
        Sample.boid.precision ≠ 0 ∧
          ∀ percentage ∈ ([(100 : UInt8)].take ((run Sample.env Sample.oneRecord).contenders
              (Sample.payoutOf 1000000)).length).takeWhile (· ≠ 0),
            (1000000 : Int64).toInt * percentage.toNat ≤ Asset.maxAmount :=
  distribute_calculable_iff Sample.env Sample.oneRecord (Sample.context 1100)
    (Sample.payoutOf 1000000) rfl

def Sample.wholeBoid : Symbol := ⟨0x44494F4200⟩

theorem whole_token_traps :
    ¬ ∀ (env : Env) (actions : List Action) (ctx : Context) (args : DistributeArgs)
      (found : GlobalConfig × RewardDistConfig),
      admission env ctx (run env actions) args = .ok found →
      args.totalReward.amount.toInt ≤ Asset.maxAmount →
      ∀ abort, distribute env ctx (run env actions) args = .error abort →
        abort.isArithmetic = false := by
  intro h
  have hfine := h Sample.env
    (Sample.oneRecord ++ [Sample.block 1060 (.settoken ⟨⟨6⟩, Sample.wholeBoid, true⟩)])
    (Sample.context 1100) { Sample.payout 1 [100] with totalReward := ⟨1000, Sample.wholeBoid⟩ } _
    rfl (by decide) .divideByZero rfl
  cases hfine

-- With decimals the product leaves the range from this amount on.
example : distribute Sample.env (Sample.context 1100) (run Sample.env Sample.oneRecord)
    (Sample.payoutOf 46116860184273880) = .error (.check "multiplication overflow") := rfl

end GameRewards
