import GameRewards.Admission

/-!
# Rounding

The reward of a tier is its share of the total, rounded down to a multiple of
`precision()`, which is the number of decimals of the token and not its
smallest unit. What rounding loses, and when it loses nothing.
-/

namespace GameRewards

-- ---------------------------------------------------------------------------
-- When a tier has a reward
-- ---------------------------------------------------------------------------

theorem tierReward_ok_iff {total : Asset} (ht : 0 < total.amount) :
    (∃ reward, tierReward total percentage = .ok reward) ↔
      total.symbol.precision ≠ 0 ∧ total.amount.toInt * percentage.toNat ≤ Asset.maxAmount := by
  have hnonneg : -Asset.maxAmount ≤ total.amount.toInt * percentage.toNat := by
    have hpos : 0 < total.amount.toInt := Int64.lt_iff_toInt_lt.mp ht
    exact le_trans (by decide) (Int.mul_nonneg hpos.le (by omega))
  constructor
  · rintro ⟨reward, h⟩
    simp only [tierReward, bind_ok, Asset.mul, check_ok, pure_ok] at h
    obtain ⟨_, ⟨_, hle, -⟩, _, -, _, hadjust, -⟩ := h
    refine ⟨fun hzero => ?_, hle⟩
    rw [adjustToPrecision, if_pos hzero] at hadjust
    cases hadjust
  · rintro ⟨hprecision, hle⟩
    simp [tierReward, Asset.mul, Asset.div, adjustToPrecision, check, hle, hnonneg, hprecision, bind,
      Except.bind, pure, Except.pure]

-- ---------------------------------------------------------------------------
-- The paid tiers
-- ---------------------------------------------------------------------------

theorem Settlement.tiersPaid (h : Settlement env ctx args distConfig players row transfers) :
    List.Forall₂ (TierPaid args.totalReward)
      (args.rewardPercentages.take row.playerRewards.length) row.playerRewards := by
  have hlen := h.tiers.length_eq
  rw [List.length_take] at hlen
  rw [← hlen, ← List.take_eq_take_min]
  exact h.tiers

theorem Settlement.tierPaid {k : Nat} {reward : Asset}
    (h : Settlement env ctx args distConfig players row transfers)
    (hp : args.rewardPercentages[k]? = some percentage) (hr : row.playerRewards[k]? = some reward) :
    TierPaid args.totalReward percentage reward := by
  obtain ⟨hk, rfl⟩ := List.getElem?_eq_some_iff.mp hp
  obtain ⟨hk', rfl⟩ := List.getElem?_eq_some_iff.mp hr
  have hpaid := h.tiersPaid.get (by rw [h.tiersPaid.length_eq]; exact hk') hk'
  simpa using hpaid

theorem Distribution.paid_all
    (h : Distribution env ctx s args s' out global token distConfig row)
    (hall : args.rewardPercentages.length ≤ (s.scores args).length) :
    row.playerRewards.length = args.rewardPercentages.length := by
  have hlen := h.settlement.tiers.length_eq
  have htiers := h.tiers_le
  simp only [List.length_take, (env.sorter.perm _).length_eq] at hlen
  omega

theorem precision_pos (h : List.Forall₂ (TierPaid total) ps rewards) (ht : 0 < total.amount)
    (hpaid : rewards ≠ []) : 0 < total.symbol.precision.toNat := by
  cases h with
  | nil => exact absurd rfl hpaid
  | cons hfirst _ =>
    have hne := ((tierReward_ok_iff ht).mp ⟨_, hfirst.1⟩).1
    exact Nat.pos_iff_ne_zero.mpr fun hzero => hne (UInt8.toNat_inj.mp hzero)

-- ---------------------------------------------------------------------------
-- What rounding loses
-- ---------------------------------------------------------------------------

theorem Distribution.dust_lt
    (h : Distribution env ctx s args s' out global token distConfig row)
    (hpaid : row.rewardedPlayers ≠ []) :
    args.totalReward.amount.toInt *
        ((args.rewardPercentages.take row.rewardedPlayers.length).map UInt8.toNat).sum -
      100 * row.rewardedPlayers.length * args.totalReward.symbol.precision.toNat <
      100 * (row.playerRewards.map fun r => r.amount.toInt).sum := by
  have htiers := h.settlement.tiersPaid
  have hpositive := List.length_pos_iff.mpr hpaid
  rw [h.settlement.lengths] at hpositive ⊢
  have hunit := precision_pos htiers (Int64.lt_iff_toInt_lt.mpr h.total_pos)
    (List.length_pos_iff.mp hpositive)
  rw [sum_rewards h.total_pos htiers]
  obtain ⟨amount, hamount⟩ := Int.eq_ofNat_of_zero_le h.total_pos.le
  rw [hamount, Int.toNat_natCast]
  have hbound := Shares.sum_add_length_le (show 0 < 100 by decide) hunit amount
    ((args.rewardPercentages.take row.playerRewards.length).map UInt8.toNat)
  rw [List.length_map, htiers.length_eq] at hbound
  generalize (args.rewardPercentages.take row.playerRewards.length).map UInt8.toNat = ps at *
  generalize args.totalReward.symbol.precision.toNat = unit at *
  generalize (ps.map (Shares.share amount 100 unit)).sum = paid at *
  generalize row.playerRewards.length = m at *
  have hproduct : m * (unit * 100) = 100 * m * unit := by grind
  rw [hproduct] at hbound
  have hcast := Int.ofNat_le.mpr hbound
  push_cast at hcast ⊢
  omega

/-- Every successful `distribute` that pays somebody loses less than
`precision()` smallest units for each record it pays. -/
theorem dust_bounded (env : Env) (ctx : Context) (s : State) (args : DistributeArgs)
    (h : distribute env ctx s args = .ok (s', out)) :
    ∃ row, s'.rewardsrec.rows = s.rewardsrec.rows ++ [row] ∧
      (1 ≤ row.rewardedPlayers.length →
        args.totalReward.amount.toInt *
            ((args.rewardPercentages.take row.rewardedPlayers.length).map UInt8.toNat).sum -
          100 * row.rewardedPlayers.length * args.totalReward.symbol.precision.toNat <
        100 * (row.playerRewards.map fun r => r.amount.toInt).sum) ∧
      (args.rewardPercentages.length ≤ (s.scores args).length →
        args.totalReward.amount.toInt - (row.playerRewards.map fun r => r.amount.toInt).sum <
          row.rewardedPlayers.length * args.totalReward.symbol.precision.toNat) := by
  obtain ⟨global, token, distConfig, row, hd⟩ := distribute_ok h
  refine ⟨row, hd.rewards_rows, ?_, ?_⟩
  · intro hpaid
    exact hd.dust_lt (List.length_pos_iff.mp hpaid)
  · intro hall
    have hcount : row.rewardedPlayers.length = args.rewardPercentages.length :=
      hd.settlement.lengths.trans (hd.paid_all hall)
    have hne : row.rewardedPlayers ≠ [] := by
      intro hnone
      have hsum := hd.percentages_sum
      rw [hnone, List.length_nil, eq_comm, List.length_eq_zero_iff] at hcount
      simp [hcount] at hsum
    have hdust := hd.dust_lt hne
    rw [hcount, List.take_length, hd.percentages_sum] at hdust
    rw [hcount]
    push_cast at hdust
    rw [Int.mul_assoc] at hdust
    omega

def Sample.oneRecord : List Action :=
  Sample.setup 1000 1000 100 ++ [Sample.block 1050 (.recordgame [Sample.result 10 50 1010])]

def Sample.payoutOf (amount : Int64) : DistributeArgs :=
  { Sample.payout 1 [100] with totalReward := ⟨amount, boid⟩ }

theorem dust_of_one_record :
    ∃ row, (run Sample.env (Sample.oneRecord ++
        [Sample.block 1100 (.distribute (Sample.payoutOf 50))])).rewardsrec.rows =
          (run Sample.env Sample.oneRecord).rewardsrec.rows ++ [row] ∧
      (1 ≤ row.rewardedPlayers.length →
        (50 : Int64).toInt * (([(100 : UInt8)].take row.rewardedPlayers.length).map UInt8.toNat).sum -
          100 * row.rewardedPlayers.length * Sample.boid.precision.toNat <
        100 * (row.playerRewards.map fun r => r.amount.toInt).sum) ∧
      ([(100 : UInt8)].length ≤
          ((run Sample.env Sample.oneRecord).scores (Sample.payoutOf 50)).length →
        (50 : Int64).toInt - (row.playerRewards.map fun r => r.amount.toInt).sum <
          row.rewardedPlayers.length * Sample.boid.precision.toNat) :=
  dust_bounded Sample.env (Sample.context 1100) (run Sample.env Sample.oneRecord)
    (Sample.payoutOf 50) rfl

-- ---------------------------------------------------------------------------
-- When it loses nothing
-- ---------------------------------------------------------------------------

theorem TierPaid.exact_iff (h : TierPaid total percentage reward) (ht : 0 < total.amount.toInt) :
    reward.amount.toInt = total.amount.toInt * percentage.toNat / 100 ↔
      (total.symbol.precision.toNat : Int) ∣ total.amount.toInt * percentage.toNat / 100 := by
  obtain ⟨hreward, -, -⟩ := tierReward_ok ht h.1
  obtain ⟨amount, hamount⟩ := Int.eq_ofNat_of_zero_le ht.le
  rw [hreward, hamount, Int.toNat_natCast]
  have hiff := Shares.share_eq_iff amount 100 total.symbol.precision.toNat percentage.toNat
  exact_mod_cast hiff

theorem Distribution.total_eq_iff
    (h : Distribution env ctx s args s' out global token distConfig row)
    (hall : args.rewardPercentages.length ≤ (s.scores args).length)
    (hwhole : ∀ percentage ∈ args.rewardPercentages,
      100 ∣ args.totalReward.amount.toInt * percentage.toNat) :
    row.totalReward.amount.toInt = args.totalReward.amount.toInt ↔
      ∀ percentage ∈ args.rewardPercentages, (args.totalReward.symbol.precision.toNat : Int) ∣
        args.totalReward.amount.toInt * percentage.toNat / 100 := by
  have htiers := h.settlement.tiersPaid
  rw [h.paid_all hall, List.take_length] at htiers
  rw [h.settlement.total, sum_rewards h.total_pos htiers]
  obtain ⟨amount, hamount⟩ := Int.eq_ofNat_of_zero_le h.total_pos.le
  rw [hamount] at hwhole ⊢
  rw [Int.toNat_natCast]
  have hwhole : ∀ p ∈ args.rewardPercentages.map UInt8.toNat, 100 ∣ amount * p :=
    List.forall_mem_map.mpr fun percentage hp => by exact_mod_cast hwhole percentage hp
  have hiff := Shares.sum_shares_eq_iff args.totalReward.symbol.precision.toNat (by decide)
    h.percentages_sum hwhole
  rw [List.forall_mem_map] at hiff
  exact_mod_cast hiff

/-- A paid tier gets a whole share in full exactly when the number of decimals
divides it; with every tier paid and every share whole, the total is paid out
exactly when it divides all of them. -/
theorem whole_shares_paid_iff (env : Env) (ctx : Context) (s : State) (args : DistributeArgs)
    (h : distribute env ctx s args = .ok (s', out)) :
    ∃ row, s'.rewardsrec.rows = s.rewardsrec.rows ++ [row] ∧
      (∀ (k : Nat) (percentage : UInt8) (reward : Asset),
        args.rewardPercentages[k]? = some percentage → row.playerRewards[k]? = some reward →
        100 ∣ args.totalReward.amount.toInt * percentage.toNat →
        (reward.amount.toInt = args.totalReward.amount.toInt * percentage.toNat / 100 ↔
          (args.totalReward.symbol.precision.toNat : Int) ∣
            args.totalReward.amount.toInt * percentage.toNat / 100)) ∧
      (args.rewardPercentages.length ≤ (s.scores args).length →
        (∀ percentage ∈ args.rewardPercentages,
          100 ∣ args.totalReward.amount.toInt * percentage.toNat) →
        (row.totalReward.amount.toInt = args.totalReward.amount.toInt ↔
          ∀ percentage ∈ args.rewardPercentages, (args.totalReward.symbol.precision.toNat : Int) ∣
            args.totalReward.amount.toInt * percentage.toNat / 100)) := by
  obtain ⟨global, token, distConfig, row, hd⟩ := distribute_ok h
  refine ⟨row, hd.rewards_rows, ?_, hd.total_eq_iff⟩
  intro k percentage reward hp hr _
  exact (hd.settlement.tierPaid hp hr).exact_iff hd.total_pos

theorem whole_share_of_round_amount :
    ∃ row, (run Sample.env (Sample.oneRecord ++
        [Sample.block 1100 (.distribute (Sample.payoutOf 1000000))])).rewardsrec.rows =
          (run Sample.env Sample.oneRecord).rewardsrec.rows ++ [row] ∧
      (∀ (k : Nat) (percentage : UInt8) (reward : Asset),
        [(100 : UInt8)][k]? = some percentage → row.playerRewards[k]? = some reward →
        100 ∣ (1000000 : Int64).toInt * percentage.toNat →
        (reward.amount.toInt = (1000000 : Int64).toInt * percentage.toNat / 100 ↔
          (Sample.boid.precision.toNat : Int) ∣ (1000000 : Int64).toInt * percentage.toNat / 100)) ∧
      ([(100 : UInt8)].length ≤
          ((run Sample.env Sample.oneRecord).scores (Sample.payoutOf 1000000)).length →
        (∀ percentage ∈ [(100 : UInt8)], 100 ∣ (1000000 : Int64).toInt * percentage.toNat) →
        (row.totalReward.amount.toInt = (1000000 : Int64).toInt ↔
          ∀ percentage ∈ [(100 : UInt8)], (Sample.boid.precision.toNat : Int) ∣
            (1000000 : Int64).toInt * percentage.toNat / 100)) :=
  whole_shares_paid_iff Sample.env (Sample.context 1100) (run Sample.env Sample.oneRecord)
    (Sample.payoutOf 1000000) rfl

/-- Fifty smallest units for one tier: with four decimals 48 are paid. -/
theorem whole_share_cut :
    ¬ ∀ (env : Env) (actions : List Action) (ctx : Context) (args : DistributeArgs) (s' : State)
      (out : List Transfer) (row : RewardsRecorded) (k : Nat) (percentage : UInt8) (reward : Asset),
      distribute env ctx (run env actions) args = .ok (s', out) →
      s'.rewardsrec.rows = (run env actions).rewardsrec.rows ++ [row] →
      args.rewardPercentages[k]? = some percentage → row.playerRewards[k]? = some reward →
      100 ∣ args.totalReward.amount.toInt * percentage.toNat →
      reward.amount.toInt = args.totalReward.amount.toInt * percentage.toNat / 100 := by
  intro h
  have hexact := h Sample.env Sample.oneRecord (Sample.context 1100) (Sample.payoutOf 50) _ _
    ⟨0, 1, 1, Sample.kills, ⟨48, Sample.boid⟩, [⟨10⟩], [⟨48, Sample.boid⟩], 1100⟩ 0 100
    ⟨48, Sample.boid⟩ rfl rfl rfl rfl (by decide)
  exact absurd hexact (by decide)

end GameRewards
