import GameRewards.Actions.RewardManagement
import GameRewards.Shares
import Mathlib.Algebra.Ring.Int.Defs

/-!
# What `distribute` pays and records

`Settlement` is the outcome of the payment loop and `Distribution` the whole
call: what it found in the tables, the row it adds and what it leaves of the
records.
-/

namespace GameRewards

open MultiIndex (Table Handle)

-- ---------------------------------------------------------------------------
-- The reward of one tier
-- ---------------------------------------------------------------------------

theorem toInt_div_of_nonneg {a b : Int64} (ha : 0 ≤ a.toInt) (hb : 0 < b.toInt) :
    (a / b).toInt = a.toInt / b.toInt := by
  have hle : a.toInt / b.toInt ≤ a.toInt := Int.ediv_le_self _ ha
  have hnonneg : 0 ≤ a.toInt / b.toInt := Int.ediv_nonneg ha hb.le
  have hlt := a.toInt_lt
  rw [Int64.toInt_div, Int.tdiv_eq_ediv_of_nonneg ha, Int.bmod_eq_of_le] <;> omega

theorem adjustToPrecision_ok (ha : 0 ≤ a.toInt) (h : adjustToPrecision a precision = .ok r) :
    r.toInt = a.toInt / precision.toNat * precision.toNat ∧ 0 ≤ r.toInt ∧ r.toInt ≤ a.toInt := by
  unfold adjustToPrecision at h
  split at h
  · cases h
  · rename_i hp
    have hne : precision.toNat ≠ 0 := fun h0 => hp (UInt8.toNat_inj.mp h0)
    have hlt := precision.toNat_lt
    have hprec : (Int64.ofNat precision.toNat).toInt = precision.toNat :=
      Int64.toInt_ofNat_of_lt (by omega)
    have hdiv : (a / Int64.ofNat precision.toNat).toInt = a.toInt / precision.toNat := by
      rw [toInt_div_of_nonneg ha (by omega), hprec]
    have hle : a.toInt / precision.toNat * precision.toNat ≤ a.toInt := Int.ediv_mul_le _ (by omega)
    have hnonneg : 0 ≤ a.toInt / (precision.toNat : Int) * precision.toNat :=
      Int.mul_nonneg (Int.ediv_nonneg ha (by omega)) (by omega)
    have hmax := a.toInt_lt
    have hexact : (a / Int64.ofNat precision.toNat * Int64.ofNat precision.toNat).toInt =
        a.toInt / precision.toNat * precision.toNat := by
      rw [Int64.toInt_mul, hdiv, hprec, Int.bmod_eq_of_le] <;> omega
    obtain rfl := Except.ok.inj h
    exact ⟨hexact, hexact ▸ hnonneg, hexact ▸ hle⟩

theorem tierReward_ok {total : Asset} (ht : 0 < total.amount.toInt)
    (h : tierReward total percentage = .ok reward) :
    reward.amount.toInt =
      Shares.share total.amount.toInt.toNat 100 total.symbol.precision.toNat percentage.toNat ∧
    reward.symbol = total.symbol ∧ reward.InRange := by
  simp only [tierReward, bind_ok, pure_ok] at h
  obtain ⟨product, hmul, quotient, hdiv, amount, hadj, rfl⟩ := h
  obtain ⟨hproduct, hsym, hrange⟩ := Asset.mul_ok hmul
  simp only [Asset.div, bind_ok, check_ok, pure_ok] at hdiv
  obtain ⟨_, -, _, -, rfl⟩ := hdiv
  have hnonneg : 0 ≤ product.amount.toInt := by
    rw [hproduct]
    exact Int.mul_nonneg ht.le (by omega)
  have hquot : (product.amount / 100).toInt = product.amount.toInt / 100 :=
    toInt_div_of_nonneg hnonneg (by decide)
  obtain ⟨hamount, hpos, hle⟩ :=
    adjustToPrecision_ok (by rw [hquot]; exact Int.ediv_nonneg hnonneg (by decide)) hadj
  have htotal : total.amount.toInt = total.amount.toInt.toNat := (Int.toNat_of_nonneg ht.le).symm
  refine ⟨?_, hsym, ?_⟩
  · rw [hamount, hquot, hproduct, htotal]
    simp [Shares.share]
  · have hquotLe : product.amount.toInt / 100 ≤ product.amount.toInt := Int.ediv_le_self _ hnonneg
    rw [hquot] at hle
    unfold Asset.InRange Asset.maxAmount at *
    constructor
    · exact le_trans (by decide) hpos
    · exact (hle.trans hquotLe).trans hrange.2

-- The unit is the number of decimals, here 4.
example : tierReward ⟨1000010, ⟨0x44494F4204⟩⟩ 33 = .ok ⟨330000, ⟨0x44494F4204⟩⟩ := rfl

-- ---------------------------------------------------------------------------
-- The payment loop
-- ---------------------------------------------------------------------------

def TierPaid (totalReward : Asset) (percentage : UInt8) (reward : Asset) : Prop :=
  tierReward totalReward percentage = .ok reward ∧ 0 < reward.amount

/-- What the loop adds to a payout: winners from the front of `players`, one
reward for each, one transfer for each, and their sum. -/
structure TiersPaid (env : Env) (args : DistributeArgs) (distConfig : RewardDistConfig)
    (players : List (Name × UInt64)) (p p' : Payout) (winners : List Name)
    (rewards : List Asset) : Prop where
  winners_eq : winners = (players.take (args.rewardPercentages.length - p.currentTier)).map Prod.fst
  tiers : List.Forall₂ (TierPaid args.totalReward)
    ((args.rewardPercentages.drop p.currentTier).take players.length) rewards
  players_eq : p'.rewardedPlayers = p.rewardedPlayers ++ winners
  rewards_eq : p'.playerRewards = p.playerRewards ++ rewards
  transfers_eq : p'.transfers =
    p.transfers ++ List.zipWith (transferTo env args.tokenContract distConfig) winners rewards
  total_eq : p'.distributedTotal.amount.toInt =
    p.distributedTotal.amount.toInt + (rewards.map fun r => r.amount.toInt).sum
  symbol_eq : p'.distributedTotal.symbol = p.distributedTotal.symbol

theorem TiersPaid.none (hw : (players.take (args.rewardPercentages.length - p.currentTier)) = [])
    (ht : (args.rewardPercentages.drop p.currentTier).take players.length = []) :
    TiersPaid env args distConfig players p p [] [] where
  winners_eq := by rw [hw]; rfl
  tiers := by rw [ht]; exact .nil
  players_eq := (List.append_nil _).symm
  rewards_eq := (List.append_nil _).symm
  transfers_eq := (List.append_nil _).symm
  total_eq := by simp
  symbol_eq := rfl

theorem payTiers_ok (h : payTiers env args distConfig players p = .ok p')
    (ht : 0 < args.totalReward.amount.toInt) (hr : p.distributedTotal.InRange) :
    ∃ winners rewards, TiersPaid env args distConfig players p p' winners rewards := by
  induction players generalizing p with
  | nil =>
    cases pure_ok.mp h
    exact ⟨[], [], .none (by simp) (by simp)⟩
  | cons entry players ih =>
    unfold payTiers at h
    split at h
    · -- Behind the last percentage.
      rename_i hnone
      have hlen := List.getElem?_eq_none_iff.mp hnone
      cases pure_ok.mp h
      refine ⟨[], [], .none ?_ ?_⟩
      · rw [Nat.sub_eq_zero_of_le hlen, List.take_zero]
      · rw [List.drop_eq_nil_of_le hlen, List.take_nil]
    · rename_i percentage hsome
      obtain ⟨hlen, hget⟩ := List.getElem?_eq_some_iff.mp hsome
      simp only [bind_ok, check_ok] at h
      obtain ⟨reward, hreward, _, hpos, remaining, -, total, htotal, h⟩ := h
      obtain ⟨-, -, hrewardRange⟩ := tierReward_ok ht hreward
      obtain ⟨hsum, hsym, htotalRange⟩ := Asset.add_ok hr hrewardRange htotal
      obtain ⟨winners, rewards, hpaid⟩ := ih h htotalRange
      have hdrop : args.rewardPercentages.drop p.currentTier =
          percentage :: args.rewardPercentages.drop (p.currentTier + 1) := by
        rw [List.drop_eq_getElem_cons hlen, hget]
      have hcount : args.rewardPercentages.length - p.currentTier =
          args.rewardPercentages.length - (p.currentTier + 1) + 1 := by omega
      refine ⟨entry.1 :: winners, reward :: rewards, ?_⟩
      constructor
      · rw [hcount, List.take_succ_cons, List.map_cons, hpaid.winners_eq]
      · rw [hdrop, List.length_cons, List.take_succ_cons]
        exact .cons ⟨hreward, hpos⟩ hpaid.tiers
      · rw [hpaid.players_eq, List.append_assoc, List.singleton_append]
      · rw [hpaid.rewards_eq, List.append_assoc, List.singleton_append]
      · rw [hpaid.transfers_eq, List.append_assoc, List.singleton_append, List.zipWith_cons_cons]
      · rw [hpaid.total_eq, hsum, List.map_cons, List.sum_cons, Int.add_assoc]
      · rw [hpaid.symbol_eq, hsym]

/-- The row and the transfers of a distribution that pays `players` from the
top. -/
structure Settlement (env : Env) (ctx : Context) (args : DistributeArgs)
    (distConfig : RewardDistConfig) (players : List (Name × UInt64)) (row : RewardsRecorded)
    (transfers : List Transfer) : Prop where
  game : row.gameId = args.gameId
  cycle : row.cycleNumber = args.cycleNumber
  stat : row.statName = args.statName
  time : row.distributionTime = ctx.now
  winners : row.rewardedPlayers = (players.take args.rewardPercentages.length).map Prod.fst
  tiers : List.Forall₂ (TierPaid args.totalReward)
    (args.rewardPercentages.take players.length) row.playerRewards
  transfers_eq : transfers =
    List.zipWith (transferTo env args.tokenContract distConfig) row.rewardedPlayers row.playerRewards
  total : row.totalReward.amount.toInt = (row.playerRewards.map fun r => r.amount.toInt).sum
  symbol : row.totalReward.symbol = args.totalReward.symbol

theorem Settlement.lengths (h : Settlement env ctx args distConfig players row transfers) :
    row.rewardedPlayers.length = row.playerRewards.length := by
  have htiers := h.tiers.length_eq
  rw [List.length_take] at htiers
  rw [h.winners, List.length_map, List.length_take, ← htiers, Nat.min_comm]

theorem distributeRewards_ok
    (h : distributeRewards env ctx rewardsrec args distConfig players = .ok (rewardsrec', transfers))
    (ht : 0 < args.totalReward.amount.toInt) :
    ∃ row, Settlement env ctx args distConfig players row transfers ∧
      rewardsrec'.rows = rewardsrec.rows ++ [row] := by
  simp only [distributeRewards, bind_ok, need_ok, pure_ok, Prod.mk.injEq] at h
  obtain ⟨zero, hzero, p, hpay, ⟨id, handle⟩, hid, handle', hrow, rfl, rfl⟩ := h
  obtain ⟨rfl, hrange, -⟩ := Asset.make_ok hzero
  obtain ⟨winners, rewards, hpaid⟩ := payTiers_ok hpay ht hrange
  obtain ⟨htable, hnext, -, hgt⟩ := Handle.availablePrimaryKey_spec (Handle.ofTable_fresh _) hid
  rw [← htable] at hgt
  obtain ⟨hrows, -⟩ := Handle.emplace_spec hnext hgt hrow
  rw [htable] at hrows
  refine ⟨_, ?_, hrows⟩
  have hplayers := hpaid.players_eq
  have hrewards := hpaid.rewards_eq
  simp only [List.nil_append] at hplayers hrewards
  constructor
  · rfl
  · rfl
  · rfl
  · rfl
  · simpa only [hplayers, Nat.sub_zero] using hpaid.winners_eq
  · simpa only [hrewards, List.drop_zero] using hpaid.tiers
  · simpa only [hplayers, hrewards, List.nil_append] using hpaid.transfers_eq
  · simpa [hrewards] using hpaid.total_eq
  · exact hpaid.symbol_eq

-- ---------------------------------------------------------------------------
-- Scores
-- ---------------------------------------------------------------------------

def GameRecords.score (statName : Name) (row : GameRecords) : Option UInt64 :=
  (row.statsNames.findIdx? (· = statName)).bind fun index => row.statsValues[index]?

def GameRecords.entry (statName : Name) (row : GameRecords) : Option (Name × UInt64) :=
  (row.score statName).map fun value => (row.player, value)

theorem findIdx?_lt {row : GameRecords} (h : row.statsNames.findIdx? (· = statName) = some index)
    (hlen : row.statsNames.length = row.statsValues.length) : index < row.statsValues.length := by
  rw [← hlen]
  exact (List.findIdx?_eq_some_iff_getElem.mp h).1

theorem findIdx?_isSome_iff {row : GameRecords} :
    (row.statsNames.findIdx? (· = statName)).isSome = true ↔ statName ∈ row.statsNames := by
  simp [List.findIdx?_isSome]

/-- The loop collects the entries of its rows, unless a row lists the stat
and has no value for it. -/
theorem collectScores_ok_iff : collectScores statName rows = .ok scores ↔
    (∀ row ∈ rows, statName ∈ row.statsNames → (row.score statName).isSome = true) ∧
      rows.filterMap (GameRecords.entry statName) = scores := by
  induction rows generalizing scores with
  | nil => simp [collectScores, pure_ok]
  | cons row rows ih =>
    unfold collectScores
    cases hindex : row.statsNames.findIdx? (· = statName) with
    | none =>
      have hmem : statName ∉ row.statsNames := by simp [← findIdx?_isSome_iff, hindex]
      have hentry : row.entry statName = none := by
        simp [GameRecords.entry, GameRecords.score, hindex]
      simp [ih, hmem, hentry]
    | some index =>
      have hmem : statName ∈ row.statsNames := by simp [← findIdx?_isSome_iff, hindex]
      cases hvalue : row.statsValues[index]? with
      | none =>
        have hscore : row.score statName = none := by simp [GameRecords.score, hindex, hvalue]
        simp [hvalue, hmem, hscore]
      | some value =>
        have hscore : row.score statName = some value := by
          simp [GameRecords.score, hindex, hvalue]
        have hentry : row.entry statName = some (row.player, value) := by
          simp [GameRecords.entry, hscore]
        simp [hvalue, map_ok, ih, hscore, hentry, and_assoc]

theorem score_isSome_iff {row : GameRecords}
    (hlen : row.statsNames.length = row.statsValues.length) :
    (row.score statName).isSome = true ↔ statName ∈ row.statsNames := by
  rw [← findIdx?_isSome_iff, GameRecords.score]
  cases h : row.statsNames.findIdx? (· = statName) with
  | none => simp
  | some index =>
    have hlt : index < row.statsValues.length := findIdx?_lt h hlen
    simp [hlt]

theorem collectScores_unlisted (h : ∀ row ∈ rows, statName ∉ row.statsNames) :
    collectScores statName rows = .ok [] := by
  refine collectScores_ok_iff.mpr ⟨fun row hr hlisted => absurd hlisted (h row hr), ?_⟩
  refine List.filterMap_eq_nil_iff.mpr fun row hr => ?_
  have hindex : row.statsNames.findIdx? (· = statName) = none := by
    rw [← Option.not_isSome_iff_eq_none, findIdx?_isSome_iff]
    exact h row hr
  simp [GameRecords.entry, GameRecords.score, hindex]

theorem collectScores_exists (hlen : ∀ row ∈ rows, row.statsNames.length = row.statsValues.length) :
    ∃ scores, collectScores statName rows = .ok scores :=
  ⟨_, collectScores_ok_iff.mpr ⟨fun row hr => (score_isSome_iff (hlen row hr)).mpr, rfl⟩⟩

-- ---------------------------------------------------------------------------
-- The whole call
-- ---------------------------------------------------------------------------

def State.bucket (s : State) (gameId : UInt8) (cycleNumber : UInt32) : List GameRecords :=
  s.gamerecords.rows.filter (GameRecords.inCycle gameId cycleNumber)

theorem State.scan_eq_bucket (s : State) (g : UInt8) (c : UInt32) :
    s.gamerecords.scan GameRecords.byGameCycle (cycleKey g c) (GameRecords.inCycle g c) =
      s.bucket g c :=
  s.gamerecords.scan_eq_filter fun r _ => r.inCycle_eq_key

/-- The scores `distribute` sorts: one pair for each row of the cycle that
lists the stat. -/
def State.scores (s : State) (args : DistributeArgs) : List (Name × UInt64) :=
  (s.bucket args.gameId args.cycleNumber).filterMap (GameRecords.entry args.statName)

def settleRow (gameId : UInt8) (cycleNumber : UInt32) (r : GameRecords) : GameRecords :=
  if r.inCycle gameId cycleNumber then markDistributed r else r

theorem settleRow_eq (g : UInt8) (c : UInt32) (r : GameRecords) :
    settleRow g c r = { r with rewardsDistributed := r.inCycle g c || r.rewardsDistributed } := by
  unfold settleRow
  cases h : r.inCycle g c <;> rfl

theorem modifyScan_rows (t : Table GameRecords.primaryKey) (g : UInt8) (c : UInt32) :
    (t.modifyScan GameRecords.byGameCycle (cycleKey g c) (GameRecords.inCycle g c) markDistributed
      markDistributed_id).2.rows = t.rows.map (settleRow g c) := by
  have hkey : ∀ r ∈ t.rows, r.inCycle g c = decide (r.byGameCycle = cycleKey g c) :=
    fun r _ => r.inCycle_eq_key
  exact (t.modifyScan_eq (f := markDistributed) markDistributed_id (fun _ => rfl) hkey).2

/-- A successful `distribute`: what it found, and what it leaves. -/
structure Distribution (env : Env) (ctx : Context) (s : State) (args : DistributeArgs) (s' : State)
    (transfers : List Transfer) (global : GlobalConfig) (token : TokenConfig)
    (distConfig : RewardDistConfig) (row : RewardsRecorded) : Prop where
  global_eq : s.globalconfig = some global
  total_pos : 0 < args.totalReward.amount.toInt
  tiers_le : args.rewardPercentages.length ≤ global.maxRewardTiers.toNat
  percentage : totalPercentage args.rewardPercentages = 100
  open_cycle : ∀ d ∈ s.rewardsrec.rows, ¬ (d.gameId = args.gameId ∧ d.cycleNumber = args.cycleNumber)
  token_mem : token ∈ s.tokenconfig.rows
  token_symbol : token.tokenSymbol = args.totalReward.symbol
  token_enabled : token.enabled = true
  token_contract : token.tokenContract = args.tokenContract
  dist_mem : distConfig ∈ s.rewarddist.rows
  dist_game : distConfig.gameId = args.gameId
  cycle_pos : 0 < args.cycleNumber
  cycle_lt : ∃ current, global.getCurrentCycle ctx.now = .ok current ∧ args.cycleNumber < current
  settlement : Settlement env ctx args distConfig
    ((env.sorter.sort (s.scores args)).take global.maxRewardTiers.toNat) row transfers
  rewards_rows : s'.rewardsrec.rows = s.rewardsrec.rows ++ [row]
  records_rows : s'.gamerecords.rows = s.gamerecords.rows.map (settleRow args.gameId args.cycleNumber)
  frame : s' = { s with gamerecords := s'.gamerecords, rewardsrec := s'.rewardsrec }

theorem distribute_ok (h : distribute env ctx s args = .ok (s', transfers)) :
    ∃ global token distConfig row,
      Distribution env ctx s args s' transfers global token distConfig row := by
  simp only [distribute, bind_ok, requireAuth_ok, need_ok, check_ok, pure_ok, Prod.mk.injEq] at h
  obtain ⟨_, -, global, hglobal, _, hpos, _, -, _, htiers, _, hsum, game, -, _, -, _, hopen,
    token, htoken, _, henabled, _, hcontract, distConfig, hdist, current, hcurrent, _, hcpos, _, hclt,
    scores, hscores, ⟨rewardsrec, out⟩, hpay, rfl, rfl⟩ := h
  have hpos : 0 < args.totalReward.amount.toInt := Int64.lt_iff_toInt_lt.mp hpos
  rw [s.scan_eq_bucket] at hscores
  obtain ⟨-, rfl⟩ := collectScores_ok_iff.mp hscores
  obtain ⟨row, hsettle, hrows⟩ := distributeRewards_ok hpay hpos
  obtain ⟨htmem, htkey⟩ := s.tokenconfig.find_eq_some.mp htoken
  obtain ⟨hdmem, hdkey⟩ := s.rewarddist.find_eq_some.mp hdist
  refine ⟨global, token, distConfig, row, ?_⟩
  constructor
  · exact hglobal
  · exact hpos
  · exact htiers
  · exact hsum
  · intro d hd hkey
    exact s.rewardsrec.findBy_eq_none.mp hopen d hd (cycleKey_inj.mpr hkey)
  · exact htmem
  · exact congrArg Symbol.mk htkey
  · exact henabled
  · exact hcontract
  · exact hdmem
  · exact UInt8.toUInt64_inj.mp hdkey
  · exact hcpos
  · exact ⟨current, hcurrent, hclt⟩
  · exact hsettle
  · exact hrows
  · exact modifyScan_rows ..
  · rfl

end GameRewards
