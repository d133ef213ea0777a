import GameRewards.Batches
import GameRewards.Closing
import GameRewards.Independence
import GameRewards.Rounding
import GameRewards.Settings
import GameRewards.TokenTransfer
import GameRewards.Winners

/-!
# When `distribute` succeeds

`Due` and `Configured` list what a caller has to see to. In a reachable state
nothing else can stop a distribution: the scores can be read, the sums stay in
range, the games are active, and the log has room.
-/

namespace GameRewards

open MultiIndex (Table Handle)
open MultiIndex.Handle (firstFree noAvailablePrimaryKey)

-- ---------------------------------------------------------------------------
-- A tier
-- ---------------------------------------------------------------------------

structure TierPays (total : Asset) (percentage : UInt8) : Prop where
  le_max : total.amount.toInt * percentage.toNat ≤ Asset.maxAmount
  positive :
    0 < Shares.share total.amount.toInt.toNat 100 total.symbol.precision.toNat percentage.toNat

theorem TierPays.total_le {total : Asset} (h : TierPays total percentage)
    (ht : 0 < total.amount.toInt) : total.amount.toInt ≤ Asset.maxAmount := by
  have hpos : 0 < percentage.toNat := by
    by_contra hzero
    have hshare := h.positive
    simp [Nat.eq_zero_of_not_pos hzero, Shares.share] at hshare
  exact (le_mul_of_one_le_right ht.le (by omega : (1 : Int) ≤ percentage.toNat)).trans h.le_max

theorem tierPaid_exists_iff {total : Asset} (ht : 0 < total.amount.toInt) :
    (∃ reward, TierPaid total percentage reward) ↔ TierPays total percentage := by
  have ht' : 0 < total.amount := Int64.lt_iff_toInt_lt.mpr ht
  constructor
  · rintro ⟨reward, hreward, hpos⟩
    have hpos := Int64.lt_iff_toInt_lt.mp hpos
    rw [(tierReward_ok ht hreward).1, Int64.toInt_zero] at hpos
    exact ⟨((tierReward_ok_iff ht').mp ⟨reward, hreward⟩).2, Int.natCast_pos.mp hpos⟩
  · rintro ⟨hle, hpos⟩
    have hprecision : total.symbol.precision ≠ 0 := by
      intro hzero
      simp [hzero, Shares.share] at hpos
    obtain ⟨reward, hreward⟩ := (tierReward_ok_iff ht').mpr ⟨hprecision, hle⟩
    refine ⟨reward, hreward, Int64.lt_iff_toInt_lt.mpr ?_⟩
    rw [(tierReward_ok ht hreward).1, Int64.toInt_zero]
    exact Int.natCast_pos.mpr hpos

def tierShare (total : Asset) (percentage : UInt8) : Int :=
  Shares.share total.amount.toInt.toNat 100 total.symbol.precision.toNat percentage.toNat

-- ---------------------------------------------------------------------------
-- The payment loop
-- ---------------------------------------------------------------------------

/-- What the loop finds before each tier: the two running sums are sound, and
what is left covers the tiers ahead. -/
structure LoopFunds (args : DistributeArgs) (p : Payout) : Prop where
  remaining_symbol : p.remainingReward.symbol = args.totalReward.symbol
  total_symbol : p.distributedTotal.symbol = args.totalReward.symbol
  total_nonneg : 0 ≤ p.distributedTotal.amount.toInt
  rest_eq : p.remainingReward.amount.toInt =
    args.totalReward.amount.toInt - p.distributedTotal.amount.toInt
  covers : p.distributedTotal.amount.toInt +
    ((args.rewardPercentages.drop p.currentTier).map (tierShare args.totalReward)).sum ≤
      args.totalReward.amount.toInt

theorem tierShare_nonneg (total : Asset) (percentage : UInt8) : 0 ≤ tierShare total percentage :=
  Int.natCast_nonneg _

theorem LoopFunds.step (h : LoopFunds args p)
    (hdrop : args.rewardPercentages.drop p.currentTier =
      percentage :: args.rewardPercentages.drop (p.currentTier + 1))
    (hamount : reward.amount.toInt = tierShare args.totalReward percentage)
    (hsymbol : reward.symbol = args.totalReward.symbol)
    (hmax : args.totalReward.amount.toInt ≤ Asset.maxAmount) :
    ∃ remaining distributed, p.remainingReward.sub reward = .ok remaining ∧
      p.distributedTotal.add reward = .ok distributed ∧
      ∀ players rewards transfers, LoopFunds args
        ⟨p.currentTier + 1, players, rewards, remaining, distributed, transfers⟩ := by
  have hnonneg := tierShare_nonneg args.totalReward percentage
  have hahead : 0 ≤ ((args.rewardPercentages.drop (p.currentTier + 1)).map
      (tierShare args.totalReward)).sum :=
    List.sum_nonneg (List.forall_mem_map.mpr fun _ _ => tierShare_nonneg _ _)
  have hcovers := h.covers
  rw [hdrop, List.map_cons, List.sum_cons] at hcovers
  have hrest := h.rest_eq
  have htotal := h.total_nonneg
  obtain ⟨remaining, hsub, hremaining, hremainingSymbol⟩ := Asset.sub_exists
    (hsymbol.trans h.remaining_symbol.symm) (by omega) (by omega)
  obtain ⟨distributed, hadd, hdistributed, hdistributedSymbol⟩ := Asset.add_exists
    (hsymbol.trans h.total_symbol.symm) (by omega) (by omega)
  refine ⟨remaining, distributed, hsub, hadd, fun players rewards transfers => ?_⟩
  constructor
  · exact hremainingSymbol.trans h.remaining_symbol
  · exact hdistributedSymbol.trans h.total_symbol
  · dsimp only
    omega
  · dsimp only
    omega
  · dsimp only
    omega

theorem payTiers_exists (ht : 0 < args.totalReward.amount.toInt) (hfunds : LoopFunds args p)
    (htiers : ∀ percentage ∈ (args.rewardPercentages.drop p.currentTier).take players.length,
      TierPays args.totalReward percentage) :
    ∃ p', payTiers env args distConfig players p = .ok p' := by
  induction players generalizing p with
  | nil => exact ⟨p, rfl⟩
  | cons entry players ih =>
    unfold payTiers
    cases hget : args.rewardPercentages[p.currentTier]? with
    | none => exact ⟨p, rfl⟩
    | some percentage =>
      obtain ⟨hlen, hpct⟩ := List.getElem?_eq_some_iff.mp hget
      have hdrop : args.rewardPercentages.drop p.currentTier =
          percentage :: args.rewardPercentages.drop (p.currentTier + 1) := by
        rw [List.drop_eq_getElem_cons hlen, hpct]
      rw [hdrop, List.length_cons, List.take_succ_cons] at htiers
      obtain ⟨hpays, hrest⟩ := List.forall_mem_cons.mp htiers
      obtain ⟨reward, hreward, hpos⟩ := (tierPaid_exists_iff ht).mpr hpays
      obtain ⟨hamount, hsymbol, -⟩ := tierReward_ok ht hreward
      obtain ⟨remaining, distributed, hsub, hadd, hnext⟩ :=
        hfunds.step hdrop hamount hsymbol (hpays.total_le ht)
      obtain ⟨p', hp'⟩ := ih (hnext _ _ _) hrest
      simp only [bind_ok, check_ok]
      exact ⟨p', reward, hreward, (), hpos, remaining, hsub, distributed, hadd, hp'⟩

-- ---------------------------------------------------------------------------
-- The whole call
-- ---------------------------------------------------------------------------

/-- What the caller has to see to whatever is configured. -/
structure Due (env : Env) (ctx : Context) (s : State) (args : DistributeArgs)
    (global : GlobalConfig) : Prop where
  auth : ctx.hasAuth env.self = true
  initialized : s.globalconfig = some global
  positive : 0 < args.totalReward.amount.toInt
  symbol : args.totalReward.symbol.isValid = true
  tiers_le : args.rewardPercentages.length ≤ global.maxRewardTiers.toNat
  percentages : (args.rewardPercentages.map UInt8.toNat).sum = 100
  open_cycle : ¬ s.Closed args.gameId args.cycleNumber
  cycle_pos : 0 < args.cycleNumber
  /-- In the 32 bits of the contract; see `cycleAt_lt_iff`. -/
  passed : args.cycleNumber < global.cycleAt ctx.now
  tiers : ∀ percentage ∈ args.rewardPercentages.take (s.contenders args).length,
    TierPays args.totalReward percentage

/-- What the configuration has to provide for the call. -/
structure Configured (s : State) (args : DistributeArgs) : Prop where
  game : (s.gameconfig.find args.gameId.toUInt64).isSome = true
  token : ∃ token, s.tokenconfig.find args.totalReward.symbol.raw = some token ∧
    token.enabled = true ∧ token.tokenContract = args.tokenContract
  dist : (s.rewarddist.find args.gameId.toUInt64).isSome = true

/-- From the start of the first cycle on a cycle has passed when it has ended. -/
theorem cycleAt_lt_iff {g : GlobalConfig} (hvalid : g.Valid)
    (hstart : g.cyclesInitiationTime ≤ now) (hpos : 0 < cycle) :
    cycle < g.cycleAt now ↔ g.Ended now cycle := by
  have hstarted := UInt32.le_iff_toNat_le.mp hstart
  have hfirst : 1 ≤ cycle.toNat := UInt32.lt_iff_toNat_lt.mp hpos
  rw [UInt32.lt_iff_toNat_lt, GlobalConfig.cycleAt, GlobalConfig.cycle_toNat hvalid hstart,
    (g.calendar hvalid).lt_periodOf_iff hstarted]
  exact (and_iff_right hfirst).symm

theorem State.closed_iff_findBy {s : State} :
    s.rewardsrec.findBy RewardsRecorded.byGameCycle (cycleKey g c) = none ↔ ¬ s.Closed g c := by
  rw [s.rewardsrec.findBy_eq_none]
  simp only [RewardsRecorded.byGameCycle, ne_eq, cycleKey_inj, State.Closed, not_exists, not_and]

theorem due_of_distribute (hinv : Invariant s)
    (h : distribute env ctx s args = .ok (s', out)) :
    (∃ global, Due env ctx s args global) ∧ Configured s args := by
  obtain ⟨global, _, _, row, hd⟩ := distribute_ok h
  obtain ⟨_, _, htop⟩ := hd.topScores hinv.stats_lengths
  have hsymbol := distribute_symbol_valid h
  simp only [distribute, bind_ok, requireAuth_ok, need_ok, check_ok] at h
  obtain ⟨_, hauth, global', hglobal, _, -, _, -, _, -, _, -, game, hgame, _, -, _, hopen, token,
    htoken, _, henabled, _, hcontract, dist, hdist, current, hcurrent, _, hcpos, _, hclt, -⟩ := h
  obtain rfl : global' = global := Option.some.inj (hglobal.symm.trans hd.global_eq)
  rw [GlobalConfig.getCurrentCycle_ok (hinv.globals _ hglobal)] at hcurrent
  obtain rfl := Except.ok.inj hcurrent
  refine ⟨⟨global', ?_⟩, Option.isSome_of_eq_some hgame, ⟨token, htoken, henabled, hcontract⟩,
    Option.isSome_of_eq_some hdist⟩
  constructor
  · exact hauth
  · exact hglobal
  · exact hd.total_pos
  · exact hsymbol
  · exact hd.tiers_le
  · exact hd.percentages_sum
  · exact State.closed_iff_findBy.mp hopen
  · exact hcpos
  · exact hclt
  · intro percentage hp
    have htake : args.rewardPercentages.take row.rewardedPlayers.length =
        args.rewardPercentages.take (s.contenders args).length := by
      rw [List.take_eq_take_iff, htop.count]
      omega
    have htiers := htop.tiers
    rw [htake] at htiers
    obtain ⟨i, hi, rfl⟩ := List.mem_iff_getElem.mp hp
    have hpaid := htiers.get hi (htiers.length_eq ▸ hi)
    exact (tierPaid_exists_iff hd.total_pos).mp ⟨_, hpaid⟩

/-- The percentages add up to 100, so the tiers never overspend the total. -/
theorem sum_tierShare_le {total : Asset} (ht : 0 < total.amount.toInt) {percentages : List UInt8}
    (hsum : (percentages.map UInt8.toNat).sum = 100) :
    (percentages.map (tierShare total)).sum ≤ total.amount.toInt := by
  let share := Shares.share total.amount.toInt.toNat 100 total.symbol.precision.toNat
  have hshares : ((percentages.map UInt8.toNat).map share).sum ≤ total.amount.toInt.toNat :=
    Shares.sum_shares_le (by decide) hsum.le
  have hcast : (percentages.map (tierShare total)).sum =
      (((percentages.map UInt8.toNat).map share).sum : Nat) := by
    rw [← Nat.coe_castAddMonoidHom, map_list_sum, List.map_map, List.map_map]
    rfl
  rw [hcast]
  omega

theorem LoopFunds.start (ht : 0 < args.totalReward.amount.toInt)
    (hsum : (args.rewardPercentages.map UInt8.toNat).sum = 100) :
    LoopFunds args ⟨0, [], [], args.totalReward, ⟨0, args.totalReward.symbol⟩, []⟩ where
  remaining_symbol := rfl
  total_symbol := rfl
  total_nonneg := le_refl _
  rest_eq := by simp
  covers := by simpa using sum_tierShare_le ht hsum

theorem collectScores_bucket {s : State}
    (hlen : ∀ r ∈ s.gamerecords.rows, r.statsNames.length = r.statsValues.length)
    (args : DistributeArgs) :
    collectScores args.statName (s.bucket args.gameId args.cycleNumber) = .ok (s.scores args) := by
  refine collectScores_ok_iff.mpr ⟨fun row hr => ?_, rfl⟩
  exact (score_isSome_iff (hlen row (List.mem_of_mem_filter hr))).mpr

theorem scores_length {s : State}
    (hlen : ∀ r ∈ s.gamerecords.rows, r.statsNames.length = r.statsValues.length)
    (args : DistributeArgs) : (s.scores args).length = (s.contenders args).length := by
  rw [State.contenders_eq hlen, State.scores, List.length_filterMap_eq_countP,
    List.countP_eq_length_filter]

theorem Due.admits (h : Due env ctx s args global) (hconf : Configured s args)
    (hinv : Invariant s) (hactive : s.GamesActive) :
    ∃ dist, admission env ctx s args = .ok (global, dist) := by
  obtain ⟨game, hgame⟩ := Option.isSome_iff_exists.mp hconf.game
  obtain ⟨dist, hdist⟩ := Option.isSome_iff_exists.mp hconf.dist
  obtain ⟨token, htoken, henabled, hcontract⟩ := hconf.token
  have hne : args.rewardPercentages ≠ [] := by
    intro hnone
    have hsum := h.percentages
    simp [hnone] at hsum
  have hsum : totalPercentage args.rewardPercentages = 100 := by
    have htiers := h.tiers_le
    have hmax := global.maxRewardTiers.toNat_lt
    refine UInt16.toNat_inj.mp ?_
    rw [totalPercentage_toNat (by omega), h.percentages]
    rfl
  have hopen := State.closed_iff_findBy.mpr h.open_cycle
  have hcurrent := GlobalConfig.getCurrentCycle_ok (hinv.globals _ h.initialized) ctx.now
  simp only [admission, bind_ok, requireAuth_ok, need_ok, check_ok, pure_ok]
  refine ⟨dist, (), h.auth, global, h.initialized, (), Int64.lt_iff_toInt_lt.mpr h.positive, (), hne,
    (), h.tiers_le, (), hsum, ?_⟩
  refine ⟨game, hgame, (), hactive _ _ hgame, (), hopen, token, htoken, (), henabled, (), hcontract,
    ?_⟩
  exact ⟨dist, hdist, _, hcurrent, (), h.cycle_pos, (), h.passed, rfl⟩

theorem Due.pays (h : Due env ctx s args global) (hinv : Invariant s) (dist : RewardDistConfig) :
    ∃ p, payTiers env args dist
      ((env.sorter.sort (s.scores args)).take global.maxRewardTiers.toNat)
      ⟨0, [], [], args.totalReward, ⟨0, args.totalReward.symbol⟩, []⟩ = .ok p := by
  refine payTiers_exists h.positive (.start h.positive h.percentages) ?_
  intro percentage hmem
  rw [List.length_take, (env.sorter.perm _).length_eq, scores_length hinv.stats_lengths] at hmem
  exact h.tiers percentage (List.take_subset_take_left _ (Nat.min_le_right _ _) hmem)

theorem Due.decides (h : Due env ctx s args global) (hconf : Configured s args)
    (hinv : Invariant s) (hactive : s.GamesActive) : ∃ r, decision env ctx s args = .ok r := by
  obtain ⟨dist, hadmission⟩ := h.admits hconf hinv hactive
  obtain ⟨p, hp⟩ := h.pays hinv dist
  have hscores := collectScores_bucket hinv.stats_lengths args
  have hzero : Asset.make 0 args.totalReward.symbol = .ok ⟨0, args.totalReward.symbol⟩ := by
    simp only [Asset.make, bind_ok, check_ok, pure_ok]
    exact ⟨(), by decide, (), h.symbol, trivial⟩
  simp only [decision, bind_ok, pure_ok]
  exact ⟨_, _, hadmission, _, hscores, _, hzero, _, hp, rfl⟩

-- ---------------------------------------------------------------------------
-- Every run
-- ---------------------------------------------------------------------------

/-- After every run a distribution succeeds exactly for a caller who meets the
conditions. -/
theorem run_distribute_iff (env : Env) (actions : List Action) (ctx : Context)
    (args : DistributeArgs) :
    (∃ r, distribute env ctx (run env actions) args = .ok r) ↔
      (∃ global, Due env ctx (run env actions) args global) ∧
        Configured (run env actions) args := by
  have hinv := run_invariant env actions
  constructor
  · rintro ⟨⟨s', out⟩, h⟩
    exact due_of_distribute hinv h
  · rintro ⟨⟨global, h⟩, hconf⟩
    obtain ⟨⟨row, out⟩, hdecided⟩ := h.decides hconf hinv (run_games_active env actions)
    obtain ⟨hout, -⟩ := distribute_outcome env ctx args (run_log_room env actions)
    rw [hdecided] at hout
    obtain ⟨⟨s', _⟩, hx, -⟩ := map_ok.mp hout
    exact ⟨_, hx⟩

end GameRewards
