import GameRewards.PayoutLog
import GameRewards.Reinitialization

/-!
# What `distribute` accepts

`distribute` in two halves: `admission` checks the call against the configuration,
the log and the clock and reads no record; `settle` pays and marks. The minimum
percentage per tier, which `initcontract` stores, is not among the checks.
-/

namespace GameRewards

open MultiIndex (Handle)

-- ---------------------------------------------------------------------------
-- The checks before the records are read
-- ---------------------------------------------------------------------------

/-- The checks of `distribute`, with what they find of use to the rest. -/
def admission (env : Env) (ctx : Context) (s : State) (args : DistributeArgs) :
    Result (GlobalConfig × RewardDistConfig) := do
  requireAuth env ctx
  let globalState ← need s.globalconfig "Contract not initialized"
  check (0 < args.totalReward.amount) "Total reward must be positive"
  check (args.rewardPercentages ≠ []) "Reward percentages cannot be empty"
  check (args.rewardPercentages.length ≤ globalState.maxRewardTiers.toNat) "Too many reward tiers"
  check (totalPercentage args.rewardPercentages = 100) "Reward percentages must sum to 100"
  let game ← need (s.gameconfig.find args.gameId.toUInt64) "Game ID not found"
  check game.active "Game is not active"
  let key := cycleKey args.gameId args.cycleNumber
  check (s.rewardsrec.findBy RewardsRecorded.byGameCycle key = none)
    "Rewards have already been distributed for this cycle"
  let tokenCfg ← need (s.tokenconfig.find args.totalReward.symbol.raw) "Token not configured"
  check tokenCfg.enabled "Token is disabled"
  check (tokenCfg.tokenContract = args.tokenContract) "Invalid token contract"
  let distConfig ← need (s.rewarddist.find args.gameId.toUInt64)
    "Reward distribution config not found for game ID"
  let currentCycle ← globalState.getCurrentCycle ctx.now
  check (0 < args.cycleNumber) "Invalid cycle number: must be greater than zero"
  check (args.cycleNumber < currentCycle) "Cannot distribute rewards for an ongoing or future cycle"
  pure (globalState, distConfig)

/-- The other half: collect, sort, cut, pay, mark. -/
def settle (env : Env) (ctx : Context) (s : State) (args : DistributeArgs)
    (found : GlobalConfig × RewardDistConfig) : Result (State × List Transfer) := do
  let key := cycleKey args.gameId args.cycleNumber
  let inCycle := GameRecords.inCycle args.gameId args.cycleNumber
  let playerScores ← collectScores args.statName
    (s.gamerecords.scan GameRecords.byGameCycle key inCycle)
  let topScores := (env.sorter.sort playerScores).take found.1.maxRewardTiers.toNat
  let paid ← distributeRewards env ctx s.rewardsrec args found.2 topScores
  let gamerecords :=
    (s.gamerecords.modifyScan GameRecords.byGameCycle key inCycle markDistributed
      markDistributed_id).2
  pure ({ s with gamerecords := gamerecords, rewardsrec := paid.1 }, paid.2)

theorem distribute_eq (env : Env) (ctx : Context) (s : State) (args : DistributeArgs) :
    distribute env ctx s args = admission env ctx s args >>= settle env ctx s args := by
  simp only [distribute, admission, settle, bind_assoc, pure_bind]

theorem admission_of_distribute (h : distribute env ctx s args = .ok r) :
    ∃ x, admission env ctx s args = .ok x := by
  rw [distribute_eq, bind_ok] at h
  obtain ⟨x, hx, -⟩ := h
  exact ⟨x, hx⟩

structure TiersAccepted (global : GlobalConfig) (percentages : List UInt8) : Prop where
  nonempty : percentages ≠ []
  tiers_le : percentages.length ≤ global.maxRewardTiers.toNat
  sum : totalPercentage percentages = 100

theorem admission_ok (h : admission env ctx s args = .ok (global, distConfig)) :
    s.globalconfig = some global ∧ TiersAccepted global args.rewardPercentages := by
  simp only [admission, bind_ok, requireAuth_ok, need_ok, check_ok, pure_ok, Prod.mk.injEq] at h
  obtain ⟨_, -, _, hglobal, _, -, _, hne, _, htiers, _, hsum, h⟩ := h
  obtain ⟨_, -, _, -, _, -, _, -, _, -, _, -, _, -, _, -, _, -, _, -, rfl, rfl⟩ := h
  exact ⟨hglobal, hne, htiers, hsum⟩

theorem admission_positive (h : admission env ctx s args = .ok found) :
    0 < args.totalReward.amount.toInt := by
  simp only [admission, bind_ok, check_ok] at h
  obtain ⟨_, -, _, -, _, hpos, -⟩ := h
  exact Int64.lt_iff_toInt_lt.mp hpos

theorem TiersAccepted.percentages_sum (h : TiersAccepted global percentages) :
    (percentages.map UInt8.toNat).sum = 100 := by
  have htiers := h.tiers_le
  have hmax := global.maxRewardTiers.toNat_lt
  rw [← totalPercentage_toNat (by omega), h.sum]
  rfl

theorem TiersAccepted.of_admission (h : admission env ctx s args = .ok x)
    (hg : s.globalconfig = some g) : TiersAccepted g args.rewardPercentages := by
  obtain ⟨hfound, htiers⟩ := admission_ok h
  obtain rfl : x.1 = g := Option.some.inj (hfound.symm.trans hg)
  exact htiers

theorem admission_with (h : admission env ctx s args = .ok (global, distConfig))
    (hps : TiersAccepted global percentages) (stat : Name) :
    admission env ctx s { args with statName := stat, rewardPercentages := percentages } =
      .ok (global, distConfig) := by
  simp only [admission, bind_ok, requireAuth_ok, need_ok, check_ok, pure_ok, Prod.mk.injEq] at h ⊢
  obtain ⟨_, hauth, _, hglobal, _, hpos, _, -, _, -, _, -, h⟩ := h
  obtain ⟨game, hgame, _, hactive, _, hopen, token, htoken, _, henabled, _, hcontract, h⟩ := h
  obtain ⟨_, hdist, current, hcurrent, _, hcpos, _, hclt, rfl, rfl⟩ := h
  refine ⟨(), hauth, _, hglobal, (), hpos, (), hps.nonempty, (), hps.tiers_le, (), hps.sum, ?_⟩
  refine ⟨game, hgame, (), hactive, (), hopen, token, htoken, (), henabled, (), hcontract, ?_⟩
  exact ⟨_, hdist, current, hcurrent, (), hcpos, (), hclt, rfl, rfl⟩

theorem settle_unlisted (h : settle env ctx s args found = .ok r)
    (hstat : ∀ q ∈ s.bucket args.gameId args.cycleNumber, stat ∉ q.statsNames)
    (percentages : List UInt8) :
    ∃ r', settle env ctx s { args with statName := stat, rewardPercentages := percentages } found =
      .ok r' := by
  have hnone : (env.sorter.sort []).take found.1.maxRewardTiers.toNat = [] := by
    rw [List.perm_nil.mp (env.sorter.perm []), List.take_nil]
  simp only [settle, distributeRewards, bind_ok, need_ok, pure_ok, State.scan_eq_bucket] at h ⊢
  obtain ⟨_, -, _, ⟨zero, hzero, _, -, ⟨id, handle⟩, hid, -⟩, -⟩ := h
  let row : RewardsRecorded :=
    ⟨id, args.gameId, args.cycleNumber, stat, zero, [], [], ctx.now⟩
  obtain ⟨handle', hstored⟩ : ∃ handle', handle.emplace row = some handle' :=
    Handle.emplace_available (Handle.ofTable_fresh _) hid rfl
  refine ⟨_, [], collectScores_unlisted hstat, _,
    ⟨zero, hzero, ⟨0, [], [], args.totalReward, zero, []⟩, ?_, (id, handle), hid, handle', hstored,
      rfl⟩, rfl⟩
  rw [hnone]
  rfl

theorem distribute_unlisted (h : distribute env ctx s args = .ok r) (hg : s.globalconfig = some g)
    (hps : TiersAccepted g percentages)
    (hstat : ∀ q ∈ s.bucket args.gameId args.cycleNumber, stat ∉ q.statsNames) :
    ∃ r', distribute env ctx s { args with statName := stat, rewardPercentages := percentages } =
      .ok r' := by
  simp only [distribute_eq, bind_ok] at h ⊢
  obtain ⟨⟨global, distConfig⟩, hadmission, hsettle⟩ := h
  obtain ⟨hglobal, -⟩ := admission_ok hadmission
  obtain rfl : global = g := Option.some.inj (hglobal.symm.trans hg)
  obtain ⟨r', hr'⟩ := settle_unlisted hsettle hstat percentages
  exact ⟨r', _, admission_with hadmission hps stat, hr'⟩

-- ---------------------------------------------------------------------------
-- The minimum percentage
-- ---------------------------------------------------------------------------

theorem run_config (env : Env) (actions : List Action)
    (hg : (run env actions).globalconfig = some g) :
    ∃ args now, InitArgs.Accepted args now ∧ g = args.toGlobal := by
  have horigin := run_globals env State.deployed actions
  rw [← run, hg] at horigin
  generalize hg' : some g = globals at horigin
  cases horigin with
  | kept _ => cases hg'
  | reset _ _ haccepted => exact ⟨_, _, haccepted, Option.some.inj hg'⟩

theorem TiersAccepted.eq_single (h : TiersAccepted g ps) (htiers : g.maxRewardTiers = 1) :
    ps = [100] := by
  obtain ⟨hne, hlen, hsum⟩ := h
  rw [htiers] at hlen
  cases ps with
  | nil => exact absurd rfl hne
  | cons p rest =>
    have hrest : rest = [] := by simpa using hlen
    subst hrest
    have hp : (totalPercentage [p]).toNat = ([p].map UInt8.toNat).sum :=
      totalPercentage_toNat (by simp)
    rw [hsum] at hp
    rw [UInt8.toNat_inj.mp (by simpa using hp.symm : p.toNat = (100 : UInt8).toNat)]

theorem tiers_respect_min_iff (htiers : 0 < g.maxRewardTiers) (hmin : 0 < g.minRewardPercentage) :
    (∀ ps, TiersAccepted g ps → ∀ p ∈ ps, g.minRewardPercentage ≤ p) ↔
      g.maxRewardTiers = 1 ∧ g.minRewardPercentage ≤ 100 := by
  rw [UInt8.lt_iff_toNat_lt, UInt8.toNat_zero] at htiers hmin
  constructor
  · intro h
    have hone : g.maxRewardTiers = 1 := by
      by_contra hne
      -- With two tiers the second may be empty.
      have htwo : 2 ≤ g.maxRewardTiers.toNat := by
        have : g.maxRewardTiers.toNat ≠ 1 := fun h1 => hne (UInt8.toNat_inj.mp h1)
        omega
      have hzero := h [100, 0] ⟨by simp, htwo, rfl⟩ 0 (by simp)
      rw [UInt8.le_iff_toNat_le, UInt8.toNat_zero] at hzero
      omega
    exact ⟨hone, h [100] ⟨by simp, by simp [hone], rfl⟩ 100 (by simp)⟩
  · rintro ⟨hone, hle⟩ ps hps p hp
    rw [hps.eq_single hone, List.mem_singleton] at hp
    exact hp ▸ hle

/-- With one tier and a minimum that can be met every successful call respects
the minimum. Under any other configuration a call that succeeds, made with a
stat that no record of the cycle lists, also succeeds with a list below it. -/
theorem min_percentage_respected_iff (env : Env) (actions : List Action)
    (hg : (run env actions).globalconfig = some global) :
    (global.maxRewardTiers = 1 ∧ global.minRewardPercentage ≤ 100 →
      ∀ ctx args s' out, distribute env ctx (run env actions) args = .ok (s', out) →
        ∀ p ∈ args.rewardPercentages, global.minRewardPercentage ≤ p) ∧
    ∀ ctx args s' out stat, distribute env ctx (run env actions) args = .ok (s', out) →
      (∀ r ∈ (run env actions).bucket args.gameId args.cycleNumber, stat ∉ r.statsNames) →
      ((∀ percentages s' out, distribute env ctx (run env actions)
            { args with statName := stat, rewardPercentages := percentages } = .ok (s', out) →
          ∀ p ∈ percentages, global.minRewardPercentage ≤ p) ↔
        global.maxRewardTiers = 1 ∧ global.minRewardPercentage ≤ 100) := by
  obtain ⟨init, now, haccepted, hinit⟩ := run_config env actions hg
  have hiff := tiers_respect_min_iff (g := global) (hinit ▸ haccepted.tiers_pos)
    (hinit ▸ haccepted.percentage_pos)
  have hrespected : global.maxRewardTiers = 1 ∧ global.minRewardPercentage ≤ 100 →
      ∀ ctx args s' out, distribute env ctx (run env actions) args = .ok (s', out) →
        ∀ p ∈ args.rewardPercentages, global.minRewardPercentage ≤ p := by
    intro hcond ctx args s' out hdist
    obtain ⟨x, hx⟩ := admission_of_distribute hdist
    exact hiff.mpr hcond _ (.of_admission hx hg)
  refine ⟨hrespected, fun ctx args s' out stat hdist hstat => ?_⟩
  constructor
  · intro hall
    refine hiff.mp fun ps hps => ?_
    obtain ⟨⟨s₁, out₁⟩, hsucceeds⟩ := distribute_unlisted hdist hg hps hstat
    exact hall ps s₁ out₁ hsucceeds
  · exact fun hcond ps s₁ out₁ => hrespected hcond ctx _ s₁ out₁

def Sample.bounded (tiers minimum : UInt8) : List Action :=
  Sample.block 1000 (.initcontract ⟨1000, 100, 1000, tiers, minimum⟩) ::
    (Sample.setup 1000 1000 100).tail

def Sample.oneTier : List Action :=
  Sample.bounded 1 5 ++
    [Sample.block 1050 (.recordgame [Sample.result 10 50 1010, Sample.result 11 40 1020])]

theorem single_tier_respects_min :
    (∀ p ∈ (Sample.payout 1 [100]).rewardPercentages, 5 ≤ p) ∧
    ((∀ percentages s' out, distribute Sample.env (Sample.context 1100)
          (run Sample.env Sample.oneTier)
          { Sample.payout 1 [100] with statName := ⟨8⟩, rewardPercentages := percentages } =
            .ok (s', out) →
        ∀ p ∈ percentages, 5 ≤ p) ↔ (1 : UInt8) = 1 ∧ (5 : UInt8) ≤ 100) := by
  obtain ⟨hrespected, hexact⟩ := min_percentage_respected_iff Sample.env Sample.oneTier rfl
  exact ⟨hrespected (by decide) (Sample.context 1100) (Sample.payout 1 [100]) _ _ rfl,
    hexact (Sample.context 1100) (Sample.payout 1 [100]) _ _ ⟨8⟩ rfl (by decide)⟩

theorem tier_below_min_paid :
    ¬ ∀ (env : Env) (actions : List Action) (ctx : Context) (args : DistributeArgs)
      (global : GlobalConfig) (s' : State) (out : List Transfer),
      (run env actions).globalconfig = some global →
      distribute env ctx (run env actions) args = .ok (s', out) →
      ∀ p ∈ args.rewardPercentages, global.minRewardPercentage ≤ p := by
  intro h
  have hmin := h Sample.env
    (Sample.bounded 10 5 ++ [Sample.block 1050 (.recordgame
      [Sample.result 10 50 1010, Sample.result 11 40 1020])])
    (Sample.context 1100) (Sample.payout 1 [98, 2]) ⟨true, 1000, 100, 1000, 10, 5⟩ _ _ (by decide)
    rfl 2 (by decide)
  exact absurd hmin (by decide)

end GameRewards
