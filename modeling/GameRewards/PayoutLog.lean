import GameRewards.Invariant
import Mathlib.Algebra.Group.Action.Defs
import Mathlib.Algebra.Order.BigOperators.Group.List

/-!
# The log of payouts

Every transfer of the current initialization belongs to one row of
`rewardsrec`, in order, and a row never accounts for more than the call that
wrote it was given.
-/

namespace GameRewards

-- ---------------------------------------------------------------------------
-- A distribution spends at most its total
-- ---------------------------------------------------------------------------

theorem totalPercentage_toNat (hlen : ps.length ≤ 255) :
    (totalPercentage ps).toNat = (ps.map UInt8.toNat).sum := by
  have hfold : ps.foldl (fun sum percentage => sum + percentage.toNat) 0 =
      (ps.map UInt8.toNat).sum := by
    rw [List.sum_eq_foldl, List.foldl_map]
  have hbyte : ∀ n ∈ ps.map UInt8.toNat, n ≤ 255 := by
    simp only [List.mem_map]
    rintro _ ⟨p, -, rfl⟩
    have hlt := p.toNat_lt
    omega
  have hbound := List.sum_le_card_nsmul (ps.map UInt8.toNat) 255 hbyte
  rw [List.length_map, smul_eq_mul] at hbound
  rw [totalPercentage, hfold, UInt16.toNat_ofNat']
  exact Nat.mod_eq_of_lt (by omega)

theorem sum_rewards {total : Asset} (ht : 0 < total.amount.toInt)
    (h : List.Forall₂ (TierPaid total) ps rewards) :
    (rewards.map fun r => r.amount.toInt).sum =
      ((ps.map UInt8.toNat).map
        (Shares.share total.amount.toInt.toNat 100 total.symbol.precision.toNat)).sum := by
  induction h with
  | nil => rfl
  | cons hpaid _ ih =>
    obtain ⟨hreward, -, -⟩ := tierReward_ok ht hpaid.1
    simp only [List.map_cons, List.sum_cons, hreward, ih, Int.natCast_add]

theorem Settlement.reward {reward : Asset}
    (h : Settlement env ctx args distConfig players row transfers)
    (ht : 0 < args.totalReward.amount.toInt) (hr : reward ∈ row.playerRewards) :
    0 < reward.amount ∧ reward.symbol = args.totalReward.symbol := by
  obtain ⟨i, hi, rfl⟩ := List.mem_iff_getElem.mp hr
  have hpaid := h.tiers.get (h.tiers.length_eq ▸ hi) hi
  exact ⟨hpaid.2, (tierReward_ok ht hpaid.1).2.1⟩

theorem Distribution.percentages_sum
    (h : Distribution env ctx s args s' out global token distConfig row) :
    (args.rewardPercentages.map UInt8.toNat).sum = 100 := by
  have htiers := h.tiers_le
  have hmax := global.maxRewardTiers.toNat_lt
  rw [← totalPercentage_toNat (by omega), h.percentage]
  rfl

theorem Distribution.total_le (h : Distribution env ctx s args s' out global token distConfig row) :
    row.totalReward.amount.toInt ≤ args.totalReward.amount.toInt := by
  have hpaid : ∀ n, ((args.rewardPercentages.take n).map UInt8.toNat).sum ≤ 100 := by
    intro n
    rw [← h.percentages_sum]
    exact ((List.take_sublist n _).map UInt8.toNat).sum_le_sum fun _ _ => Nat.zero_le _
  rw [h.settlement.total, sum_rewards h.total_pos h.settlement.tiers,
    ← Int.toNat_of_nonneg h.total_pos.le, Int.toNat_natCast, Int.ofNat_le]
  exact Shares.sum_shares_le (by decide) (hpaid _)

-- ---------------------------------------------------------------------------
-- Rows and calls
-- ---------------------------------------------------------------------------

/-- The successful actions since the last successful `initcontract`. -/
def currentEra (env : Env) (actions : List Action) : List Event :=
  History.era (fun e => e.request.call.isInit) (events env actions)

/-- A row of the log accounts for a successful `distribute`: its transfers,
one for each rewarded player, and the total they add up to. -/
structure Accounts (env : Env) (e : Event) (args : DistributeArgs) (global : GlobalConfig)
    (token : TokenConfig)
    (distConfig : RewardDistConfig) (row : RewardsRecorded) : Prop where
  call : e.request.call = .distribute args
  game : row.gameId = args.gameId
  cycle : row.cycleNumber = args.cycleNumber
  lengths : row.rewardedPlayers.length = row.playerRewards.length
  tiers_le : row.playerRewards.length ≤ args.rewardPercentages.length
  global_eq : e.pre.globalconfig = some global
  max_tiers : args.rewardPercentages.length ≤ global.maxRewardTiers.toNat
  token_mem : token ∈ e.pre.tokenconfig.rows
  token_symbol : token.tokenSymbol = args.totalReward.symbol
  token_enabled : token.enabled = true
  dist_mem : distConfig ∈ e.pre.rewarddist.rows
  dist_game : distConfig.gameId = args.gameId
  transfers : e.output =
    List.zipWith (transferTo env token.tokenContract distConfig) row.rewardedPlayers row.playerRewards
  rewards : ∀ reward ∈ row.playerRewards, 0 < reward.amount ∧ reward.symbol = args.totalReward.symbol
  total : row.totalReward.amount.toInt = (row.playerRewards.map fun r => r.amount.toInt).sum
  total_symbol : row.totalReward.symbol = args.totalReward.symbol
  total_le : row.totalReward.amount.toInt ≤ args.totalReward.amount.toInt

def Logged (env : Env) (e : Event) (row : RewardsRecorded) : Prop :=
  ∃ args global token distConfig, Accounts env e args global token distConfig row

theorem Distribution.logged (h : Distribution env ctx s args s' out global token distConfig row) :
    Logged env ⟨s, ⟨ctx, .distribute args⟩, out, s'⟩ row := by
  refine ⟨args, global, token, distConfig, ?_⟩
  constructor
  · rfl
  · exact h.settlement.game
  · exact h.settlement.cycle
  · exact h.settlement.lengths
  · rw [← h.settlement.tiers.length_eq, List.length_take]
    exact Nat.min_le_right _ _
  · exact h.global_eq
  · exact h.tiers_le
  · exact h.token_mem
  · exact h.token_symbol
  · exact h.token_enabled
  · exact h.dist_mem
  · exact h.dist_game
  · rw [h.token_contract]
    exact h.settlement.transfers_eq
  · exact fun reward hr => h.settlement.reward h.total_pos hr
  · exact h.settlement.total
  · exact h.settlement.symbol
  · exact h.total_le

def distributions (evs : List Event) : List Event := evs.filter fun e => e.request.call.isDistribute

theorem distributions_other (h : e.request.call.isDistribute = false) :
    distributions (evs ++ [e]) = distributions evs := by
  simp [distributions, h]

theorem distributions_distribute (h : e.request.call.isDistribute = true) :
    distributions (evs ++ [e]) = distributions evs ++ [e] := by
  simp [distributions, h]

theorem logged_step (h : List.Forall₂ (Logged env) (distributions evs) s.rewardsrec.rows)
    (he : Effect env s a s' out) (hreset : a.call.isInit = false) :
    List.Forall₂ (Logged env) (distributions (evs ++ [⟨s, a, out, s'⟩])) s'.rewardsrec.rows := by
  cases he with
  | reset _ => cases hreset
  | configured hcall hs =>
    rw [distributions_other (Call.not_isDistribute hcall), hs.rewards]
    exact h
  | recorded _ =>
    rw [distributions_other rfl]
    exact h
  | cleared _ =>
    rw [distributions_other rfl]
    exact h
  | distributed hd =>
    rw [distributions_distribute rfl, hd.rewards_rows]
    exact List.rel_append h (.cons hd.logged .nil)

theorem Effect.silent (he : Effect env s a s' out) (h : a.call.isDistribute = false) :
    out = [] := by
  cases he with
  | distributed _ => cases h
  | _ => rfl

theorem sent_eq (h : ∀ e ∈ evs, Effect env e.pre e.request e.post e.output) :
    evs.flatMap History.Event.output = (distributions evs).flatMap History.Event.output := by
  induction evs with
  | nil => rfl
  | cons e evs ih =>
    have hrest := ih fun e' he' => h e' (List.mem_cons_of_mem _ he')
    unfold distributions at hrest ⊢
    cases hd : e.request.call.isDistribute with
    | true => simp [hd, hrest]
    | false => simp [hd, hrest, (h e List.mem_cons_self).silent hd]

theorem mem_currentEra (h : e ∈ currentEra env actions) : e ∈ events env actions :=
  (List.rtakeWhile_suffix _ _).subset h

/-- In every run the transfers sent since the last `initcontract` are those of
its `distribute` calls, and the rows of the log account for these calls, one
row for each, in order. -/
theorem payout_log_faithful (env : Env) (actions : List Action) :
    (currentEra env actions).flatMap History.Event.output =
      (distributions (currentEra env actions)).flatMap History.Event.output ∧
    List.Forall₂ (Logged env) (distributions (currentEra env actions))
      (run env actions).rewardsrec.rows := by
  refine ⟨sent_eq fun e he => event_effect (mem_currentEra he), ?_⟩
  refine History.era_induction
    (P := fun evs s => List.Forall₂ (Logged env) (distributions evs) s.rewardsrec.rows)
    .nil ?_ ?_ actions
  · intro s a s' out hx hreset
    obtain ⟨_, -, -, rfl⟩ := (exec_effect hx).of_init hreset
    exact .nil
  · intro evs s a s' out h hx hreset
    exact logged_step h (exec_effect hx) hreset

end GameRewards
