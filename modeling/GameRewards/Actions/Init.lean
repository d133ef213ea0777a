import GameRewards.Tables

/-!
# `init.hpp`
-/

namespace GameRewards

structure InitArgs where
  startTime : TimePointSec
  cycleLengthSec : UInt32
  maxCycleLengthSec : UInt32
  maxRewardTiers : UInt8
  minRewardPercentage : UInt8
  deriving DecidableEq, Repr

/-- `MAX_FUTURE_SECONDS`: 7 days. -/
def maxFutureSeconds : UInt32 := 7 * 24 * 60 * 60

def clearSingleton (table : Option α) : Option α :=
  if table.isSome then none else table

def initcontract (env : Env) (ctx : Context) (s : State) (args : InitArgs) : Result State := do
  requireAuth env ctx
  check (0 < args.cycleLengthSec) "Cycle length must be greater than 0"
  check (0 < args.maxCycleLengthSec) "Maximum cycle length must be greater than 0"
  check (args.cycleLengthSec ≤ args.maxCycleLengthSec)
    "Maximum cycle length cannot be less than cycle length"
  check (0 < args.startTime) "Invalid start time"
  check (0 < args.maxRewardTiers) "Maximum reward tiers must be greater than 0"
  check (0 < args.minRewardPercentage) "Minimum reward percentage must be greater than 0"
  check (ctx.now - 60 ≤ args.startTime) "Start time cannot be in the past"
  check (args.startTime ≤ ctx.now + maxFutureSeconds)
    "Start time cannot be more than 7 days in the future"
  let cleared : State :=
    { globalconfig := clearSingleton s.globalconfig
      tokenconfig := s.tokenconfig.clear
      gamerecords := s.gamerecords.clear
      rewardsrec := s.rewardsrec.clear
      rewarddist := s.rewarddist.clear
      gameconfig := s.gameconfig.clear }
  pure { cleared with
    globalconfig := some
      { initialized := true
        cyclesInitiationTime := args.startTime
        cycleLengthSec := args.cycleLengthSec
        maxCycleLengthSec := args.maxCycleLengthSec
        maxRewardTiers := args.maxRewardTiers
        minRewardPercentage := args.minRewardPercentage } }

def InitArgs.toGlobal (args : InitArgs) : GlobalConfig where
  initialized := true
  cyclesInitiationTime := args.startTime
  cycleLengthSec := args.cycleLengthSec
  maxCycleLengthSec := args.maxCycleLengthSec
  maxRewardTiers := args.maxRewardTiers
  minRewardPercentage := args.minRewardPercentage

structure InitArgs.Accepted (args : InitArgs) (now : TimePointSec) : Prop where
  length_pos : 0 < args.cycleLengthSec
  max_pos : 0 < args.maxCycleLengthSec
  length_le : args.cycleLengthSec ≤ args.maxCycleLengthSec
  start_pos : 0 < args.startTime
  tiers_pos : 0 < args.maxRewardTiers
  percentage_pos : 0 < args.minRewardPercentage
  not_past : now - 60 ≤ args.startTime
  not_far : args.startTime ≤ now + maxFutureSeconds

theorem initcontract_ok (h : initcontract env ctx s args = .ok s') :
    args.Accepted ctx.now ∧ s' = { State.deployed with globalconfig := some args.toGlobal } := by
  simp only [initcontract, bind_ok, requireAuth_ok, check_ok, pure_ok,
    MultiIndex.Table.clear_eq_empty] at h
  obtain ⟨_, -, _, h1, _, h2, _, h3, _, h4, _, h5, _, h6, _, h7, _, h8, rfl⟩ := h
  exact ⟨⟨h1, h2, h3, h4, h5, h6, h7, h8⟩, rfl⟩

theorem InitArgs.Accepted.valid (h : InitArgs.Accepted args now) : args.toGlobal.Valid :=
  ⟨rfl, h.start_pos, h.length_pos⟩

end GameRewards
