import GameRewards.Actions.GameManagement

/-!
# `reward_management.hpp`
-/

namespace GameRewards

open MultiIndex (Table Handle)

-- ---------------------------------------------------------------------------
-- The reward of one tier
-- ---------------------------------------------------------------------------

/-- `(amount / precision) * precision`; the division traps on zero. -/
def adjustToPrecision (amount : Int64) (precision : UInt8) : Result Int64 :=
  if precision = 0 then .error .divideByZero
  else .ok (amount / Int64.ofNat precision.toNat * Int64.ofNat precision.toNat)

def tierReward (totalReward : Asset) (percentage : UInt8) : Result Asset := do
  let product ← totalReward.mul percentage.toNat
  let reward ← product.div 100
  let amount ← adjustToPrecision reward.amount totalReward.symbol.precision
  pure { reward with amount }

def Bytes.find (needle : Bytes) : Bytes → Option Nat
  | [] => if needle.isPrefixOf [] then some 0 else none
  | b :: rest =>
    if needle.isPrefixOf (b :: rest) then some 0 else (Bytes.find needle rest).map (· + 1)

/-- `std::string::replace` of `len` bytes from `pos`. -/
def Bytes.replace (s : Bytes) (pos len : Nat) (by' : Bytes) : Bytes :=
  s.take pos ++ by' ++ s.drop (pos + len)

/-- The ten bytes of the placeholder: two braces, `player`, two braces. -/
def placeholder : Bytes := [123, 123, 112, 108, 97, 121, 101, 114, 125, 125]

def memoFor (memoTemplate : Bytes) (player : Name) : Bytes :=
  match Bytes.find placeholder memoTemplate with
  | some playerPos => Bytes.replace memoTemplate playerPos 10 player.toBytes
  | none => memoTemplate

-- ---------------------------------------------------------------------------
-- `distribute`
-- ---------------------------------------------------------------------------

structure DistributeArgs where
  gameId : UInt8
  cycleNumber : UInt32
  statName : Name
  totalReward : Asset
  tokenContract : Name
  rewardPercentages : List UInt8
  deriving DecidableEq, Repr

structure Payout where
  currentTier : Nat
  rewardedPlayers : List Name
  playerRewards : List Asset
  remainingReward : Asset
  distributedTotal : Asset
  transfers : List Transfer
  deriving DecidableEq, Repr

def transferTo (env : Env) (tokenContract : Name) (distConfig : RewardDistConfig) (player : Name)
    (reward : Asset) : Transfer where
  code := tokenContract
  sender := env.self
  recipient := if distConfig.useDirectTransfer then player else distConfig.destinationContract
  quantity := reward
  memo := memoFor distConfig.memoTemplate player

/-- The loop over the sorted players. It stops at the last player or behind
the last percentage. -/
def payTiers (env : Env) (args : DistributeArgs) (distConfig : RewardDistConfig) :
    List (Name × UInt64) → Payout → Result Payout
  | [], p => pure p
  | (player, _) :: rest, p =>
    match args.rewardPercentages[p.currentTier]? with
    | none => pure p
    | some percentage => do
      let reward ← tierReward args.totalReward percentage
      check (0 < reward.amount) "Reward amount too small to distribute"
      let remainingReward ← p.remainingReward.sub reward
      let distributedTotal ← p.distributedTotal.add reward
      payTiers env args distConfig rest
        { currentTier := p.currentTier + 1
          rewardedPlayers := p.rewardedPlayers ++ [player]
          playerRewards := p.playerRewards ++ [reward]
          remainingReward := remainingReward
          distributedTotal := distributedTotal
          transfers := p.transfers ++ [transferTo env args.tokenContract distConfig player reward] }

def distributeRewards (env : Env) (ctx : Context) (rewardsrec : Table RewardsRecorded.primaryKey)
    (args : DistributeArgs) (distConfig : RewardDistConfig) (sortedPlayers : List (Name × UInt64)) :
    Result (Table RewardsRecorded.primaryKey × List Transfer) := do
  let distributedTotal ← Asset.make 0 args.totalReward.symbol
  let p ← payTiers env args distConfig sortedPlayers
    { currentTier := 0
      rewardedPlayers := []
      playerRewards := []
      remainingReward := args.totalReward
      distributedTotal := distributedTotal
      transfers := [] }
  let (id, rewardsRecords) ← need (Handle.ofTable rewardsrec).availablePrimaryKey
    "next primary key in table is at autoincrement limit"
  let rewardsRecords ← need (rewardsRecords.emplace
    { id := id
      gameId := args.gameId
      cycleNumber := args.cycleNumber
      statName := args.statName
      totalReward := p.distributedTotal
      rewardedPlayers := p.rewardedPlayers
      playerRewards := p.playerRewards
      distributionTime := ctx.now }) keyTaken
  pure (rewardsRecords.table, p.transfers)

/-- The body of the collecting loop: the score stored at the first position of
the stat, from the rows that list it. -/
def collectScores (statName : Name) : List GameRecords → Result (List (Name × UInt64))
  | [] => pure []
  | row :: rest =>
    match row.statsNames.findIdx? (· = statName) with
    | none => collectScores statName rest
    | some index =>
      match row.statsValues[index]? with
      | none => .error .outOfRange
      | some value => do
        let scores ← collectScores statName rest
        pure ((row.player, value) :: scores)

/-- `std::accumulate` from an `int`, stored in 16 bits. -/
def totalPercentage (rewardPercentages : List UInt8) : UInt16 :=
  UInt16.ofNat (rewardPercentages.foldl (fun sum percentage => sum + percentage.toNat) 0)

def markDistributed (row : GameRecords) : GameRecords := { row with rewardsDistributed := true }

@[simp] theorem markDistributed_id (row : GameRecords) : (markDistributed row).id = row.id := rfl

def distribute (env : Env) (ctx : Context) (s : State) (args : DistributeArgs) :
    Result (State × List Transfer) := do
  requireAuth env ctx
  let globalState ← need s.globalconfig "Contract not initialized"
  check (0 < args.totalReward.amount) "Total reward must be positive"
  check (args.rewardPercentages ≠ []) "Reward percentages cannot be empty"
  check (args.rewardPercentages.length ≤ globalState.maxRewardTiers.toNat) "Too many reward tiers"
  check (totalPercentage args.rewardPercentages = 100) "Reward percentages must sum to 100"
  let game ← need (s.gameconfig.find args.gameId.toUInt64) "Game ID not found"
  check game.active "Game is not active"
  let key := cycleKey args.gameId args.cycleNumber
  check (s.rewardsrec.findBy RewardsRecorded.byGameCycle key = none)
    "Rewards have already been distributed for this cycle"
  let tokenCfg ← need (s.tokenconfig.find args.totalReward.symbol.raw) "Token not configured"
  check tokenCfg.enabled "Token is disabled"
  check (tokenCfg.tokenContract = args.tokenContract) "Invalid token contract"
  let distConfig ← need (s.rewarddist.find args.gameId.toUInt64)
    "Reward distribution config not found for game ID"
  let currentCycle ← globalState.getCurrentCycle ctx.now
  check (0 < args.cycleNumber) "Invalid cycle number: must be greater than zero"
  check (args.cycleNumber < currentCycle) "Cannot distribute rewards for an ongoing or future cycle"
  let inCycle := GameRecords.inCycle args.gameId args.cycleNumber
  let playerScores ← collectScores args.statName
    (s.gamerecords.scan GameRecords.byGameCycle key inCycle)
  let sortedScores := env.sorter.sort playerScores
  -- `resize` when there are more scores than tiers
  let topScores := sortedScores.take globalState.maxRewardTiers.toNat
  let (rewardsrec, transfers) ← distributeRewards env ctx s.rewardsrec args distConfig topScores
  let gamerecords :=
    (s.gamerecords.modifyScan GameRecords.byGameCycle key inCycle markDistributed fun _ => rfl).2
  pure ({ s with gamerecords := gamerecords, rewardsrec := rewardsrec }, transfers)

-- ---------------------------------------------------------------------------
-- Distribution and token configuration
-- ---------------------------------------------------------------------------

structure SetDistConfArgs where
  gameId : UInt8
  destinationContract : Name
  memoTemplate : Bytes
  useDirectTransfer : Bool
  deriving DecidableEq, Repr

def setdistconf (env : Env) (ctx : Context) (s : State) (args : SetDistConfArgs) :
    Result State := do
  requireAuth env ctx
  let _ ← need (s.gameconfig.find args.gameId.toUInt64) "Game ID not found"
  check (ctx.isAccount args.destinationContract) "Invalid destination contract"
  check (args.memoTemplate ≠ []) "Memo template cannot be empty"
  match s.rewarddist.find args.gameId.toUInt64 with
  | none => do
    let distconfigs ← need (s.rewarddist.emplace
      { gameId := args.gameId
        destinationContract := args.destinationContract
        memoTemplate := args.memoTemplate
        useDirectTransfer := args.useDirectTransfer }) keyTaken
    pure { s with rewarddist := distconfigs }
  | some row =>
    let distconfigs := s.rewarddist.modify row.primaryKey
      (fun row => { row with
        destinationContract := args.destinationContract
        memoTemplate := args.memoTemplate
        useDirectTransfer := args.useDirectTransfer })
      fun _ => rfl
    pure { s with rewarddist := distconfigs }

def rmdistconf (env : Env) (ctx : Context) (s : State) (gameId : UInt8) : Result State := do
  requireAuth env ctx
  let _ ← need (s.gameconfig.find gameId.toUInt64) "Game ID not found"
  let row ← need (s.rewarddist.find gameId.toUInt64)
    "Reward distribution config not found for the specified game ID"
  pure { s with rewarddist := s.rewarddist.erase row.primaryKey }

structure SetTokenArgs where
  tokenContract : Name
  tokenSymbol : Symbol
  enabled : Bool
  deriving DecidableEq, Repr

def settoken (env : Env) (ctx : Context) (s : State) (args : SetTokenArgs) : Result State := do
  requireAuth env ctx
  match s.tokenconfig.find args.tokenSymbol.raw with
  | none => do
    let tokens ← need (s.tokenconfig.emplace
      { tokenContract := args.tokenContract
        tokenSymbol := args.tokenSymbol
        enabled := args.enabled }) keyTaken
    pure { s with tokenconfig := tokens }
  | some row =>
    let tokens := s.tokenconfig.modify row.primaryKey
      (fun row => { row with
        tokenContract := args.tokenContract
        enabled := args.enabled })
      fun _ => rfl
    pure { s with tokenconfig := tokens }

def removetoken (env : Env) (ctx : Context) (s : State) (tokenSymbol : Symbol) : Result State := do
  requireAuth env ctx
  let row ← need (s.tokenconfig.find tokenSymbol.raw) "Token not found"
  pure { s with tokenconfig := s.tokenconfig.erase row.primaryKey }

end GameRewards
