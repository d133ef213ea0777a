import GameRewards.Actions.GameManagement

/-!
# `game_record.hpp`

The console output of `recordgame` is left out; nothing reads it.
-/

namespace GameRewards

open MultiIndex (Table Handle)

structure GameRecordData where
  gameId : UInt8
  player : Name
  statsNames : List Name
  statsValues : List UInt64
  completionTime : TimePointSec
  deriving DecidableEq, Repr

def determineCycle (ctx : Context) (globals : Option GlobalConfig) (completionTime : TimePointSec) :
    Result UInt32 := do
  let global ← need globals "Contract not initialized"
  check (0 < global.cycleLengthSec) "Cycle length must be greater than zero"
  check (completionTime ≤ ctx.now) "Game completion time cannot be in the future"
  check (global.cyclesInitiationTime ≤ completionTime)
    "Game completion time cannot be before contract initialization"
  let elapsedSec := completionTime - global.cyclesInitiationTime
  let n ← div32 elapsedSec global.cycleLengthSec
  pure (n + 1)

def GameRecords.reports (row : GameRecords) (record : GameRecordData) : Bool :=
  row.player == record.player && row.statsNames == record.statsNames &&
    row.statsValues == record.statsValues && row.gameCompletionTime == record.completionTime

def isDuplicateEntry (gamerecords : Table GameRecords.primaryKey) (record : GameRecordData)
    (cycleNumber : UInt32) : Bool :=
  (gamerecords.scan GameRecords.byGameCycle (cycleKey record.gameId cycleNumber)
    (GameRecords.inCycle record.gameId cycleNumber)).any (·.reports record)

/-- The checks that skip a record: the player, the game, the lengths of the
stats, every stat name. -/
def validRecord (ctx : Context) (gameconfigs : Table GameConfig.primaryKey)
    (record : GameRecordData) : Bool :=
  ctx.boidAccount record.player &&
  match gameconfigs.find record.gameId.toUInt64 with
  | none => false
  | some game =>
    record.statsNames.length == record.statsValues.length &&
      record.statsNames.all fun statName => game.statsNames.contains statName

structure Batch where
  gamerecords : Handle GameRecords.primaryKey
  processedCount : UInt32

def recordOne (ctx : Context) (s : State) (b : Batch) (record : GameRecordData) : Result Batch := do
  if validRecord ctx s.gameconfig record then
    let cycleNumber ← determineCycle ctx s.globalconfig record.completionTime
    if isDuplicateEntry b.gamerecords.table record cycleNumber then
      pure b
    else
      let (id, gamerecords) ← need b.gamerecords.availablePrimaryKey
        "next primary key in table is at autoincrement limit"
      let gamerecords ← need (gamerecords.emplace
        { id := id
          player := record.player
          gameId := record.gameId
          statsNames := record.statsNames
          statsValues := record.statsValues
          cycleNumber := cycleNumber
          gameCompletionTime := record.completionTime
          lastUpdated := ctx.now
          rewardsDistributed := false }) keyTaken
      pure { gamerecords := gamerecords, processedCount := b.processedCount + 1 }
  else
    pure b

def recordgame (env : Env) (ctx : Context) (s : State) (records : List GameRecordData) :
    Result State := do
  requireAuth env ctx
  check (records ≠ []) "No records provided"
  check (records.length ≤ 100) "Too many records in a single transaction! Max: 100"
  let b ← records.foldlM (recordOne ctx s)
    { gamerecords := .ofTable s.gamerecords, processedCount := 0 }
  check (0 < b.processedCount) "No valid records were processed"
  pure { s with gamerecords := b.gamerecords.table }

/-- One pass of the `clearrecord` loop, counting the rows erased. -/
def clearOne (acc : Table GameRecords.primaryKey × UInt64) (id : UInt64) :
    Table GameRecords.primaryKey × UInt64 :=
  match acc.1.find id with
  | none => acc
  | some row => (acc.1.erase row.primaryKey, acc.2 + 1)

def clearrecord (env : Env) (ctx : Context) (s : State) (recordIds : List UInt64) :
    Result State := do
  requireAuth env ctx
  check (recordIds ≠ []) "No record IDs provided"
  check (recordIds.length ≤ 1000) "Too many records to delete at once. Maximum: 1000"
  let acc := recordIds.foldl clearOne (s.gamerecords, 0)
  check (0 < acc.2) "No valid records found to delete"
  pure { s with gamerecords := acc.1 }

end GameRewards
