import GameRewards.Tables

/-!
# `game_management.hpp`
-/

namespace GameRewards

def validateStats : List Name → Result Unit
  | [] => pure ()
  | name :: rest => do
    rest.forM fun other => check (name ≠ other) ("Duplicate stat name found: " ++ name.toString)
    validateStats rest

structure SetGameArgs where
  gameId : UInt8
  displayName : Bytes
  metadata : Bytes
  statsNames : List Name
  deriving DecidableEq, Repr

def setgame (env : Env) (ctx : Context) (s : State) (args : SetGameArgs) : Result State := do
  requireAuth env ctx
  validateStats args.statsNames
  match s.gameconfig.find args.gameId.toUInt64 with
  | none => do
    let configs ← need (s.gameconfig.emplace
      { gameId := args.gameId
        displayName := args.displayName
        metadata := args.metadata
        statsNames := args.statsNames
        active := true }) keyTaken
    pure { s with gameconfig := configs }
  | some row =>
    let configs := s.gameconfig.modify row.primaryKey
      (fun row => { row with
        displayName := args.displayName
        metadata := args.metadata
        statsNames := args.statsNames })
      fun _ => rfl
    pure { s with gameconfig := configs }

def removegame (env : Env) (ctx : Context) (s : State) (gameId : UInt8) : Result State := do
  requireAuth env ctx
  let config ← need (s.gameconfig.find gameId.toUInt64) "Game ID not found"
  pure { s with gameconfig := s.gameconfig.erase config.primaryKey }

end GameRewards
