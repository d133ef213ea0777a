import GameRewards.Invariant
import GameRewards.MultiIndex.Maps
import GameRewards.Traces

/-!
# The configuration

The tables of tokens, of payout configurations and of games are maps, and the
globals a variable. Each lookup gives what the last successful action that
writes its key wrote.
-/

namespace GameRewards

open MultiIndex (Table)
open Traces (Serves)

-- ---------------------------------------------------------------------------
-- What an action writes
-- ---------------------------------------------------------------------------

/-- The new entry under this symbol, if the call writes it; a removed entry is
`none`. -/
def Call.tokenWrite (symbol : Symbol) : Call → Option (Option TokenConfig)
  | .initcontract _ => some none
  | .settoken args =>
    if args.tokenSymbol = symbol then
      some (some ⟨args.tokenContract, args.tokenSymbol, args.enabled⟩)
    else none
  | .removetoken tokenSymbol => if tokenSymbol = symbol then some none else none
  | _ => none

def Call.distWrite (gameId : UInt8) : Call → Option (Option RewardDistConfig)
  | .initcontract _ => some none
  | .setdistconf args =>
    if args.gameId = gameId then
      some (some
        ⟨args.gameId, args.destinationContract, args.memoTemplate, args.useDirectTransfer⟩)
    else none
  | .rmdistconf g => if g = gameId then some none else none
  | _ => none

def Call.gameWrite (gameId : UInt8) : Call → Option (Option GameConfig)
  | .initcontract _ => some none
  | .setgame args =>
    if args.gameId = gameId then
      some (some ⟨args.gameId, args.displayName, args.metadata, true, args.statsNames⟩)
    else none
  | .removegame g => if g = gameId then some none else none
  | _ => none

def Call.globalWrite : Call → Option (Option GlobalConfig)
  | .initcontract args => some (some args.toGlobal)
  | _ => none

structure Writes (s : State) (call : Call) (s' : State) : Prop where
  tokens : ∀ symbol : Symbol, s'.tokenconfig.find symbol.raw =
    (call.tokenWrite symbol).getD (s.tokenconfig.find symbol.raw)
  dists : ∀ gameId : UInt8, s'.rewarddist.find gameId.toUInt64 =
    (call.distWrite gameId).getD (s.rewarddist.find gameId.toUInt64)
  games : ∀ gameId : UInt8, s'.gameconfig.find gameId.toUInt64 =
    (call.gameWrite gameId).getD (s.gameconfig.find gameId.toUInt64)
  globals : s'.globalconfig = call.globalWrite.getD s.globalconfig

-- ---------------------------------------------------------------------------
-- One action
-- ---------------------------------------------------------------------------

theorem Symbol.raw_inj {a b : Symbol} : a.raw = b.raw ↔ a = b := by
  cases a
  cases b
  simp

theorem ite_eq_getD {p q : Prop} [Decidable p] [Decidable q] (h : p ↔ q) (x y : α) :
    (if p then x else y) = (if q then some x else none).getD y := by
  by_cases hq : q
  · rw [if_pos (h.mpr hq), if_pos hq, Option.getD_some]
  · rw [if_neg (mt h.mp hq), if_neg hq, Option.getD_none]

theorem token_lookup {t u : Table TokenConfig.primaryKey} {symbol : Symbol} {v : Option TokenConfig}
    (h : ∀ k, u.find k = if k = symbol.raw then v else t.find k) (symbol' : Symbol) :
    u.find symbol'.raw = (if symbol = symbol' then some v else none).getD (t.find symbol'.raw) := by
  rw [h]
  exact ite_eq_getD (Symbol.raw_inj.trans eq_comm) _ _

theorem game_lookup {pk : β → UInt64} {t u : Table pk} {gameId : UInt8} {v : Option β}
    (h : ∀ k, u.find k = if k = gameId.toUInt64 then v else t.find k) (gameId' : UInt8) :
    u.find gameId'.toUInt64 =
      (if gameId = gameId' then some v else none).getD (t.find gameId'.toUInt64) := by
  rw [h]
  exact ite_eq_getD (UInt8.toUInt64_inj.trans eq_comm) _ _

theorem settoken_find (h : settoken env ctx s args = .ok s') :
    ∃ tokens, s' = { s with tokenconfig := tokens } ∧
      ∀ k, tokens.find k = if k = args.tokenSymbol.raw then
        some ⟨args.tokenContract, args.tokenSymbol, args.enabled⟩ else s.tokenconfig.find k := by
  simp only [settoken, bind_ok] at h
  obtain ⟨_, -, h⟩ := h
  split at h
  · simp only [bind_ok, need_ok, pure_ok] at h
    obtain ⟨tokens, hstored, rfl⟩ := h
    exact ⟨tokens, rfl, Table.find_emplace hstored⟩
  · rename_i row hfind
    cases pure_ok.mp h
    have hkey : row.primaryKey = args.tokenSymbol.raw := Table.find_key hfind
    have hsymbol : row.tokenSymbol = args.tokenSymbol := Symbol.raw_inj.mp hkey
    refine ⟨_, rfl, fun k => (Table.find_overwrite hfind _ k).trans ?_⟩
    rw [hsymbol]

theorem removetoken_find (h : removetoken env ctx s symbol = .ok s') :
    ∃ tokens, s' = { s with tokenconfig := tokens } ∧
      ∀ k, tokens.find k = if k = symbol.raw then none else s.tokenconfig.find k := by
  simp only [removetoken, bind_ok, need_ok, pure_ok] at h
  obtain ⟨_, -, row, hfind, rfl⟩ := h
  have hkey : row.primaryKey = symbol.raw := Table.find_key hfind
  exact ⟨_, rfl, fun k => by rw [Table.find_erase, hkey]⟩

theorem setdistconf_find (h : setdistconf env ctx s args = .ok s') :
    ∃ dists, s' = { s with rewarddist := dists } ∧
      ∀ k, dists.find k = if k = args.gameId.toUInt64 then
        some ⟨args.gameId, args.destinationContract, args.memoTemplate, args.useDirectTransfer⟩
        else s.rewarddist.find k := by
  simp only [setdistconf, bind_ok, need_ok, check_ok] at h
  obtain ⟨_, -, _, -, _, -, _, -, h⟩ := h
  split at h
  · simp only [bind_ok, need_ok, pure_ok] at h
    obtain ⟨dists, hstored, rfl⟩ := h
    exact ⟨dists, rfl, Table.find_emplace hstored⟩
  · rename_i row hfind
    cases pure_ok.mp h
    have hkey : row.primaryKey = args.gameId.toUInt64 := Table.find_key hfind
    have hgame : row.gameId = args.gameId := UInt8.toUInt64_inj.mp hkey
    refine ⟨_, rfl, fun k => (Table.find_overwrite hfind _ k).trans ?_⟩
    rw [hgame]

theorem rmdistconf_find (h : rmdistconf env ctx s gameId = .ok s') :
    ∃ dists, s' = { s with rewarddist := dists } ∧
      ∀ k, dists.find k = if k = gameId.toUInt64 then none else s.rewarddist.find k := by
  simp only [rmdistconf, bind_ok, need_ok, pure_ok] at h
  obtain ⟨_, -, _, -, row, hfind, rfl⟩ := h
  have hkey : row.primaryKey = gameId.toUInt64 := Table.find_key hfind
  exact ⟨_, rfl, fun k => by rw [Table.find_erase, hkey]⟩

/-- No call deactivates a game. -/
def State.GamesActive (s : State) : Prop :=
  ∀ (gameId : UInt8) game, s.gameconfig.find gameId.toUInt64 = some game → game.active = true

theorem setgame_find (hactive : s.GamesActive) (h : setgame env ctx s args = .ok s') :
    ∃ games, s' = { s with gameconfig := games } ∧
      ∀ k, games.find k = if k = args.gameId.toUInt64 then
        some ⟨args.gameId, args.displayName, args.metadata, true, args.statsNames⟩
        else s.gameconfig.find k := by
  simp only [setgame, bind_ok] at h
  obtain ⟨_, -, _, -, h⟩ := h
  split at h
  · simp only [bind_ok, need_ok, pure_ok] at h
    obtain ⟨games, hstored, rfl⟩ := h
    exact ⟨games, rfl, Table.find_emplace hstored⟩
  · rename_i row hfind
    cases pure_ok.mp h
    have hkey : row.primaryKey = args.gameId.toUInt64 := Table.find_key hfind
    have hgame : row.gameId = args.gameId := UInt8.toUInt64_inj.mp hkey
    refine ⟨_, rfl, fun k => (Table.find_overwrite hfind _ k).trans ?_⟩
    rw [hgame, hactive _ row hfind]

theorem removegame_find (h : removegame env ctx s gameId = .ok s') :
    ∃ games, s' = { s with gameconfig := games } ∧
      ∀ k, games.find k = if k = gameId.toUInt64 then none else s.gameconfig.find k := by
  simp only [removegame, bind_ok, need_ok, pure_ok] at h
  obtain ⟨_, -, row, hfind, rfl⟩ := h
  have hkey : row.primaryKey = gameId.toUInt64 := Table.find_key hfind
  exact ⟨_, rfl, fun k => by rw [Table.find_erase, hkey]⟩

theorem Writes.initcontract (args : InitArgs) (s : State) :
    Writes s (.initcontract args) { State.deployed with globalconfig := some args.toGlobal } :=
  ⟨fun _ => rfl, fun _ => rfl, fun _ => rfl, rfl⟩

theorem exec_writes (hactive : s.GamesActive) (h : exec env s a = .ok (s', out)) :
    Writes s a.call s' := by
  obtain ⟨ctx, call⟩ := a
  cases call with
  | initcontract args =>
    obtain ⟨-, rfl⟩ := initcontract_ok (silent_ok.mp h).1
    exact .initcontract args s
  | setgame args =>
    obtain ⟨games, rfl, hfind⟩ := setgame_find hactive (silent_ok.mp h).1
    exact ⟨fun _ => rfl, fun _ => rfl, game_lookup hfind, rfl⟩
  | removegame gameId =>
    obtain ⟨games, rfl, hfind⟩ := removegame_find (silent_ok.mp h).1
    exact ⟨fun _ => rfl, fun _ => rfl, game_lookup hfind, rfl⟩
  | setdistconf args =>
    obtain ⟨dists, rfl, hfind⟩ := setdistconf_find (silent_ok.mp h).1
    exact ⟨fun _ => rfl, game_lookup hfind, fun _ => rfl, rfl⟩
  | rmdistconf gameId =>
    obtain ⟨dists, rfl, hfind⟩ := rmdistconf_find (silent_ok.mp h).1
    exact ⟨fun _ => rfl, game_lookup hfind, fun _ => rfl, rfl⟩
  | settoken args =>
    obtain ⟨tokens, rfl, hfind⟩ := settoken_find (silent_ok.mp h).1
    exact ⟨token_lookup hfind, fun _ => rfl, fun _ => rfl, rfl⟩
  | removetoken symbol =>
    obtain ⟨tokens, rfl, hfind⟩ := removetoken_find (silent_ok.mp h).1
    exact ⟨token_lookup hfind, fun _ => rfl, fun _ => rfl, rfl⟩
  | recordgame records =>
    obtain ⟨_, -, rfl⟩ := recordgame_ok (silent_ok.mp h).1
    exact ⟨fun _ => rfl, fun _ => rfl, fun _ => rfl, rfl⟩
  | clearrecord ids =>
    obtain ⟨_, -, rfl⟩ := clearrecord_ok (silent_ok.mp h).1
    exact ⟨fun _ => rfl, fun _ => rfl, fun _ => rfl, rfl⟩
  | distribute args =>
    obtain ⟨_, _, _, _, hd⟩ := distribute_ok h
    rw [hd.frame]
    exact ⟨fun _ => rfl, fun _ => rfl, fun _ => rfl, rfl⟩

-- ---------------------------------------------------------------------------
-- Every run
-- ---------------------------------------------------------------------------

theorem Call.gameWrite_active {call : Call} (h : call.gameWrite gameId = some (some game)) :
    game.active = true := by
  cases call with
  | setgame args =>
    rw [Call.gameWrite] at h
    split at h
    · cases h
      rfl
    · cases h
  | removegame g =>
    rw [Call.gameWrite] at h
    split at h <;> cases h
  | _ => cases h

theorem State.GamesActive.step (hactive : s.GamesActive) (h : exec env s a = .ok (s', out)) :
    s'.GamesActive := by
  intro gameId game hfind
  rw [(exec_writes hactive h).games] at hfind
  cases hwrite : a.call.gameWrite gameId with
  | none =>
    rw [hwrite, Option.getD_none] at hfind
    exact hactive gameId game hfind
  | some written =>
    rw [hwrite, Option.getD_some] at hfind
    exact Call.gameWrite_active (hwrite.trans (congrArg some hfind))

theorem State.GamesActive.deployed : State.GamesActive .deployed := fun _ _ h => nomatch h

theorem run_games_active (env : Env) (actions : List Action) : (run env actions).GamesActive :=
  History.run_invariant .deployed (fun _ _ _ _ h hx => h.step hx) actions

def lastWrite (write : Call → Option (Option α)) (evs : List Event) : Option α :=
  (evs.filterMap fun e => write e.request.call).getLast?.getD none

theorem run_last_write (env : Env) (actions : List Action) (view : State → Option α)
    (write : Call → Option (Option α)) (hstart : view .deployed = none)
    (hstep : ∀ s call s', Writes s call s' → view s' = (write call).getD (view s)) :
    view (run env actions) = lastWrite write (events env actions) := by
  have hlast := (Traces.trace_run (exec env) State.deployed actions).last_write
    (I := State.GamesActive) view (fun e : Event => write e.request.call) .deployed ?_ ?_
  · rw [hstart] at hlast
    exact hlast
  · rintro s _ s' hactive ⟨hx⟩
    exact hactive.step hx
  · rintro s _ s' hactive ⟨hx⟩
    exact hstep _ _ _ (exec_writes hactive hx)

/-- After every run each lookup of a token, of a payout configuration and of a
game, and the globals, give what the last successful call that writes the entry
wrote; a setting is there as it was set, or not at all. -/
theorem settings_as_last_written (env : Env) (actions : List Action) :
    (∀ symbol : Symbol, (run env actions).tokenconfig.find symbol.raw =
      lastWrite (Call.tokenWrite symbol) (events env actions)) ∧
    (∀ gameId : UInt8, (run env actions).rewarddist.find gameId.toUInt64 =
      lastWrite (Call.distWrite gameId) (events env actions)) ∧
    (∀ gameId : UInt8, (run env actions).gameconfig.find gameId.toUInt64 =
      lastWrite (Call.gameWrite gameId) (events env actions)) ∧
    (run env actions).globalconfig = lastWrite Call.globalWrite (events env actions) := by
  refine ⟨fun symbol => ?_, fun gameId => ?_, fun gameId => ?_, ?_⟩
  · exact run_last_write env actions (fun s => s.tokenconfig.find symbol.raw) _ rfl
      fun _ _ _ h => h.tokens symbol
  · exact run_last_write env actions (fun s => s.rewarddist.find gameId.toUInt64) _ rfl
      fun _ _ _ h => h.dists gameId
  · exact run_last_write env actions (fun s => s.gameconfig.find gameId.toUInt64) _ rfl
      fun _ _ _ h => h.games gameId
  · exact run_last_write env actions State.globalconfig _ rfl fun _ _ _ h => h.globals

end GameRewards
