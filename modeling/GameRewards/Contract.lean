import GameRewards.Actions.Init
import GameRewards.ConfigLaws
import GameRewards.RecordLaws
import GameRewards.RewardLaws
import GameRewards.History

/-!
# The contract as a machine

The ten actions as requests, and what a served request does to the tables.
`exec_effect` is the one place where the actions are taken apart; every later
proof goes by the cases of `Effect`.
-/

namespace GameRewards

open MultiIndex (Table)

inductive Call
  | initcontract (args : InitArgs)
  | setgame (args : SetGameArgs)
  | removegame (gameId : UInt8)
  | recordgame (records : List GameRecordData)
  | clearrecord (recordIds : List UInt64)
  | setdistconf (args : SetDistConfArgs)
  | rmdistconf (gameId : UInt8)
  | distribute (args : DistributeArgs)
  | settoken (args : SetTokenArgs)
  | removetoken (tokenSymbol : Symbol)

structure Action where
  ctx : Context
  call : Call

/-- Run one action. Inline transfers are the output; only `distribute` sends
any. -/
def exec (env : Env) (s : State) (a : Action) : Result (State × List Transfer) :=
  match a.call with
  | .initcontract args => (·, []) <$> initcontract env a.ctx s args
  | .setgame args => (·, []) <$> setgame env a.ctx s args
  | .removegame gameId => (·, []) <$> removegame env a.ctx s gameId
  | .recordgame records => (·, []) <$> recordgame env a.ctx s records
  | .clearrecord recordIds => (·, []) <$> clearrecord env a.ctx s recordIds
  | .setdistconf args => (·, []) <$> setdistconf env a.ctx s args
  | .rmdistconf gameId => (·, []) <$> rmdistconf env a.ctx s gameId
  | .distribute args => distribute env a.ctx s args
  | .settoken args => (·, []) <$> settoken env a.ctx s args
  | .removetoken tokenSymbol => (·, []) <$> removetoken env a.ctx s tokenSymbol

def run (env : Env) (actions : List Action) : State := History.run (exec env) State.deployed actions

abbrev Event := History.Event State Action (List Transfer)

def events (env : Env) (actions : List Action) : List Event :=
  History.events (exec env) State.deployed actions

def Timed (actions : List Action) : Prop := actions.Pairwise fun a b => a.ctx.now ≤ b.ctx.now

instance : Decidable (Timed actions) := inferInstanceAs (Decidable (List.Pairwise _ _))

theorem Timed.events (h : Timed actions) :
    (events env actions).Pairwise fun e e' => e.request.ctx.now ≤ e'.request.ctx.now :=
  History.events_pairwise h

def Call.isInit : Call → Bool
  | .initcontract _ => true
  | _ => false

def Call.isDistribute : Call → Bool
  | .distribute _ => true
  | _ => false

def Call.distributes (gameId : UInt8) (cycleNumber : UInt32) : Call → Bool
  | .distribute args => args.gameId == gameId && args.cycleNumber == cycleNumber
  | _ => false

/-- The actions that only configure games, payouts and tokens. -/
def Call.configures : Call → Bool
  | .setgame _ | .removegame _ | .setdistconf _ | .rmdistconf _ | .settoken _ | .removetoken _ => true
  | _ => false

theorem Call.not_isDistribute {call : Call} (h : call.configures = true) :
    call.isDistribute = false := by
  cases call <;> first | rfl | cases h

theorem Call.not_isInit {call : Call} (h : call.configures = true) : call.isInit = false := by
  cases call <;> first | rfl | cases h

theorem Call.distributes_iff {args : DistributeArgs} :
    (Call.distribute args).distributes g c = true ↔ args.gameId = g ∧ args.cycleNumber = c := by
  simp [Call.distributes]

theorem Call.distributes_args {call : Call} (h : call.distributes g c = true) :
    ∃ args, call = .distribute args ∧ args.gameId = g ∧ args.cycleNumber = c := by
  cases call with
  | distribute args => exact ⟨args, rfl, Call.distributes_iff.mp h⟩
  | _ => cases h

theorem Call.not_distributes {call : Call} (h : call.isDistribute = false) :
    call.distributes g c = false := by
  cases call with
  | distribute _ => cases h
  | _ => rfl

-- ---------------------------------------------------------------------------
-- What an action does
-- ---------------------------------------------------------------------------

structure SameLedger (s s' : State) : Prop where
  globals : s'.globalconfig = s.globalconfig
  records : s'.gamerecords = s.gamerecords
  rewards : s'.rewardsrec = s.rewardsrec

/-- What a successful action does to the globals, the records and the log of
distributions. -/
inductive Effect (env : Env) (s : State) : Action → State → List Transfer → Prop
  | reset : args.Accepted ctx.now →
      Effect env s ⟨ctx, .initcontract args⟩
        { State.deployed with globalconfig := some args.toGlobal } []
  | configured : call.configures = true → SameLedger s s' → Effect env s ⟨ctx, call⟩ s' []
  | recorded : Recording ctx s s.gamerecords t →
      Effect env s ⟨ctx, .recordgame records⟩ { s with gamerecords := t } []
  | cleared : (∀ r, r ∈ t.rows ↔ r ∈ s.gamerecords.rows ∧ r.id ∉ ids) →
      Effect env s ⟨ctx, .clearrecord ids⟩ { s with gamerecords := t } []
  | distributed : Distribution env ctx s args s' out global token distConfig row →
      Effect env s ⟨ctx, .distribute args⟩ s' out

theorem silent_ok {x : Result State} :
    (·, ([] : List Transfer)) <$> x = .ok (s', out) ↔ x = .ok s' ∧ out = [] := by
  simp only [map_ok, Prod.mk.injEq]
  constructor
  · rintro ⟨_, h, rfl, rfl⟩
    exact ⟨h, rfl⟩
  · rintro ⟨h, rfl⟩
    exact ⟨s', h, rfl, rfl⟩

theorem exec_effect (h : exec env s a = .ok (s', out)) : Effect env s a s' out := by
  obtain ⟨ctx, call⟩ := a
  cases call with
  | initcontract args =>
    obtain ⟨hinit, rfl⟩ := silent_ok.mp h
    obtain ⟨haccepted, rfl⟩ := initcontract_ok hinit
    exact .reset haccepted
  | recordgame records =>
    obtain ⟨hrecord, rfl⟩ := silent_ok.mp h
    obtain ⟨t, hrec, rfl⟩ := recordgame_ok hrecord
    exact .recorded hrec
  | clearrecord ids =>
    obtain ⟨hclear, rfl⟩ := silent_ok.mp h
    obtain ⟨t, hrows, rfl⟩ := clearrecord_ok hclear
    exact .cleared hrows
  | distribute args =>
    obtain ⟨_, _, _, _, hd⟩ := distribute_ok h
    exact .distributed hd
  | setgame args =>
    obtain ⟨hconfig, rfl⟩ := silent_ok.mp h
    obtain ⟨_, rfl, -⟩ := setgame_ok hconfig
    exact .configured rfl ⟨rfl, rfl, rfl⟩
  | removegame gameId =>
    obtain ⟨hconfig, rfl⟩ := silent_ok.mp h
    obtain ⟨_, rfl, -⟩ := removegame_ok hconfig
    exact .configured rfl ⟨rfl, rfl, rfl⟩
  | setdistconf args =>
    obtain ⟨hconfig, rfl⟩ := silent_ok.mp h
    obtain ⟨_, _, rfl, -⟩ := setdistconf_ok hconfig
    exact .configured rfl ⟨rfl, rfl, rfl⟩
  | rmdistconf gameId =>
    obtain ⟨hconfig, rfl⟩ := silent_ok.mp h
    obtain ⟨_, rfl, -⟩ := rmdistconf_ok hconfig
    exact .configured rfl ⟨rfl, rfl, rfl⟩
  | settoken args =>
    obtain ⟨hconfig, rfl⟩ := silent_ok.mp h
    obtain ⟨_, rfl⟩ := settoken_ok hconfig
    exact .configured rfl ⟨rfl, rfl, rfl⟩
  | removetoken tokenSymbol =>
    obtain ⟨hconfig, rfl⟩ := silent_ok.mp h
    obtain ⟨_, rfl⟩ := removetoken_ok hconfig
    exact .configured rfl ⟨rfl, rfl, rfl⟩

theorem Effect.of_init (he : Effect env s a s' out) (h : a.call.isInit = true) :
    ∃ args, a.call = .initcontract args ∧ args.Accepted a.ctx.now ∧
      s' = { State.deployed with globalconfig := some args.toGlobal } := by
  cases he with
  | reset haccepted => exact ⟨_, rfl, haccepted, rfl⟩
  | configured hcall _ => exact absurd h (by simp [Call.not_isInit hcall])
  | _ => cases h

theorem Effect.of_distribute (he : Effect env s a s' out) (h : a.call = .distribute args) :
    ∃ global token distConfig row,
      Distribution env a.ctx s args s' out global token distConfig row := by
  cases he with
  | distributed hd =>
    cases h
    exact ⟨_, _, _, _, hd⟩
  | configured hcall _ =>
    obtain rfl := h
    cases hcall
  | _ => cases h

theorem event_effect (h : e ∈ History.events (exec env) s actions) :
    Effect env e.pre e.request e.post e.output := exec_effect (History.events_exec h)

-- ---------------------------------------------------------------------------
-- A small deployment
-- ---------------------------------------------------------------------------

namespace Sample

def sorter : Ranking.Sorter (Name × UInt64) higherScore where
  sort l := l.insertionSort fun a b => b.2 ≤ a.2
  perm l := List.perm_insertionSort _ l
  ordered l := by
    have : Std.Total (fun a b : Name × UInt64 => b.2 ≤ a.2) := ⟨fun a b => le_total b.2 a.2⟩
    have : IsTrans (Name × UInt64) (fun a b => b.2 ≤ a.2) := ⟨fun _ _ _ h k => k.trans h⟩
    have hsorted := List.pairwise_insertionSort (fun a b : Name × UInt64 => b.2 ≤ a.2) l
    refine hsorted.imp fun {a b} h => ?_
    simpa [higherScore] using h

def env : Env := ⟨⟨1⟩, sorter⟩

def context (now : TimePointSec) : Context := ⟨now, fun _ => true, fun _ => true, fun _ => true⟩

def block (now : TimePointSec) (call : Call) : Action := ⟨context now, call⟩

def boid : Symbol := ⟨0x44494F4204⟩

def kills : Name := ⟨7⟩

/-- Cycles of `len` seconds from `start`, and one game with direct payouts. -/
def setup (now start len : UInt32) : List Action :=
  [block now (.initcontract ⟨start, len, 1000, 10, 1⟩),
    block now (.setgame ⟨1, [], [], [kills]⟩),
    block now (.setdistconf ⟨1, ⟨5⟩, placeholder, true⟩),
    block now (.settoken ⟨⟨6⟩, boid, true⟩)]

def result (player : UInt64) (score : UInt64) (time : UInt32) : GameRecordData :=
  ⟨1, ⟨player⟩, [kills], [score], time⟩

def payout (cycle : UInt32) (percentages : List UInt8) : DistributeArgs :=
  ⟨1, cycle, kills, ⟨1000000, boid⟩, ⟨6⟩, percentages⟩

end Sample

end GameRewards
