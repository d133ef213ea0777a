import GameRewards.MultiIndex.Maps
import GameRewards.Ties

/-!
# Players are names only

Give every player another name, in the records submitted and at the service
that knows their accounts. The contract then does the same under the new
names: no action looks at a player other than to compare it with another one
and to ask for its account.
-/

namespace GameRewards

open MultiIndex (Table Handle)
open MultiIndex.Handle (firstFree)
open Traces (Alike InStep)

-- ---------------------------------------------------------------------------
-- Other names
-- ---------------------------------------------------------------------------

section
variable (π : Equiv.Perm Name)

def GameRecordData.rename (record : GameRecordData) : GameRecordData :=
  { record with player := π record.player }

def GameRecords.rename (r : GameRecords) : GameRecords := { r with player := π r.player }

def RewardsRecorded.rename (d : RewardsRecorded) : RewardsRecorded :=
  { d with rewardedPlayers := d.rewardedPlayers.map π }

theorem GameRecords.rename_key (r : GameRecords) : (r.rename π).primaryKey = r.primaryKey := rfl

theorem RewardsRecorded.rename_key (d : RewardsRecorded) :
    (d.rename π).primaryKey = d.primaryKey := rfl

def renameRecords : Table GameRecords.primaryKey → Table GameRecords.primaryKey :=
  Table.mapRows (GameRecords.rename π) (GameRecords.rename_key π)

def renameLog : Table RewardsRecorded.primaryKey → Table RewardsRecorded.primaryKey :=
  Table.mapRows (RewardsRecorded.rename π) (RewardsRecorded.rename_key π)

@[simp] theorem renameRecords_rows (t : Table GameRecords.primaryKey) :
    (renameRecords π t).rows = t.rows.map (GameRecords.rename π) := rfl

@[simp] theorem renameLog_rows (t : Table RewardsRecorded.primaryKey) :
    (renameLog π t).rows = t.rows.map (RewardsRecorded.rename π) := rfl

def State.rename (s : State) : State :=
  { s with
    gamerecords := renameRecords π s.gamerecords
    rewardsrec := renameLog π s.rewardsrec }

@[simp] theorem State.rename_gamerecords (s : State) :
    (s.rename π).gamerecords = renameRecords π s.gamerecords := rfl

@[simp] theorem State.rename_rewardsrec (s : State) :
    (s.rename π).rewardsrec = renameLog π s.rewardsrec := rfl

def Context.rename (ctx : Context) : Context :=
  { ctx with boidAccount := fun player => ctx.boidAccount (π.symm player) }

def Call.rename : Call → Call
  | .recordgame records => .recordgame (records.map (GameRecordData.rename π))
  | call => call

def Action.rename (a : Action) : Action := ⟨a.ctx.rename π, a.call.rename π⟩

def renameEntry (entry : Name × UInt64) : Name × UInt64 := (π entry.1, entry.2)

def renameSorter (sorter : Ranking.Sorter (Name × UInt64) higherScore) :
    Ranking.Sorter (Name × UInt64) higherScore where
  sort l := (sorter.sort (l.map (renameEntry π.symm))).map (renameEntry π)
  perm l := by
    have hperm := (sorter.perm (l.map (renameEntry π.symm))).map (renameEntry π)
    simpa [renameEntry, Function.comp_def] using hperm
  ordered l := by
    rw [List.pairwise_map]
    exact sorter.ordered _

def Env.rename (env : Env) : Env := ⟨env.self, renameSorter π env.sorter⟩

/-- The same payments, to the same winners under their new names. -/
def Readdressed (env : Env) (out out' : List Transfer) : Prop :=
  ∃ tokenContract distConfig winners rewards,
    out = List.zipWith (transferTo env tokenContract distConfig) winners rewards ∧
      out' = List.zipWith (transferTo env tokenContract distConfig) (winners.map π) rewards

end

variable {π : Equiv.Perm Name}

-- ---------------------------------------------------------------------------
-- Distributing
-- ---------------------------------------------------------------------------

theorem renameLog_closed (π : Equiv.Perm Name) (log : Table RewardsRecorded.primaryKey)
    (key : BitVec 128) :
    log.findBy RewardsRecorded.byGameCycle key = none ↔
      (renameLog π log).findBy RewardsRecorded.byGameCycle key = none := by
  apply Table.findBy_none_congr
  rw [renameLog_rows, List.map_map]
  rfl

theorem admission_rename (π : Equiv.Perm Name) (env : Env) (ctx : Context) (s : State)
    (args : DistributeArgs) :
    admission env ctx s args = admission (env.rename π) (ctx.rename π) (s.rename π) args :=
  admission_congr rfl rfl (renameLog_closed π s.rewardsrec) ctx args _

theorem bucket_rename (s : State) (g : UInt8) (c : UInt32) :
    (s.rename π).bucket g c = (s.bucket g c).map (GameRecords.rename π) := by
  rw [State.bucket, State.rename_gamerecords, renameRecords_rows, List.filter_map]
  rfl

theorem collectScores_rename (stat : Name) (rows : List GameRecords) :
    collectScores stat (rows.map (GameRecords.rename π)) =
      List.map (renameEntry π) <$> collectScores stat rows := by
  induction rows with
  | nil => rfl
  | cons row rows ih =>
    rw [List.map_cons]
    unfold collectScores
    simp only [GameRecords.rename]
    cases row.statsNames.findIdx? (· = stat) with
    | none => exact ih
    | some index =>
      simp only
      cases row.statsValues[index]? with
      | none => rfl
      | some value =>
        simp only [ih, map_bind, bind_map_left]
        rfl

theorem sort_rename (sorter : Ranking.Sorter (Name × UInt64) higherScore)
    (l : List (Name × UInt64)) :
    (renameSorter π sorter).sort (l.map (renameEntry π)) =
      (sorter.sort l).map (renameEntry π) := by
  have hback : (l.map (renameEntry π)).map (renameEntry π.symm) = l := by
    simp [renameEntry, Function.comp_def]
  exact congrArg (fun l => (sorter.sort l).map (renameEntry π)) hback

-- The transfers follow from the winners and rewards; `rename_readdressed` adds
-- them at the end.
def Payout.unsent (p : Payout) : Payout := { p with transfers := [] }

def Payout.rename (π : Equiv.Perm Name) (p : Payout) : Payout :=
  { p with
    rewardedPlayers := p.rewardedPlayers.map π
    transfers := [] }

theorem payTiers_rename (π : Equiv.Perm Name) (env : Env) (args : DistributeArgs)
    (distConfig : RewardDistConfig) (players : List (Name × UInt64))
    (hp : p.rename π = p'.unsent) :
    Payout.rename π <$> payTiers env args distConfig players p =
      Payout.unsent <$>
        payTiers (env.rename π) args distConfig (players.map (renameEntry π)) p' := by
  induction players generalizing p p' with
  | nil =>
    simp only [payTiers, List.map_nil, map_pure, hp]
  | cons entry rest ih =>
    obtain ⟨tier, winners, rewards, remaining, total, transfers⟩ := p
    obtain ⟨tier', winners', rewards', remaining', total', transfers'⟩ := p'
    simp only [Payout.rename, Payout.unsent, Payout.mk.injEq] at hp
    obtain ⟨rfl, rfl, rfl, rfl, rfl, -⟩ := hp
    rw [List.map_cons]
    unfold payTiers
    cases args.rewardPercentages[tier]? with
    | none => simp [Payout.rename, Payout.unsent]
    | some percentage =>
      simp only [map_bind, renameEntry]
      refine bind_congr fun reward => bind_congr fun _ => bind_congr fun remaining => ?_
      refine bind_congr fun total => ih ?_
      simp [Payout.rename, Payout.unsent]

theorem decision_rename (env : Env) (ctx : Context) (s : State) (args : DistributeArgs) :
    Prod.map (RewardsRecorded.rename π) (fun _ => ()) <$> decision env ctx s args =
      Prod.map id (fun _ => ()) <$>
        decision (env.rename π) (ctx.rename π) (s.rename π) args := by
  unfold decision
  rw [← admission_rename π, bucket_rename, collectScores_rename]
  simp only [map_bind, bind_map_left]
  refine bind_congr fun found => bind_congr fun scores => bind_congr fun zero => ?_
  let start : Payout := ⟨0, [], [], args.totalReward, zero, []⟩
  have hstart : start.rename π = start.unsent := rfl
  have hpaid := payTiers_rename π env args found.2
    ((env.sorter.sort scores).take found.1.maxRewardTiers.toNat) hstart
  rw [List.map_take] at hpaid
  have hrow := congrArg (Functor.map fun p : Payout =>
    (RewardsRecorded.mk 0 args.gameId args.cycleNumber args.statName p.distributedTotal
      p.rewardedPlayers p.playerRewards ctx.now, ())) hpaid
  simp only [Functor.map_map, Env.rename, sort_rename] at hrow ⊢
  exact hrow

theorem rename_settled {env : Env} {ctx : Context}
    (hx : distribute env ctx s args = .ok (t, out))
    (hx' : distribute (env.rename π) (ctx.rename π) (s.rename π) args = .ok (t', out'))
    (hd : decision env ctx s args = .ok (row, out₁))
    (hd' : decision (env.rename π) (ctx.rename π) (s.rename π) args = .ok (row', out₁'))
    (hrow : row.rename π = row') : t' = t.rename π := by
  obtain ⟨-, -, hrows, hwritten⟩ := distribute_decided hd hx
  obtain ⟨-, -, hrows', hwritten'⟩ := distribute_decided hd' hx'
  have hrecords : t'.gamerecords = renameRecords π t.gamerecords := by
    apply Table.ext_rows
    have hrecords' := hwritten'.records
    rw [hd'] at hrecords'
    rw [hrecords', renameRecords_rows, hwritten.records, hd]
    simp only [State.rename_gamerecords, renameRecords_rows, List.map_map]
    refine List.map_congr_left fun r _ => ?_
    simp only [Except.isOk, Except.toBool, Function.comp_apply, ↓reduceIte, settleRow_eq]
    rfl
  have hlog : t'.rewardsrec = renameLog π t.rewardsrec := by
    apply Table.ext_rows
    have hid : firstFree (renameLog π s.rewardsrec) = firstFree s.rewardsrec :=
      Handle.firstFree_mapRows _ _
    rw [hrows', renameLog_rows, hrows, List.map_append, ← hrow, State.rename_rewardsrec, hid]
    rfl
  rw [hwritten'.frame, hrecords, hlog, hwritten.frame]
  rfl

theorem rename_readdressed {env : Env} {ctx : Context}
    (hx : distribute env ctx s args = .ok (t, out))
    (hx' : distribute (env.rename π) (ctx.rename π) (s.rename π) args = .ok (t.rename π, out')) :
    Readdressed π env out out' := by
  obtain ⟨_, _, distConfig, row, hd⟩ := distribute_ok hx
  obtain ⟨_, _, distConfig', row', hd'⟩ := distribute_ok hx'
  have hdist : distConfig = distConfig' := by
    apply s.rewarddist.key_inj hd.dist_mem hd'.dist_mem
    rw [RewardDistConfig.primaryKey, RewardDistConfig.primaryKey, hd.dist_game, hd'.dist_game]
  have hrow : row' = row.rename π := by
    have hrows := hd'.rewards_rows
    rw [State.rename_rewardsrec, renameLog_rows, hd.rewards_rows, List.map_append] at hrows
    exact (List.singleton_injective (List.append_cancel_left hrows)).symm
  refine ⟨args.tokenContract, distConfig, row.rewardedPlayers, row.playerRewards, ?_, ?_⟩
  · exact hd.settlement.transfers_eq
  · rw [hd'.settlement.transfers_eq, hrow, hdist]
    rfl

def Renamed (π : Equiv.Perm Name) (s s' : State) : Prop := s' = s.rename π

theorem distribute_rename (env : Env) (ctx : Context) (s : State) (args : DistributeArgs) :
    Alike (Renamed π) (Readdressed π env) (distribute env ctx s args)
      (distribute (env.rename π) (ctx.rename π) (s.rename π) args) := by
  have hfree : firstFree s.rewardsrec = firstFree (renameLog π s.rewardsrec) :=
    (Handle.firstFree_mapRows _ _).symm
  apply distribute_pair hfree (.of_map (decision_rename env ctx s args))
  intro row out t row' out' t' hd hx hd' hx' hrow _
  obtain rfl := rename_settled hx hx' hd hd' hrow
  exact ⟨rfl, rename_readdressed hx hx'⟩

-- ---------------------------------------------------------------------------
-- Recording and clearing
-- ---------------------------------------------------------------------------

def Batch.rename (π : Equiv.Perm Name) (b : Batch) : Batch :=
  { b with gamerecords := b.gamerecords.mapRows (GameRecords.rename π) (GameRecords.rename_key π) }

theorem validRecord_rename (π : Equiv.Perm Name) (ctx : Context)
    (configs : Table GameConfig.primaryKey) (record : GameRecordData) :
    validRecord (ctx.rename π) configs (record.rename π) = validRecord ctx configs record := by
  simp [validRecord, Context.rename, GameRecordData.rename]

theorem isDuplicateEntry_rename (π : Equiv.Perm Name) (t : Table GameRecords.primaryKey)
    (record : GameRecordData) (c : UInt32) :
    isDuplicateEntry (renameRecords π t) (record.rename π) c = isDuplicateEntry t record c := by
  have hscan : ∀ u : Table GameRecords.primaryKey, u.scan GameRecords.byGameCycle
      (cycleKey record.gameId c) (GameRecords.inCycle record.gameId c) =
        u.rows.filter (GameRecords.inCycle record.gameId c) :=
    fun u => u.scan_eq_filter fun r _ => r.inCycle_eq_key
  have hsame : ∀ r : GameRecords, (r.rename π).reports (record.rename π) = r.reports record := by
    intro r
    have hplayer : (π r.player == π record.player) = (r.player == record.player) := by
      rw [Bool.eq_iff_iff, beq_iff_eq, beq_iff_eq, π.apply_eq_iff_eq]
    simp only [GameRecords.reports, GameRecords.rename, GameRecordData.rename, hplayer]
  unfold isDuplicateEntry
  rw [hscan]
  refine (congrArg (List.any · _) (hscan _)).trans ?_
  rw [renameRecords_rows, List.filter_map, List.any_map]
  simp only [Function.comp_def, hsame]
  rfl

theorem store_rename (π : Equiv.Perm Name) (handle : Handle GameRecords.primaryKey)
    (row : GameRecords) (n : UInt32) :
    (do
      let stored ← need ((handle.mapRows (GameRecords.rename π) (GameRecords.rename_key π)).emplace
        (row.rename π)) keyTaken
      pure (Batch.mk stored n)) =
      Batch.rename π <$> (do
        let stored ← need (handle.emplace row) keyTaken
        pure (Batch.mk stored n)) := by
  rw [Handle.emplace_mapRows]
  cases handle.emplace row with
  | none => rfl
  | some stored => rfl

theorem recordOne_rename (π : Equiv.Perm Name) (ctx : Context) (s : State) (b : Batch)
    (record : GameRecordData) :
    recordOne (ctx.rename π) (s.rename π) (b.rename π) (record.rename π) =
      Batch.rename π <$> recordOne ctx s b record := by
  have hvalid : validRecord (ctx.rename π) (s.rename π).gameconfig (record.rename π) =
      validRecord ctx s.gameconfig record := validRecord_rename π ctx _ record
  have hduplicate : ∀ c, isDuplicateEntry (b.rename π).gamerecords.table (record.rename π) c =
      isDuplicateEntry b.gamerecords.table record c := isDuplicateEntry_rename π _ record
  have hkey : (b.rename π).gamerecords.availablePrimaryKey =
      b.gamerecords.availablePrimaryKey.map
        (Prod.map id (Handle.mapRows (GameRecords.rename π) (GameRecords.rename_key π))) :=
    Handle.availablePrimaryKey_mapRows _ _
  unfold recordOne
  simp only [hvalid, hduplicate, hkey]
  cases validRecord ctx s.gameconfig record with
  | false => rfl
  | true =>
    simp only [↓reduceIte, map_bind]
    refine bind_congr fun c => ?_
    cases isDuplicateEntry b.gamerecords.table record c with
    | true => rfl
    | false =>
      cases b.gamerecords.availablePrimaryKey with
      | none => rfl
      | some found =>
        obtain ⟨id, handle⟩ := found
        exact store_rename π handle ⟨id, record.player, record.gameId, record.statsNames,
          record.statsValues, c, false, record.completionTime, ctx.now⟩ _

theorem recordgame_rename (π : Equiv.Perm Name) (env : Env) (ctx : Context) (s : State)
    (records : List GameRecordData) :
    recordgame (env.rename π) (ctx.rename π) (s.rename π) (records.map (GameRecordData.rename π)) =
      State.rename π <$> recordgame env ctx s records := by
  have hloop : ∀ b, (records.map (GameRecordData.rename π)).foldlM
      (recordOne (ctx.rename π) (s.rename π)) (b.rename π) =
        Batch.rename π <$> records.foldlM (recordOne ctx s) b := by
    intro b
    induction records generalizing b with
    | nil => rfl
    | cons record records ih =>
      simp only [List.map_cons, List.foldlM_cons, recordOne_rename, bind_map_left, map_bind, ih]
  have hnil : records.map (GameRecordData.rename π) ≠ [] ↔ records ≠ [] := by simp
  have hstart : (Batch.mk (.ofTable (s.rename π).gamerecords) 0) =
      (Batch.mk (.ofTable s.gamerecords) 0).rename π := rfl
  unfold recordgame
  simp only [check_congr hnil, List.length_map, hstart, hloop, map_bind, bind_map_left]
  rfl

theorem clearrecord_rename (π : Equiv.Perm Name) (env : Env) (ctx : Context) (s : State)
    (ids : List UInt64) :
    clearrecord (env.rename π) (ctx.rename π) (s.rename π) ids =
      State.rename π <$> clearrecord env ctx s ids := by
  have hone : ∀ acc key, clearOne (Prod.map (renameRecords π) id acc) key =
      Prod.map (renameRecords π) id (clearOne acc key) := by
    intro acc key
    obtain ⟨t, n⟩ := acc
    simp only [clearOne, Prod.map, renameRecords, Table.find_mapRows]
    cases t.find key with
    | none => rfl
    | some row => exact congrArg (·, n + 1) (Table.erase_mapRows _ t row.primaryKey)
  have hloop : ∀ acc, ids.foldl clearOne (Prod.map (renameRecords π) id acc) =
      Prod.map (renameRecords π) id (ids.foldl clearOne acc) := by
    intro acc
    induction ids generalizing acc with
    | nil => rfl
    | cons key ids ih => rw [List.foldl_cons, List.foldl_cons, hone, ih]
  have hcleared : ids.foldl clearOne ((s.rename π).gamerecords, 0) =
      Prod.map (renameRecords π) id (ids.foldl clearOne (s.gamerecords, 0)) :=
    hloop (s.gamerecords, 0)
  unfold clearrecord
  simp only [hcleared, map_bind]
  rfl

-- ---------------------------------------------------------------------------
-- Any action
-- ---------------------------------------------------------------------------

theorem silent_renamed {x y : Result State} (h : y = State.rename π <$> x) (env : Env) :
    Alike (Renamed π) (Readdressed π env) ((·, []) <$> x) ((·, []) <$> y) := by
  rw [h]
  cases x with
  | error e => exact .refused
  | ok s => exact .served rfl ⟨⟨0⟩, ⟨0, ⟨0⟩, [], true⟩, [], [], rfl, rfl⟩

theorem initcontract_rename (π : Equiv.Perm Name) (env : Env) (ctx : Context) (s : State)
    (args : InitArgs) :
    initcontract (env.rename π) (ctx.rename π) (s.rename π) args =
      State.rename π <$> initcontract env ctx s args := by
  unfold initcontract
  simp only [Table.clear_eq_empty, map_bind]
  rfl

theorem configured_rename (π : Equiv.Perm Name) (env : Env) (ctx : Context) (s : State)
    (hcall : call.configures = true) :
    Alike (Renamed π) (Readdressed π env) (exec env s ⟨ctx, call⟩)
      (exec (env.rename π) (s.rename π) ⟨ctx.rename π, call⟩) := by
  have hsame : exec (env.rename π) (s.rename π) ⟨ctx.rename π, call⟩ = _ :=
    configure_ledger env (env.rename π) rfl hcall (renameRecords π s.gamerecords)
      (renameLog π s.rewardsrec) fun player => ctx.boidAccount (π.symm player)
  rw [hsame]
  cases hx : exec env s ⟨ctx, call⟩ with
  | error e => exact .refused
  | ok r =>
    obtain ⟨t, out⟩ := r
    cases exec_effect hx with
    | configured _ hledger =>
      refine .served ?_ ⟨⟨0⟩, ⟨0, ⟨0⟩, [], true⟩, [], [], rfl, rfl⟩
      rw [Renamed, State.rename, hledger.records, hledger.rewards]
    | _ => cases hcall

theorem exec_rename (π : Equiv.Perm Name) (env : Env) (s : State) (a : Action) :
    Alike (Renamed π) (Readdressed π env) (exec env s a)
      (exec (env.rename π) (s.rename π) (a.rename π)) := by
  obtain ⟨ctx, call⟩ := a
  cases call with
  | initcontract args => exact silent_renamed (initcontract_rename π env ctx s args) env
  | recordgame records => exact silent_renamed (recordgame_rename π env ctx s records) env
  | clearrecord ids => exact silent_renamed (clearrecord_rename π env ctx s ids) env
  | distribute args => exact distribute_rename env ctx s args
  | _ => exact configured_rename π env ctx s rfl

-- ---------------------------------------------------------------------------
-- Whole runs
-- ---------------------------------------------------------------------------

def Nameless (π : Equiv.Perm Name) (sorter : Ranking.Sorter (Name × UInt64) higherScore) : Prop :=
  ∀ l, sorter.sort (l.map (renameEntry π)) = (sorter.sort l).map (renameEntry π)

theorem Env.rename_nameless {env : Env} (h : Nameless π env.sorter) : env.rename π = env := by
  obtain ⟨self, sort, perm, ordered⟩ := env
  have hsame : (fun l => (sort (l.map (renameEntry π.symm))).map (renameEntry π)) = sort := by
    funext l
    have hback : (l.map (renameEntry π.symm)).map (renameEntry π) = l := by
      simp [renameEntry, Function.comp_def]
    exact (h _).symm.trans (congrArg sort hback)
  simp only [Env.rename, renameSorter, hsame]

theorem runs_renamed (π : Equiv.Perm Name) (env : Env) (actions : List Action) :
    run (env.rename π) (actions.map (Action.rename π)) = (run env actions).rename π ∧
    List.Forall₂ (InStep (fun a a' => a' = a.rename π) (Renamed π) (Readdressed π env))
      (events env actions) (events (env.rename π) (actions.map (Action.rename π))) := by
  have hstep : ∀ s s' a a', Renamed π s s' → a' = a.rename π →
      Alike (Renamed π) (Readdressed π env) (exec env s a) (exec (env.rename π) s' a') := by
    rintro s _ a _ rfl rfl
    exact exec_rename π env s a
  have hrequests : List.Forall₂ (fun a a' => a' = a.rename π) actions
      (actions.map (Action.rename π)) :=
    List.forall₂_map_right_iff.mpr (List.forall₂_same.mpr fun _ _ => rfl)
  exact Traces.runs_in_step hstep rfl hrequests

/-- Every run with the players under other names serves and refuses the same
actions and ends in the same state with the other names, after the same
payments to the same winners; all this in the same deployment, if its sorting
routine looks at the scores only. -/
theorem players_are_names (π : Equiv.Perm Name) (env : Env) (actions : List Action) :
    run (env.rename π) (actions.map (Action.rename π)) = (run env actions).rename π ∧
    List.Forall₂ (InStep (fun a a' => a' = a.rename π) (Renamed π) (Readdressed π env))
      (events env actions) (events (env.rename π) (actions.map (Action.rename π))) ∧
    (Nameless π env.sorter →
      run env (actions.map (Action.rename π)) = (run env actions).rename π ∧
      List.Forall₂ (InStep (fun a a' => a' = a.rename π) (Renamed π) (Readdressed π env))
        (events env actions) (events env (actions.map (Action.rename π)))) := by
  obtain ⟨hrun, hevents⟩ := runs_renamed π env actions
  refine ⟨hrun, hevents, fun hsorter => ?_⟩
  rw [Env.rename_nameless hsorter] at hrun hevents
  exact ⟨hrun, hevents⟩

end GameRewards
