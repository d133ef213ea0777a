import GameRewards.Independence
import GameRewards.Traces
import GameRewards.Winners

/-!
# What the order of ties decides

`std::sort` leaves the order of equal scores open. Two deployments that differ
in the sorting routine only, taken through the same actions, differ in nothing
but who is named among equals: in the log, and in the recipients and memos of
the transfers.
-/

namespace GameRewards

open MultiIndex (Table Handle)
open MultiIndex.Handle (firstFree noAvailablePrimaryKey)
open Traces (Alike InStep)

-- ---------------------------------------------------------------------------
-- What a sorting routine cannot change
-- ---------------------------------------------------------------------------

def RewardsRecorded.withoutWinners (d : RewardsRecorded) : RewardsRecorded :=
  { d with rewardedPlayers := [] }

def Transfer.withoutRecipient (t : Transfer) : Transfer := { t with recipient := ⟨0⟩, memo := [] }

def Payout.withoutWinners (p : Payout) : Payout :=
  { p with
    rewardedPlayers := []
    transfers := p.transfers.map Transfer.withoutRecipient }

structure SameButWinners (s s' : State) : Prop where
  frame : s' = { s with rewardsrec := s'.rewardsrec }
  log : s.rewardsrec.rows.map RewardsRecorded.withoutWinners =
    s'.rewardsrec.rows.map RewardsRecorded.withoutWinners

def SameAmounts (out out' : List Transfer) : Prop :=
  out.map Transfer.withoutRecipient = out'.map Transfer.withoutRecipient

theorem SameButWinners.refl (s : State) : SameButWinners s s := ⟨rfl, rfl⟩

theorem SameButWinners.map_eq (h : SameButWinners s s') {f : RewardsRecorded → β}
    (hf : ∀ d, f d.withoutWinners = f d) : s.rewardsrec.rows.map f = s'.rewardsrec.rows.map f := by
  have hlog := congrArg (List.map f) h.log
  simpa only [List.map_map, Function.comp_def, hf] using hlog

theorem SameButWinners.firstFree_eq (h : SameButWinners s s') :
    firstFree s.rewardsrec = firstFree s'.rewardsrec :=
  Handle.firstFree_congr (h.map_eq fun _ => rfl)

theorem SameButWinners.closed_iff (h : SameButWinners s s') (key : BitVec 128) :
    s.rewardsrec.findBy RewardsRecorded.byGameCycle key = none ↔
      s'.rewardsrec.findBy RewardsRecorded.byGameCycle key = none :=
  Table.findBy_none_congr (h.map_eq fun _ => rfl) key

-- ---------------------------------------------------------------------------
-- Paying
-- ---------------------------------------------------------------------------

section
variable {env env' : Env} {ctx : Context} {args : DistributeArgs}

theorem decision_served (hd : decision env ctx s args = .ok (row, out))
    (hfree : firstFree s.rewardsrec < noAvailablePrimaryKey) :
    ∃ t, distribute env ctx s args = .ok (t, out) := by
  obtain ⟨_, h₂, hid, hstored⟩ := Handle.store_exists (Handle.ofTable_coherent s.rewardsrec)
    (fun id => { row with id := id }) (fun _ => rfl) hfree
  rw [distribute_eq_decision]
  simp only [bind_ok, need_ok, pure_ok]
  exact ⟨_, _, hd, _, hid, h₂, hstored, rfl⟩

theorem distribute_pair {P : RewardsRecorded → RewardsRecorded → Prop}
    {O Q : List Transfer → List Transfer → Prop} {R : State → State → Prop}
    (hfree : firstFree s.rewardsrec = firstFree s'.rewardsrec)
    (h : Alike P O (decision env ctx s args) (decision env' ctx' s' args))
    (hserved : ∀ row out t row' out' t', decision env ctx s args = .ok (row, out) →
      distribute env ctx s args = .ok (t, out) → decision env' ctx' s' args = .ok (row', out') →
      distribute env' ctx' s' args = .ok (t', out') → P row row' → O out out' →
      R t t' ∧ Q out out') :
    Alike R Q (distribute env ctx s args) (distribute env' ctx' s' args) := by
  generalize hd : decision env ctx s args = x at h
  generalize hd' : decision env' ctx' s' args = y at h
  cases h with
  | refused =>
    rw [distribute_eq_decision, distribute_eq_decision, hd, hd']
    exact .refused
  | served hrow hout =>
    by_cases hlt : firstFree s.rewardsrec < noAvailablePrimaryKey
    · obtain ⟨t, hx⟩ := decision_served hd hlt
      obtain ⟨t', hx'⟩ := decision_served hd' (hfree ▸ hlt)
      obtain ⟨hpost, hout⟩ := hserved _ _ _ _ _ _ hd hx hd' hx' hrow hout
      rw [hx, hx']
      exact .served hpost hout
    · have hnone : (Handle.ofTable s.rewardsrec).availablePrimaryKey = none := by
        rw [Handle.availablePrimaryKey_eq (Handle.ofTable_coherent _)]
        exact if_neg hlt
      have hnone' : (Handle.ofTable s'.rewardsrec).availablePrimaryKey = none := by
        rw [Handle.availablePrimaryKey_eq (Handle.ofTable_coherent _)]
        exact if_neg (hfree ▸ hlt)
      rw [distribute_eq_decision, distribute_eq_decision, hd, hd', hnone, hnone']
      exact .refused

theorem payTiers_but_winners (hself : env.self = env'.self)
    (hlen : players.length = players'.length)
    (hp : p.withoutWinners = p'.withoutWinners) :
    Payout.withoutWinners <$> payTiers env args distConfig players p =
      Payout.withoutWinners <$> payTiers env' args distConfig players' p' := by
  induction players generalizing players' p p' with
  | nil =>
    cases players' with
    | nil =>
      unfold payTiers
      rw [map_pure, map_pure, hp]
    | cons _ _ => cases hlen
  | cons entry rest ih =>
    cases players' with
    | nil => cases hlen
    | cons entry' rest' =>
      obtain ⟨tier, winners, rewards, remaining, total, transfers⟩ := p
      obtain ⟨tier', winners', rewards', remaining', total', transfers'⟩ := p'
      simp only [Payout.withoutWinners, Payout.mk.injEq] at hp
      obtain ⟨rfl, -, rfl, rfl, rfl, htransfers⟩ := hp
      unfold payTiers
      cases args.rewardPercentages[tier]? with
      | none => simp [Payout.withoutWinners, htransfers]
      | some percentage =>
        simp only [map_bind]
        refine bind_congr fun reward => bind_congr fun _ => bind_congr fun remaining => ?_
        refine bind_congr fun total => ih (Nat.succ.inj hlen) ?_
        simp [Payout.withoutWinners, Transfer.withoutRecipient, transferTo, htransfers, hself]

/-- The checks read neither the records nor the accounts of players, and of the
log only which cycles are closed. -/
theorem admission_congr (hself : env.self = env'.self)
    (hframe : s' = { s with gamerecords := s'.gamerecords, rewardsrec := s'.rewardsrec })
    (hclosed : ∀ key, s.rewardsrec.findBy RewardsRecorded.byGameCycle key = none ↔
      s'.rewardsrec.findBy RewardsRecorded.byGameCycle key = none)
    (ctx : Context) (args : DistributeArgs) (accounts : Name → Bool) :
    admission env ctx s args = admission env' { ctx with boidAccount := accounts } s' args := by
  simp only [admission, requireAuth, hself, check_congr (hclosed _)]
  rw [hframe]

theorem decision_but_winners (hself : env.self = env'.self) (h : SameButWinners s s')
    (ctx : Context) (args : DistributeArgs) :
    Prod.map RewardsRecorded.withoutWinners (List.map Transfer.withoutRecipient) <$>
        decision env ctx s args =
      Prod.map RewardsRecorded.withoutWinners (List.map Transfer.withoutRecipient) <$>
        decision env' ctx s' args := by
  have hadmission : admission env ctx s args = admission env' ctx s' args :=
    admission_congr hself (by rw [h.frame]) h.closed_iff ctx args ctx.boidAccount
  have hbucket : s.bucket args.gameId args.cycleNumber = s'.bucket args.gameId args.cycleNumber := by
    rw [h.frame]
    rfl
  unfold decision
  rw [hadmission, hbucket, map_bind, map_bind]
  refine bind_congr fun found => ?_
  rw [map_bind, map_bind]
  refine bind_congr fun scores => ?_
  rw [map_bind, map_bind]
  refine bind_congr fun zero => ?_
  simp only [bind_pure_comp, Functor.map_map]
  have hlen : ((env.sorter.sort scores).take found.1.maxRewardTiers.toNat).length =
      ((env'.sorter.sort scores).take found.1.maxRewardTiers.toNat).length := by
    rw [List.length_take, List.length_take, (env.sorter.perm _).length_eq,
      (env'.sorter.perm _).length_eq]
  let start : Payout := ⟨0, [], [], args.totalReward, zero, []⟩
  have hpaid : Payout.withoutWinners <$> payTiers env args found.2 _ start =
      Payout.withoutWinners <$> payTiers env' args found.2 _ start :=
    payTiers_but_winners hself hlen rfl
  have hrow := congrArg (Functor.map fun p : Payout =>
    (RewardsRecorded.mk 0 args.gameId args.cycleNumber args.statName p.distributedTotal []
      p.playerRewards ctx.now, p.transfers)) hpaid
  simp only [Functor.map_map] at hrow
  exact hrow

theorem SameButWinners.settled (h : SameButWinners s s')
    (hx : distribute env ctx s args = .ok (t, out))
    (hx' : distribute env' ctx s' args = .ok (t', out'))
    (hd : decision env ctx s args = .ok (row, out))
    (hd' : decision env' ctx s' args = .ok (row', out'))
    (hrow : row.withoutWinners = row'.withoutWinners) : SameButWinners t t' := by
  obtain ⟨-, -, hrows, hwritten⟩ := distribute_decided hd hx
  obtain ⟨-, -, hrows', hwritten'⟩ := distribute_decided hd' hx'
  have hrecords : t.gamerecords = t'.gamerecords := by
    apply Table.ext_rows
    rw [hwritten.records, hwritten'.records, hd, hd', h.frame]
    rfl
  constructor
  · rw [hwritten.frame, hwritten'.frame, hrecords, h.frame]
  · have hid : { row with id := firstFree s.rewardsrec, rewardedPlayers := [] } =
        { row' with id := firstFree s'.rewardsrec, rewardedPlayers := [] } := by
      rw [h.firstFree_eq]
      exact congrArg (fun d : RewardsRecorded => { d with id := firstFree s'.rewardsrec }) hrow
    rw [hrows, hrows', List.map_append, List.map_append, h.log]
    exact congrArg (_ ++ [·]) hid

theorem distribute_alike (hself : env.self = env'.self) (h : SameButWinners s s') :
    Alike SameButWinners SameAmounts (distribute env ctx s args) (distribute env' ctx s' args) := by
  apply distribute_pair h.firstFree_eq (.of_map (decision_but_winners hself h ctx args))
  intro row out t row' out' t' hd hx hd' hx' hrow hout
  exact ⟨h.settled hx hx' hd hd' hrow, hout⟩

end

-- ---------------------------------------------------------------------------
-- The other actions
-- ---------------------------------------------------------------------------

/-- A configuring action reads no record, no log and no player's account. -/
theorem configure_ledger (env env' : Env) (hself : env.self = env'.self)
    (hcall : call.configures = true) (records : Table GameRecords.primaryKey)
    (log : Table RewardsRecorded.primaryKey) (accounts : Name → Bool) :
    exec env' { s with gamerecords := records, rewardsrec := log }
        ⟨{ ctx with boidAccount := accounts }, call⟩ =
      (fun r => ({ r.1 with gamerecords := records, rewardsrec := log }, r.2)) <$>
        exec env s ⟨ctx, call⟩ := by
  have hauth : requireAuth env' { ctx with boidAccount := accounts } = requireAuth env ctx := by
    unfold requireAuth
    rw [hself]
  cases call with
  | setgame args =>
    simp only [exec, setgame, hauth, map_bind, Functor.map_map]
    refine bind_congr fun _ => bind_congr fun _ => ?_
    cases s.gameconfig.find args.gameId.toUInt64 with
    | none => simp only [map_bind]; rfl
    | some row => rfl
  | removegame gameId =>
    simp only [exec, removegame, hauth, map_bind, Functor.map_map]
    rfl
  | setdistconf args =>
    simp only [exec, setdistconf, hauth, map_bind, Functor.map_map]
    refine bind_congr fun _ => bind_congr fun _ => bind_congr fun _ => bind_congr fun _ => ?_
    cases s.rewarddist.find args.gameId.toUInt64 with
    | none => simp only [map_bind]; rfl
    | some row => rfl
  | rmdistconf gameId =>
    simp only [exec, rmdistconf, hauth, map_bind, Functor.map_map]
    rfl
  | settoken args =>
    simp only [exec, settoken, hauth, map_bind, Functor.map_map]
    refine bind_congr fun _ => ?_
    cases s.tokenconfig.find args.tokenSymbol.raw with
    | none => simp only [map_bind]; rfl
    | some row => rfl
  | removetoken tokenSymbol =>
    simp only [exec, removetoken, hauth, map_bind, Functor.map_map]
    rfl
  | _ => cases hcall

theorem Effect.ledger {call : Call} (h : Effect env s ⟨ctx, call⟩ s' out)
    (hcall : call.configures = true) : SameLedger s s' := by
  cases h with
  | configured _ hs => exact hs
  | _ => cases hcall

theorem Effect.log_eq {call : Call} (h : Effect env s ⟨ctx, call⟩ s' out)
    (hcall : call.isDistribute = false) (hinit : call.isInit = false) :
    s'.rewardsrec = s.rewardsrec := by
  cases h with
  | reset _ => cases hinit
  | configured _ hs => exact hs.rewards
  | recorded _ => rfl
  | cleared _ => rfl
  | distributed _ => cases hcall

theorem configure_log (hself : env.self = env'.self) (hcall : call.configures = true)
    (log : Table RewardsRecorded.primaryKey) :
    exec env' { s with rewardsrec := log } ⟨ctx, call⟩ =
      (fun r => ({ r.1 with rewardsrec := log }, r.2)) <$> exec env s ⟨ctx, call⟩ := by
  refine (configure_ledger env env' hself hcall s.gamerecords log ctx.boidAccount).trans ?_
  cases hx : exec env s ⟨ctx, call⟩ with
  | error e => rfl
  | ok r =>
    have hledger := (exec_effect hx).ledger hcall
    simp only [Functor.map, Except.map, ← hledger.records]

theorem exec_log (hself : env.self = env'.self) (hcall : call.isDistribute = false)
    (hinit : call.isInit = false) (log : Table RewardsRecorded.primaryKey) :
    exec env' { s with rewardsrec := log } ⟨ctx, call⟩ =
      (fun r => ({ r.1 with rewardsrec := log }, r.2)) <$> exec env s ⟨ctx, call⟩ := by
  cases call with
  | initcontract args => cases hinit
  | distribute args => cases hcall
  | recordgame records =>
    simp only [exec, recordgame, requireAuth, hself, map_bind, Functor.map_map]
    rfl
  | clearrecord ids =>
    simp only [exec, clearrecord, requireAuth, hself, map_bind, Functor.map_map]
    rfl
  | _ => exact configure_log hself rfl log

theorem initcontract_log (hself : env.self = env'.self) (log : Table RewardsRecorded.primaryKey) :
    exec env' { s with rewardsrec := log } ⟨ctx, .initcontract args⟩ =
      exec env s ⟨ctx, .initcontract args⟩ := by
  unfold exec initcontract requireAuth
  simp only [hself, Table.clear_eq_empty]

theorem exec_alike (env env' : Env) (hself : env.self = env'.self) (h : SameButWinners s s')
    (a : Action) :
    Alike SameButWinners SameAmounts (exec env s a) (exec env' s' a) := by
  obtain ⟨ctx, call⟩ := a
  cases hcall : call.isDistribute with
  | true =>
    cases call with
    | distribute args => exact distribute_alike hself h
    | _ => cases hcall
  | false =>
    rw [h.frame]
    cases hinit : call.isInit with
    | true =>
      cases call with
      | initcontract args =>
        rw [initcontract_log hself]
        cases exec env s ⟨ctx, .initcontract args⟩ with
        | error e => exact .refused
        | ok r => exact .served (.refl _) rfl
      | _ => cases hinit
    | false =>
      rw [exec_log hself hcall hinit]
      cases hx : exec env s ⟨ctx, call⟩ with
      | error e => exact .refused
      | ok r =>
        obtain ⟨t, out⟩ := r
        have hlog : t.rewardsrec = s.rewardsrec := (exec_effect hx).log_eq hcall hinit
        refine .served ⟨rfl, ?_⟩ rfl
        rw [hlog]
        exact h.log

-- ---------------------------------------------------------------------------
-- Whole runs
-- ---------------------------------------------------------------------------

/-- The winners of the row are players of the cycle with these scores, rank by
rank. -/
def RankedBy (s : State) (args : DistributeArgs) (row : RewardsRecorded) (scores : List UInt64) :
    Prop :=
  ∃ top : List (Name × UInt64), top.Subperm (s.scores args) ∧
    row.rewardedPlayers = top.map Prod.fst ∧ scores = top.map Prod.snd

def SameRanks (args : DistributeArgs) (e e' : Event) : Prop :=
  ∃ row row' scores, e.post.rewardsrec.rows = e.pre.rewardsrec.rows ++ [row] ∧
    e'.post.rewardsrec.rows = e'.pre.rewardsrec.rows ++ [row'] ∧
    RankedBy e.pre args row scores ∧ RankedBy e'.pre args row' scores

theorem sort_take_subperm (env : Env) (l : List (Name × UInt64)) (n k : Nat) :
    (((env.sorter.sort l).take n).take k).Subperm l := by
  have hsub : (((env.sorter.sort l).take n).take k).Sublist (env.sorter.sort l) :=
    (List.take_sublist _ _).trans (List.take_sublist _ _)
  exact hsub.subperm.trans (env.sorter.perm l).subperm

theorem SameButWinners.ranks (h : SameButWinners s s')
    (hd : Distribution env ctx s args t out global token distConfig row)
    (hd' : Distribution env' ctx s' args t' out' global' token' distConfig' row') :
    ∃ scores, RankedBy s args row scores ∧ RankedBy s' args row' scores := by
  have hglobal : global = global' := by
    have hsame : s'.globalconfig = s.globalconfig := by rw [h.frame]
    exact Option.some.inj (hd.global_eq.symm.trans (hsame.symm.trans hd'.global_eq))
  have hscores : s'.scores args = s.scores args := by
    rw [h.frame]
    rfl
  have hkeys : (env.sorter.sort (s.scores args)).map Prod.snd =
      (env'.sorter.sort (s'.scores args)).map Prod.snd := by
    apply Ranking.keys_of_perm
    · exact sorter_ordered env.sorter _
    · exact sorter_ordered env'.sorter _
    · rw [hscores]
      exact (env.sorter.perm _).trans (env'.sorter.perm _).symm
  refine ⟨_, ⟨_, sort_take_subperm env _ _ _, hd.settlement.winners, rfl⟩,
    ⟨_, sort_take_subperm env' _ _ _, hd'.settlement.winners, ?_⟩⟩
  rw [List.map_take, List.map_take, hkeys, hglobal, ← List.map_take, ← List.map_take]

theorem ranks_in_step {e e' : Event} (h : InStep Eq SameButWinners SameAmounts e e')
    (he : exec env e.pre e.request = .ok (e.post, e.output))
    (he' : exec env' e'.pre e'.request = .ok (e'.post, e'.output))
    (hcall : e.request.call = .distribute args) : SameRanks args e e' := by
  obtain ⟨_, _, _, row, hd⟩ := (exec_effect he).of_distribute hcall
  obtain ⟨_, _, _, row', hd'⟩ := (exec_effect he').of_distribute (h.request ▸ hcall)
  rw [h.request] at hd
  obtain ⟨scores, hranked, hranked'⟩ := h.pre.ranks hd hd'
  exact ⟨row, row', scores, hd.rewards_rows, hd'.rewards_rows, hranked, hranked'⟩

/-- Whatever the sorting routine, a run serves and refuses the same actions,
with transfers of the same amounts, and ends in the same state but for the
winners in the log; and the winners of each distribution have the same scores
rank by rank. -/
theorem sorter_moves_ties_only (env : Env) (sorter : Ranking.Sorter (Name × UInt64) higherScore)
    (actions : List Action) :
    SameButWinners (run env actions) (run { env with sorter := sorter } actions) ∧
    List.Forall₂
      (fun e e' => InStep Eq SameButWinners SameAmounts e e' ∧
        ∀ args, e.request.call = .distribute args → SameRanks args e e')
      (events env actions) (events { env with sorter := sorter } actions) := by
  have hstep : ∀ s t a b, SameButWinners s t → a = b → Alike SameButWinners SameAmounts
      (exec env s a) (exec { env with sorter := sorter } t b) := by
    rintro s t a _ h rfl
    exact exec_alike env ⟨env.self, sorter⟩ rfl h a
  obtain ⟨hrun, hevents⟩ := Traces.runs_in_step hstep (.refl State.deployed)
    (List.forall₂_refl actions)
  refine ⟨hrun, ?_⟩
  obtain ⟨hlen, hpairs⟩ := List.forall₂_iff_zip.mp hevents
  refine List.forall₂_iff_zip.mpr ⟨hlen, fun {e e'} hpair => ⟨hpairs hpair, fun args hcall => ?_⟩⟩
  obtain ⟨he, he'⟩ := List.of_mem_zip hpair
  exact ranks_in_step (hpairs hpair) (History.events_exec he) (History.events_exec he') hcall

end GameRewards
