import GameRewards.Batches
import GameRewards.Contest
import GameRewards.Winners

/-!
# The contract runs a contest

What the tables say, without ids, flags and amounts: which results stand in
which cycle, and which cycles are settled. Every run is a run of this contest.

So a payout goes to the best of the results that were reported in time, from
the day of the contract's initialization, and not cleared since.
-/

namespace GameRewards

open Contest (NoBetter Winners)
open MultiIndex (Handle)
open Traces (Trace Serves Simulation Since)

-- ---------------------------------------------------------------------------
-- The contest in the tables
-- ---------------------------------------------------------------------------

structure Played where
  report : GameRecordData
  cycle : UInt32

def GameRecords.played (r : GameRecords) : Played := ⟨r.reported, r.cycleNumber⟩

def Played.period (p : Played) : UInt8 × UInt32 := (p.report.gameId, p.cycle)

def Played.score (statName : Name) (p : Played) : Option UInt64 :=
  (p.report.statsNames.findIdx? (· = statName)).bind fun index => p.report.statsValues[index]?

def State.contest (s : State) : Contest.State Played (UInt8 × UInt32) where
  standing := {p | ∃ r ∈ s.gamerecords.rows, r.played = p}
  settled := {k | s.Closed k.1 k.2}

def Enters (e : Event) (p : Played) : Prop :=
  ∃ records g, e.request.call = .recordgame records ∧ e.pre.globalconfig = some g ∧
    p.report ∈ records ∧ acceptable e.request.ctx e.pre g p.report = true ∧
    p.cycle = g.cycleAt p.report.completionTime

/-- The event clears the result by its id, or resets the contract. -/
def Removes (e : Event) (p : Played) : Prop :=
  e.request.call.isInit = true ∨ ∃ ids, e.request.call = .clearrecord ids ∧
    ∃ r ∈ e.pre.gamerecords.rows, r.id ∈ ids ∧ r.played = p

/-- What an event is in the contest. -/
inductive Shows : Event → Contest.Label Played (UInt8 × UInt32) UInt64 → Prop
  | enter : e.request.call = .recordgame records → Shows e (.enter {p | Enters e p})
  | withdraw : e.request.call = .clearrecord ids → Shows e (.withdraw {p | Removes e p})
  | settle : e.request.call = .distribute args →
      e.post.rewardsrec.rows = e.pre.rewardsrec.rows ++ [row] →
      row.rewardedPlayers = winners.map (fun w => w.report.player) →
      Shows e (.settle (args.gameId, args.cycleNumber) (Played.score args.statName)
        args.rewardPercentages.length winners)
  | restart : e.request.call.isInit = true → Shows e .restart
  | idle : e.request.call.configures = true → Shows e .idle

-- ---------------------------------------------------------------------------
-- One step
-- ---------------------------------------------------------------------------

theorem Invariant.played_inj (h : Invariant s) (hr : r ∈ s.gamerecords.rows)
    (hr' : r' ∈ s.gamerecords.rows) (hsame : r.played = r'.played) : r = r' := by
  simp only [GameRecords.played, GameRecords.reported, Played.mk.injEq,
    GameRecordData.mk.injEq] at hsame
  obtain ⟨⟨hgame, hplayer, hnames, hvalues, htime⟩, -⟩ := hsame
  exact h.distinct r hr r' hr' ⟨hgame, hplayer, hnames, hvalues, htime⟩

theorem mem_standing : p ∈ (State.contest s).standing ↔ ∃ r ∈ s.gamerecords.rows, r.played = p :=
  Iff.rfl

theorem State.contest_congr {s s' : State} (hrecords : s'.gamerecords = s.gamerecords)
    (hrewards : s'.rewardsrec = s.rewardsrec) : s'.contest = s.contest := by
  unfold State.contest State.Closed
  rw [hrecords, hrewards]

theorem contest_recorded {e : Event} (hinv : Invariant e.pre)
    (h : recordgame env e.request.ctx e.pre records = .ok e.post)
    (hcall : e.request.call = .recordgame records) :
    e.post.contest =
      { e.pre.contest with standing := e.pre.contest.standing ∪ {p | Enters e p} } := by
  obtain ⟨g, hg⟩ := recordgame_initialized h
  have hl := LoopState.start hinv hg
  obtain ⟨-, hadded, hframe⟩ := recordgame_added hl h
  apply Contest.State.ext
  · ext p
    rw [Set.mem_union, mem_standing, mem_standing, Set.mem_ofPred_eq]
    constructor
    · rintro ⟨r, hr, rfl⟩
      rw [hadded.rows, List.mem_append] at hr
      rcases hr with hr | hr
      · exact .inl ⟨r, hr, rfl⟩
      · obtain ⟨id, record, hnew, rfl⟩ := Handle.mem_numbered hr
        obtain ⟨hmem, hacceptable, -⟩ := Intake.mem_intake.mp hnew
        exact .inr ⟨records, g, hcall, hg, hmem, hacceptable, rfl⟩
    · rintro (⟨r, hr, rfl⟩ | ⟨records', g', hcall', hg', hmem, hacceptable, hcycle⟩)
      · exact ⟨r, by rw [hadded.rows]; exact List.mem_append_left _ hr, rfl⟩
      · cases hcall.symm.trans hcall'
        obtain rfl := Option.some.inj (hg.symm.trans hg')
        have hstored : p.report ∈ resultsIn e.post.gamerecords := by
          rw [hadded.results, List.mem_append]
          by_cases hold : p.report ∈ resultsIn e.pre.gamerecords
          · exact .inl hold
          · exact .inr (Intake.mem_intake.mpr ⟨hmem, hacceptable, hold⟩)
        obtain ⟨r, hr, hreported⟩ := List.mem_map.mp hstored
        have hdated := hadded.dated hl.dated r hr
        refine ⟨r, hr, ?_⟩
        cases p
        simp only at hreported hcycle
        subst hreported
        rw [GameRecords.played, hdated, hcycle]
        rfl
  · rw [hframe]
    rfl

theorem contest_cleared {e : Event} (hinv : Invariant e.pre)
    (hrows : ∀ r, r ∈ t.rows ↔ r ∈ e.pre.gamerecords.rows ∧ r.id ∉ ids)
    (hpost : e.post = { e.pre with gamerecords := t })
    (hcall : e.request.call = .clearrecord ids) :
    e.post.contest =
      { e.pre.contest with standing := e.pre.contest.standing \ {p | Removes e p} } := by
  apply Contest.State.ext
  · ext p
    rw [Set.mem_sdiff, mem_standing, mem_standing, Set.mem_ofPred_eq, hpost]
    constructor
    · rintro ⟨r, hr, rfl⟩
      obtain ⟨hr, hkept⟩ := (hrows r).mp hr
      refine ⟨⟨r, hr, rfl⟩, ?_⟩
      rintro (hinit | ⟨ids', hcall', r', hr', hgone, hsame⟩)
      · rw [hcall] at hinit
        cases hinit
      · cases hcall.symm.trans hcall'
        rw [hinv.played_inj hr' hr hsame] at hgone
        exact hkept hgone
    · rintro ⟨⟨r, hr, rfl⟩, hkept⟩
      refine ⟨r, (hrows r).mpr ⟨hr, fun hgone => hkept ?_⟩, rfl⟩
      exact .inr ⟨ids, hcall, r, hr, hgone, rfl⟩
  · rw [hpost]
    rfl

theorem contest_distributed (hd : Distribution env ctx s args s' out global token distConfig row) :
    s'.contest = { s.contest with
      settled := insert (args.gameId, args.cycleNumber) s.contest.settled } := by
  apply Contest.State.ext
  · ext p
    rw [mem_standing, hd.records_rows]
    simp only [List.mem_map, exists_exists_and_eq_and, settleRow_eq]
    rfl
  · ext ⟨g, c⟩
    rw [Set.mem_insert_iff, Prod.mk.injEq, eq_comm, eq_comm (a := c), or_comm]
    exact hd.closed_iff

-- ---------------------------------------------------------------------------
-- The winners
-- ---------------------------------------------------------------------------

theorem mem_contenders {s : State} {args : DistributeArgs} :
    r ∈ s.contenders args ↔ r ∈ s.gamerecords.rows ∧ r.gameId = args.gameId ∧
      r.cycleNumber = args.cycleNumber ∧ args.statName ∈ r.statsNames := by
  simp [State.contenders]

theorem ordered_of_entries {ranking : List GameRecords} {sorted : List (Name × UInt64)}
    (hentries : ranking.map (GameRecords.entry stat) = sorted.map some)
    (hsorted : sorted.Pairwise fun a b => b.2 ≤ a.2) :
    ranking.Pairwise fun r r' => NoBetter (Played.score stat) r'.played r.played := by
  have hpairs : (sorted.map some).Pairwise fun x y : Option (Name × UInt64) =>
      ∀ a b, x = some a → y = some b → b.2 ≤ a.2 := by
    refine List.pairwise_map.mpr (hsorted.imp fun hle a b ha hb => ?_)
    cases ha
    cases hb
    exact hle
  rw [← hentries, List.pairwise_map] at hpairs
  refine hpairs.imp fun {r r'} hle x y hx hy => ?_
  have hentry : ∀ {q : GameRecords} {v}, q.played.score stat = some v →
      q.entry stat = some (q.player, v) := fun {q v} hv => by
    rw [GameRecords.entry, show q.score stat = some v from hv, Option.map_some]
  exact hle _ _ (hentry hy) (hentry hx)

theorem TopScores.winners (h : TopScores s args global row ranking sorted) (hinv : Invariant s) :
    ∃ winners : List Played, row.rewardedPlayers = winners.map (fun w => w.report.player) ∧
      Winners {p ∈ s.contest.standing | p.period = (args.gameId, args.cycleNumber)}
        (Played.score args.statName) args.rewardPercentages.length winners := by
  have hrows : ∀ r ∈ ranking, r ∈ s.gamerecords.rows := fun r hr =>
    (mem_contenders.mp (h.arrangement.mem_iff.mp hr)).1
  have hnodup : (ranking.map GameRecords.played).Nodup :=
    (h.arrangement.nodup_iff.mpr (s.gamerecords.nodup.filter _)).map_on
      fun r hr r' hr' hsame => hinv.played_inj (hrows r hr) (hrows r' hr') hsame
  have hmem : ∀ p, p ∈ ranking.map GameRecords.played ↔
      p ∈ {p ∈ s.contest.standing | p.period = (args.gameId, args.cycleNumber)} ∧
        (p.score args.statName).isSome = true := by
    intro p
    simp only [List.mem_map, h.arrangement.mem_iff, mem_contenders, mem_standing]
    constructor
    · rintro ⟨r, ⟨hr, hgame, hcycle, hstat⟩, rfl⟩
      have hscore := (score_isSome_iff (hinv.stats_lengths r hr)).mpr hstat
      exact ⟨⟨⟨r, hr, rfl⟩, Prod.ext hgame hcycle⟩, hscore⟩
    · rintro ⟨⟨⟨r, hr, rfl⟩, hperiod⟩, hscore⟩
      obtain ⟨hgame, hcycle⟩ := Prod.mk.inj hperiod
      have hstat := (score_isSome_iff (hinv.stats_lengths r hr)).mp hscore
      exact ⟨r, ⟨hr, hgame, hcycle, hstat⟩, rfl⟩
  refine ⟨(ranking.map GameRecords.played).take args.rewardPercentages.length, ?_,
    .of_ranking hnodup hmem (List.pairwise_map.mpr (ordered_of_entries h.entries h.ordered)) _⟩
  have htake : ranking.take row.rewardedPlayers.length =
      ranking.take args.rewardPercentages.length := by
    rw [List.take_eq_take_iff, h.count, h.arrangement.length_eq]
    omega
  calc row.rewardedPlayers
      = (ranking.take args.rewardPercentages.length).map GameRecords.player := by
        rw [← htake]
        exact h.records
    _ = _ := by
        rw [← List.map_take, List.map_map]
        rfl

-- ---------------------------------------------------------------------------
-- Every run
-- ---------------------------------------------------------------------------

theorem contest_reset (g : Option GlobalConfig) :
    State.contest { State.deployed with globalconfig := g } = .fresh := by
  apply Contest.State.ext
  · exact Set.eq_empty_of_forall_notMem fun p ⟨_, hr, _⟩ => nomatch hr
  · exact Set.eq_empty_of_forall_notMem fun k ⟨_, hd, _⟩ => nomatch hd

theorem contest_deployed : State.deployed.contest = .fresh := contest_reset none

theorem contest_step (hinv : Invariant s) (hx : exec env s a = .ok (s', out)) :
    ∃ l, Shows ⟨s, a, out, s'⟩ l ∧ Contest.Step Played.period s.contest l s'.contest := by
  cases exec_effect hx with
  | reset _ =>
    refine ⟨.restart, .restart rfl, ?_⟩
    rw [contest_reset]
    exact .restart
  | configured hcall hs =>
    refine ⟨.idle, .idle hcall, ?_⟩
    rw [State.contest_congr hs.records hs.rewards]
    exact .idle
  | recorded _ =>
    obtain ⟨hrecord, -⟩ := silent_ok.mp hx
    refine ⟨_, .enter rfl, ?_⟩
    rw [contest_recorded (e := ⟨s, _, _, _⟩) hinv hrecord rfl]
    exact .enter
  | cleared hrows =>
    refine ⟨_, .withdraw rfl, ?_⟩
    rw [contest_cleared (e := ⟨s, ⟨_, .clearrecord _⟩, [], { s with gamerecords := _ }⟩) hinv hrows
      rfl rfl]
    exact .withdraw
  | distributed hd =>
    obtain ⟨ranking, sorted, htop⟩ := hd.topScores hinv.stats_lengths
    obtain ⟨winners, hpaid, hwinners⟩ := htop.winners hinv
    refine ⟨_, .settle rfl hd.rewards_rows hpaid, ?_⟩
    rw [contest_distributed hd]
    refine .settle ?_ hwinners
    rintro ⟨d, hmem, hkey⟩
    exact hd.open_cycle d hmem hkey

theorem contest_simulation (env : Env) :
    Simulation (Serves (exec env)) (Contest.Step Played.period) Invariant State.contest Shows where
  keeps := by
    rintro s _ s' hinv ⟨hx⟩
    exact hinv.step (exec_effect hx)
  simulates := by
    rintro s _ s' hinv ⟨hx⟩
    exact contest_step hinv hx

/-- Every run of the contract is a run of the contest: batches enter the results
they report in time, clearing withdraws, a distribution settles a period that
was open with the best of the results that stand in it, `initcontract` starts
over, and the configuration is no part of it. -/
theorem run_refines_contest (env : Env) (actions : List Action) :
    ∃ labels, List.Forall₂ Shows (events env actions) labels ∧
      Trace (Contest.Step Played.period) .fresh labels (run env actions).contest := by
  rw [← contest_deployed]
  exact (contest_simulation env).trace .deployed (Traces.trace_run (exec env) _ actions)

-- ---------------------------------------------------------------------------
-- What is paid
-- ---------------------------------------------------------------------------

theorem Shows.enters_iff (h : Shows e l) (p : Played) : Enters e p ↔ l.Enters p := by
  have hnone : (∀ records, e.request.call ≠ .recordgame records) → ¬ Enters e p := by
    rintro hother ⟨records, _, hcall, -⟩
    exact hother records hcall
  cases h with
  | enter _ => rfl
  | withdraw hcall => exact iff_of_false (hnone fun _ h => by cases hcall.symm.trans h) id
  | settle hcall _ _ => exact iff_of_false (hnone fun _ h => by cases hcall.symm.trans h) id
  | restart hinit => exact iff_of_false (hnone fun _ h => by rw [h] at hinit; cases hinit) id
  | idle hcall => exact iff_of_false (hnone fun _ h => by rw [h] at hcall; cases hcall) id

theorem Shows.removes_iff (h : Shows e l) (p : Played) : Removes e p ↔ l.Removes p := by
  have hnone : e.request.call.isInit = false → (∀ ids, e.request.call ≠ .clearrecord ids) →
      ¬ Removes e p := by
    rintro hinit hother (h | ⟨ids, hcall, -⟩)
    · rw [hinit] at h
      cases h
    · exact hother ids hcall
  cases h with
  | enter hcall =>
    exact iff_of_false (hnone (by rw [hcall]; rfl) fun _ h => by cases hcall.symm.trans h) id
  | withdraw _ => rfl
  | settle hcall _ _ =>
    exact iff_of_false (hnone (by rw [hcall]; rfl) fun _ h => by cases hcall.symm.trans h) id
  | restart hinit => exact iff_of_true (.inl hinit) trivial
  | idle hcall =>
    refine iff_of_false (hnone (Call.not_isInit hcall) fun _ h => ?_) id
    rw [h] at hcall
    cases hcall

/-- A result stands if it was accepted and not removed since. -/
def Stands (evs : List Event) (p : Played) : Prop := Since (Enters · p) (Removes · p) evs

theorem run_standing (env : Env) (actions : List Action) (p : Played) :
    p ∈ (run env actions).contest.standing ↔ Stands (events env actions) p := by
  obtain ⟨labels, hshows, htrace⟩ := (contest_simulation env).trace .deployed
    (Traces.trace_run (exec env) State.deployed actions)
  rw [contest_deployed] at htrace
  rw [run, Contest.standing_iff htrace]
  exact (Traces.since_congr hshows (fun _ _ h => h.enters_iff p) fun _ _ h => h.removes_iff p).symm

/-- Whatever happened before, a distribution pays the players of the best of the
results of its cycle that were reported and accepted since the contract was
initialized and not cleared since, by the values that were reported. -/
theorem paid_are_best_reported (env : Env) (actions : List Action) (ctx : Context)
    (args : DistributeArgs) (h : distribute env ctx (run env actions) args = .ok (s', out)) :
    ∃ row winners, s'.rewardsrec.rows = (run env actions).rewardsrec.rows ++ [row] ∧
      row.rewardedPlayers = winners.map (fun w => w.report.player) ∧
      Winners
        {p | Stands (events env actions) p ∧ p.period = (args.gameId, args.cycleNumber)}
        (Played.score args.statName) args.rewardPercentages.length winners := by
  have hinv := run_invariant env actions
  obtain ⟨_, _, _, row, hd⟩ := distribute_ok h
  obtain ⟨ranking, sorted, htop⟩ := hd.topScores hinv.stats_lengths
  obtain ⟨winners, hpaid, hwinners⟩ := htop.winners hinv
  refine ⟨row, winners, hd.rewards_rows, hpaid, ?_⟩
  simp only [run_standing] at hwinners
  exact hwinners

theorem played_pays_best_reported :
    ∃ (s' : State) (row : RewardsRecorded) (winners : List Played),
      s'.rewardsrec.rows = (run Sample.env Sample.played).rewardsrec.rows ++ [row] ∧
      row.rewardedPlayers = winners.map (fun w => w.report.player) ∧
      Winners {p | Stands (events Sample.env Sample.played) p ∧ p.period = (1, 1)}
        (Played.score Sample.kills) 2 winners :=
  ⟨_, paid_are_best_reported Sample.env Sample.played (Sample.context 1100)
    (Sample.payout 1 [60, 40]) rfl⟩

end GameRewards
