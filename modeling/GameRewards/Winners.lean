import GameRewards.Admission

/-!
# Who is paid

`TopScores` reads the pipeline of `distribute` (collect, sort, cut, pay) as a
ranking of records: each record of the cycle that lists the stat competes on
its own, and the first ones of the ranking are paid. If no record lists the
stat the cycle is closed without a payment.
-/

namespace GameRewards

def State.contenders (s : State) (args : DistributeArgs) : List GameRecords :=
  s.gamerecords.rows.filter fun r =>
    r.gameId = args.gameId ∧ r.cycleNumber = args.cycleNumber ∧ args.statName ∈ r.statsNames

/-- The row pays the top of a ranking of the contenders. `sorted` lists their
players and scores in the same order. -/
structure TopScores (s : State) (args : DistributeArgs) (global : GlobalConfig)
    (row : RewardsRecorded) (ranking : List GameRecords) (sorted : List (Name × UInt64)) : Prop where
  arrangement : ranking.Perm (s.contenders args)
  entries : ranking.map (GameRecords.entry args.statName) = sorted.map some
  ordered : sorted.Pairwise fun a b => b.2 ≤ a.2
  count : row.rewardedPlayers.length = min (s.contenders args).length args.rewardPercentages.length
  paid : row.rewardedPlayers = (sorted.take row.rewardedPlayers.length).map Prod.fst
  records : row.rewardedPlayers = (ranking.take row.rewardedPlayers.length).map GameRecords.player
  tiers : List.Forall₂ (TierPaid args.totalReward)
    (args.rewardPercentages.take row.rewardedPlayers.length) row.playerRewards
  once : (ranking.take row.rewardedPlayers.length).Nodup
  beaten : ∀ a ∈ sorted.take row.rewardedPlayers.length,
    ∀ b ∈ sorted.drop row.rewardedPlayers.length, b.2 ≤ a.2
  cut : (sorted.take global.maxRewardTiers.toNat).take args.rewardPercentages.length =
    sorted.take args.rewardPercentages.length

theorem State.contenders_eq {s : State} {args : DistributeArgs}
    (h : ∀ r ∈ s.gamerecords.rows, r.statsNames.length = r.statsValues.length) :
    s.contenders args =
      (s.bucket args.gameId args.cycleNumber).filter fun r => (r.entry args.statName).isSome := by
  unfold State.contenders State.bucket
  rw [List.filter_filter]
  refine List.filter_congr fun r hr => ?_
  have hstat : (r.entry args.statName).isSome = true ↔ args.statName ∈ r.statsNames := by
    rw [GameRecords.entry, Option.isSome_map, score_isSome_iff (h r hr)]
  rw [Bool.eq_iff_iff, Bool.and_eq_true, hstat, GameRecords.inCycle_iff, decide_eq_true_iff,
    ← and_assoc, and_comm]

theorem sorter_ordered (sorter : Ranking.Sorter (Name × UInt64) higherScore)
    (l : List (Name × UInt64)) :
    (sorter.sort l).Pairwise fun a b => b.2 ≤ a.2 := by
  refine (sorter.ordered l).imp fun {a b} h => ?_
  simpa [higherScore] using h

theorem map_player {ranking : List GameRecords} {sorted : List (Name × UInt64)}
    (h : ranking.map (GameRecords.entry stat) = sorted.map some) :
    ranking.map GameRecords.player = sorted.map Prod.fst := by
  induction ranking generalizing sorted with
  | nil => simpa using h
  | cons r ranking ih =>
    cases sorted with
    | nil => cases h
    | cons a sorted =>
      obtain ⟨hentry, hrest⟩ := List.cons.inj h
      simp only [GameRecords.entry, Option.map_eq_some_iff] at hentry
      obtain ⟨_, -, rfl⟩ := hentry
      rw [List.map_cons, List.map_cons, ih hrest]

theorem Distribution.topScores (h : Distribution env ctx s args s' out global token distConfig row)
    (hlen : ∀ r ∈ s.gamerecords.rows, r.statsNames.length = r.statsValues.length) :
    ∃ ranking sorted, TopScores s args global row ranking sorted := by
  obtain ⟨ranking, hperm, hentries⟩ := Ranking.exists_sources (env.sorter.perm (s.scores args))
  rw [← State.contenders_eq hlen] at hperm
  have hsorted := sorter_ordered env.sorter (s.scores args)
  have hplayers := h.settlement.winners
  have htiers := h.settlement.tiers
  generalize env.sorter.sort (s.scores args) = sorted at *
  have hcut := Ranking.take_take_le (l := sorted) h.tiers_le
  rw [hcut] at hplayers
  have hsize : sorted.length = (s.contenders args).length := by
    have hlengths := congrArg List.length hentries
    rw [List.length_map, List.length_map] at hlengths
    rw [← hlengths, hperm.length_eq]
  have hcount : row.rewardedPlayers.length =
      min (s.contenders args).length args.rewardPercentages.length := by
    rw [hplayers, List.length_map, List.length_take, hsize, Nat.min_comm]
  have hpaid : row.rewardedPlayers = (sorted.take row.rewardedPlayers.length).map Prod.fst := by
    rw [hcount, ← hsize, Nat.min_comm, ← List.take_eq_take_min]
    exact hplayers
  refine ⟨ranking, sorted, ?_⟩
  constructor
  · exact hperm
  · exact hentries
  · exact hsorted
  · exact hcount
  · exact hpaid
  · rw [List.map_take, map_player hentries, ← List.map_take]
    exact hpaid
  · convert htiers using 1
    rw [List.take_eq_take_iff, hcount, ← hsize, List.length_take]
    have hle := h.tiers_le
    omega
  · exact (hperm.nodup_iff.mpr (s.gamerecords.nodup.filter _)).sublist (List.take_sublist _ _)
  · exact Ranking.take_drop_ordered hsorted _
  · exact hcut

theorem Settlement.out_length (h : Settlement env ctx args distConfig players row transfers) :
    transfers.length = row.rewardedPlayers.length := by
  rw [h.transfers_eq, List.length_zipWith, ← h.lengths, Nat.min_self]

/-- Every successful `distribute` pays the top of a ranking of the contenders,
whatever order the sorting routine gives to ties. -/
theorem distribute_pays_top_scores (env : Env) (actions : List Action) (ctx : Context)
    (args : DistributeArgs) (h : distribute env ctx (run env actions) args = .ok (s', out)) :
    ∃ global row ranking sorted, (run env actions).globalconfig = some global ∧
      s'.rewardsrec.rows = (run env actions).rewardsrec.rows ++ [row] ∧
      TopScores (run env actions) args global row ranking sorted := by
  obtain ⟨global, token, distConfig, row, hd⟩ := distribute_ok h
  have hlen := (run_invariant env actions).stats_lengths
  obtain ⟨ranking, sorted, htop⟩ := hd.topScores hlen
  exact ⟨global, row, ranking, sorted, hd.global_eq, hd.rewards_rows, htop⟩

def Sample.played : List Action :=
  Sample.setup 1000 1000 100 ++ [Sample.block 1050 (.recordgame
    [Sample.result 10 50 1010, Sample.result 11 40 1020, Sample.result 10 60 1030])]

theorem played_pays_top_scores :
    ∃ global row ranking sorted, (run Sample.env Sample.played).globalconfig = some global ∧
      (run Sample.env (Sample.played ++
        [Sample.block 1100 (.distribute (Sample.payout 1 [60, 40]))])).rewardsrec.rows =
          (run Sample.env Sample.played).rewardsrec.rows ++ [row] ∧
      TopScores (run Sample.env Sample.played) (Sample.payout 1 [60, 40]) global row ranking sorted :=
  distribute_pays_top_scores Sample.env Sample.played (Sample.context 1100)
    (Sample.payout 1 [60, 40]) rfl

-- ---------------------------------------------------------------------------
-- Several records of one player
-- ---------------------------------------------------------------------------

theorem TopScores.count_le (h : TopScores s args global row ranking sorted) (player : Name) :
    row.rewardedPlayers.count player ≤ ((s.contenders args).map GameRecords.player).count player :=
  calc row.rewardedPlayers.count player
      = ((ranking.map GameRecords.player).take row.rewardedPlayers.length).count player := by
        rw [← List.map_take, ← h.records]
    _ ≤ (ranking.map GameRecords.player).count player := (List.take_sublist _ _).count_le player
    _ = ((s.contenders args).map GameRecords.player).count player :=
        (h.arrangement.map _).count_eq player

/-- A player takes at most one tier for each record that competes; the tiers
are shared out without a repetition when no player has two such records. -/
theorem one_tier_per_record (env : Env) (actions : List Action) (ctx : Context)
    (args : DistributeArgs) (h : distribute env ctx (run env actions) args = .ok (s', out)) :
    ∃ row, s'.rewardsrec.rows = (run env actions).rewardsrec.rows ++ [row] ∧
      out.length = row.rewardedPlayers.length ∧
      (∀ player, row.rewardedPlayers.count player ≤
        (((run env actions).contenders args).map GameRecords.player).count player) ∧
      ((((run env actions).contenders args).map GameRecords.player).Nodup →
        row.rewardedPlayers.Nodup) := by
  obtain ⟨global, token, distConfig, row, hd⟩ := distribute_ok h
  obtain ⟨ranking, sorted, htop⟩ := hd.topScores (run_invariant env actions).stats_lengths
  refine ⟨row, hd.rewards_rows, hd.settlement.out_length, htop.count_le, fun hnodup => ?_⟩
  refine List.nodup_iff_count_le_one.mpr fun player => ?_
  exact (htop.count_le player).trans (List.nodup_iff_count_le_one.mp hnodup player)

theorem played_one_tier_per_record :
    ∃ row, (run Sample.env (Sample.played ++
        [Sample.block 1100 (.distribute (Sample.payout 1 [60, 40]))])).rewardsrec.rows =
          (run Sample.env Sample.played).rewardsrec.rows ++ [row] ∧
      2 = row.rewardedPlayers.length ∧
      (∀ player, row.rewardedPlayers.count player ≤
        (((run Sample.env Sample.played).contenders (Sample.payout 1 [60, 40])).map
          GameRecords.player).count player) ∧
      ((((run Sample.env Sample.played).contenders (Sample.payout 1 [60, 40])).map
        GameRecords.player).Nodup → row.rewardedPlayers.Nodup) :=
  one_tier_per_record Sample.env Sample.played (Sample.context 1100) (Sample.payout 1 [60, 40]) rfl

theorem two_tiers_for_one_player :
    ¬ ∀ (env : Env) (actions : List Action) (ctx : Context) (args : DistributeArgs) (s' : State)
      (out : List Transfer) (row : RewardsRecorded),
      distribute env ctx (run env actions) args = .ok (s', out) →
      s'.rewardsrec.rows = (run env actions).rewardsrec.rows ++ [row] →
      row.rewardedPlayers.Nodup := by
  intro h
  have hnodup := h Sample.env Sample.played (Sample.context 1100) (Sample.payout 1 [60, 40]) _ _
    ⟨0, 1, 1, Sample.kills, ⟨1000000, Sample.boid⟩, [⟨10⟩, ⟨10⟩],
      [⟨600000, Sample.boid⟩, ⟨400000, Sample.boid⟩], 1100⟩ rfl rfl
  exact absurd hnodup (by decide)

-- ---------------------------------------------------------------------------
-- A stat that nobody has
-- ---------------------------------------------------------------------------

theorem distribute_count {s : State}
    (hlen : ∀ r ∈ s.gamerecords.rows, r.statsNames.length = r.statsValues.length)
    (h : distribute env ctx s args = .ok (s', out)) :
    out.length = min (s.contenders args).length args.rewardPercentages.length := by
  obtain ⟨global, token, distConfig, row, hd⟩ := distribute_ok h
  obtain ⟨ranking, sorted, htop⟩ := hd.topScores hlen
  exact hd.settlement.out_length.trans htop.count

theorem distribute_closes (h : distribute env ctx s args = .ok (s', out)) :
    s'.Closed args.gameId args.cycleNumber := by
  obtain ⟨global, token, distConfig, row, hd⟩ := distribute_ok h
  exact hd.closed_iff.mpr (.inr ⟨rfl, rfl⟩)

theorem distribute_tiers (h : distribute env ctx s args = .ok r) :
    ∃ global, s.globalconfig = some global ∧ TiersAccepted global args.rewardPercentages := by
  obtain ⟨⟨global, distConfig⟩, hadmission⟩ := admission_of_distribute h
  exact ⟨global, admission_ok hadmission⟩

/-- A successful `distribute` pays somebody exactly when a record of the cycle
lists the stat. It closes the cycle in any case, and it would have succeeded
with any stat that no record of the cycle lists. -/
theorem distribute_pays_iff_listed (env : Env) (actions : List Action) (ctx : Context)
    (args : DistributeArgs) (h : distribute env ctx (run env actions) args = .ok (s', out)) :
    out.length = min ((run env actions).contenders args).length args.rewardPercentages.length ∧
    (out ≠ [] ↔ ∃ r ∈ (run env actions).gamerecords.rows, r.gameId = args.gameId ∧
      r.cycleNumber = args.cycleNumber ∧ args.statName ∈ r.statsNames) ∧
    s'.Closed args.gameId args.cycleNumber ∧
    ∀ stat, (∀ r ∈ (run env actions).bucket args.gameId args.cycleNumber, stat ∉ r.statsNames) →
      ∃ s₁, distribute env ctx (run env actions) { args with statName := stat } = .ok (s₁, []) ∧
        s₁.Closed args.gameId args.cycleNumber := by
  have hstats := (run_invariant env actions).stats_lengths
  obtain ⟨global, hglobal, haccepted⟩ := distribute_tiers h
  have hlen := distribute_count hstats h
  have htiers : 0 < args.rewardPercentages.length := List.length_pos_iff.mpr haccepted.nonempty
  refine ⟨hlen, ?_, distribute_closes h, fun stat hstat => ?_⟩
  · calc out ≠ []
        ↔ 0 < ((run env actions).contenders args).length := by
          rw [← List.length_pos_iff, hlen, Nat.lt_min, and_iff_left htiers]
      _ ↔ _ := by
          simp [List.length_pos_iff_exists_mem, State.contenders]
  · obtain ⟨⟨s₁, out₁⟩, hunlisted⟩ := distribute_unlisted h hglobal haccepted hstat
    have hnobody : (run env actions).contenders { args with statName := stat } = [] := by
      refine List.filter_eq_nil_iff.mpr fun r hr hcontends => ?_
      obtain ⟨hgame, hcycle, hlisted⟩ := of_decide_eq_true hcontends
      exact hstat r (List.mem_filter.mpr ⟨hr, r.inCycle_iff.mpr ⟨hgame, hcycle⟩⟩) hlisted
    have hclosed := distribute_closes hunlisted
    have hcount := distribute_count hstats hunlisted
    rw [hnobody, List.length_nil, Nat.zero_min] at hcount
    obtain rfl := List.length_eq_zero_iff.mp hcount
    exact ⟨s₁, hunlisted, hclosed⟩

theorem played_pays_listed :
    ∃ (s' : State) (out : List Transfer),
      distribute Sample.env (Sample.context 1100) (run Sample.env Sample.played)
        (Sample.payout 1 [60, 40]) = .ok (s', out) ∧
      out.length =
        min ((run Sample.env Sample.played).contenders (Sample.payout 1 [60, 40])).length 2 ∧
      (out ≠ [] ↔ ∃ r ∈ (run Sample.env Sample.played).gamerecords.rows, r.gameId = 1 ∧
        r.cycleNumber = 1 ∧ Sample.kills ∈ r.statsNames) ∧
      s'.Closed 1 1 ∧
      ∀ stat, (∀ r ∈ (run Sample.env Sample.played).bucket 1 1, stat ∉ r.statsNames) →
        ∃ s₁, distribute Sample.env (Sample.context 1100) (run Sample.env Sample.played)
            { Sample.payout 1 [60, 40] with statName := stat } = .ok (s₁, []) ∧ s₁.Closed 1 1 :=
  ⟨_, _, rfl, distribute_pays_iff_listed Sample.env Sample.played (Sample.context 1100)
    (Sample.payout 1 [60, 40]) rfl⟩

theorem closed_without_payment :
    ¬ ∀ (env : Env) (actions : List Action) (ctx : Context) (args : DistributeArgs) (s' : State)
      (out : List Transfer), distribute env ctx (run env actions) args = .ok (s', out) →
      (∃ r ∈ (run env actions).gamerecords.rows, r.gameId = args.gameId ∧
        r.cycleNumber = args.cycleNumber) →
      out ≠ [] := by
  intro h
  exact h Sample.env Sample.played (Sample.context 1100)
    { Sample.payout 1 [60, 40] with statName := ⟨8⟩ } _ _ rfl (by decide) rfl

end GameRewards
