import GameRewards.Admission
import GameRewards.Winners
import Mathlib.Data.List.Forall2

/-!
# The order of submission

Two deployments hold the same results of a cycle, stored in any two orders,
and sort them with any two routines. `distribute` behaves the same on both, up
to the order of ties.
-/

namespace GameRewards

open MultiIndex (Handle)

/-- The deployments differ in the sorting routine and the records only, and
the records of the cycle hold the same results. -/
structure Reordered (args : DistributeArgs) (env₁ : Env) (s₁ : State) (env₂ : Env) (s₂ : State) :
    Prop where
  self : env₁.self = env₂.self
  frame : s₁ = { s₂ with gamerecords := s₁.gamerecords }
  results : ((s₁.bucket args.gameId args.cycleNumber).map GameRecords.reported).Perm
    ((s₂.bucket args.gameId args.cycleNumber).map GameRecords.reported)

theorem Reordered.symm (h : Reordered args env₁ s₁ env₂ s₂) : Reordered args env₂ s₂ env₁ s₁ where
  self := h.self.symm
  frame := by rw [h.frame]
  results := h.results.symm

-- ---------------------------------------------------------------------------
-- The same scores
-- ---------------------------------------------------------------------------

theorem score_eq (h : GameRecords.reported r = GameRecords.reported r') :
    r.score statName = r'.score statName := by
  have hnames : r.statsNames = r'.statsNames := congrArg GameRecordData.statsNames h
  have hvalues : r.statsValues = r'.statsValues := congrArg GameRecordData.statsValues h
  unfold GameRecords.score
  rw [hnames, hvalues]

theorem entry_factors (statName : Name) :
    ∃ f, GameRecords.entry statName = f ∘ GameRecords.reported :=
  ⟨fun record => ((record.statsNames.findIdx? (· = statName)).bind fun index =>
    record.statsValues[index]?).map fun value => (record.player, value), rfl⟩

theorem entry_eq (h : GameRecords.reported r = GameRecords.reported r') :
    r.entry statName = r'.entry statName := by
  obtain ⟨f, hf⟩ := entry_factors statName
  rw [hf]
  exact congrArg f h

theorem Reordered.scores_perm (h : Reordered args env₁ s₁ env₂ s₂) :
    (s₁.scores args).Perm (s₂.scores args) := by
  obtain ⟨f, hf⟩ := entry_factors args.statName
  unfold State.scores
  rw [hf, ← List.filterMap_map, ← List.filterMap_map]
  exact h.results.filterMap f

-- ---------------------------------------------------------------------------
-- Both succeed or both fail
-- ---------------------------------------------------------------------------

theorem Reordered.admission_eq (h : Reordered args env₁ s₁ env₂ s₂) (ctx : Context) :
    admission env₁ ctx s₁ args = admission env₂ ctx s₂ args := by
  rw [h.frame]
  unfold admission requireAuth
  rw [h.self]

theorem Reordered.collects (h : Reordered args env₁ s₁ env₂ s₂)
    (hs : collectScores args.statName (s₁.bucket args.gameId args.cycleNumber) =
      .ok (s₁.scores args)) :
    collectScores args.statName (s₂.bucket args.gameId args.cycleNumber) =
      .ok (s₂.scores args) := by
  obtain ⟨hvalues, -⟩ := collectScores_ok_iff.mp hs
  refine collectScores_ok_iff.mpr ⟨fun r hr hlisted => ?_, rfl⟩
  obtain ⟨r', hr', hsame⟩ := List.mem_map.mp
    (h.results.mem_iff.mpr (List.mem_map_of_mem (f := GameRecords.reported) hr))
  have hnames : r'.statsNames = r.statsNames := congrArg GameRecordData.statsNames hsame
  rw [← score_eq hsame]
  exact hvalues r' hr' (hnames ▸ hlisted)

structure SameMoney (p q : Payout) : Prop where
  tier : p.currentTier = q.currentTier
  remaining : p.remainingReward = q.remainingReward
  total : p.distributedTotal = q.distributedTotal

theorem payTiers_sim (hlen : players₁.length = players₂.length) (hp : SameMoney p₁ p₂)
    (h : payTiers env₁ args distConfig players₁ p₁ = .ok q₁) :
    ∃ q₂, payTiers env₂ args distConfig players₂ p₂ = .ok q₂ := by
  induction players₁ generalizing players₂ p₁ p₂ with
  | nil =>
    rw [List.length_nil, eq_comm, List.length_eq_zero_iff] at hlen
    exact ⟨p₂, by rw [hlen]; rfl⟩
  | cons entry₁ rest₁ ih =>
    cases players₂ with
    | nil => cases hlen
    | cons entry₂ rest₂ =>
      unfold payTiers at h ⊢
      rw [← hp.tier, ← hp.remaining, ← hp.total]
      split at h
      · exact ⟨p₂, rfl⟩
      · simp only [bind_ok, check_ok] at h ⊢
        obtain ⟨reward, hreward, _, hpos, remaining, hremaining, total, htotal, h⟩ := h
        have hrest : ∀ p, SameMoney _ p → ∃ q₂, payTiers env₂ args distConfig rest₂ p = .ok q₂ :=
          fun p hp => ih (Nat.succ.inj hlen) hp h
        obtain ⟨q₂, hq₂⟩ := hrest
          { p₂ with
            currentTier := p₁.currentTier + 1
            rewardedPlayers := p₂.rewardedPlayers ++ [entry₂.1]
            playerRewards := p₂.playerRewards ++ [reward]
            remainingReward := remaining
            distributedTotal := total
            transfers := p₂.transfers ++
              [transferTo env₂ args.tokenContract distConfig entry₂.1 reward] }
          ⟨rfl, rfl, rfl⟩
        exact ⟨q₂, reward, hreward, (), hpos, remaining, hremaining, total, htotal, hq₂⟩

theorem distributeRewards_sim (hlen : players₁.length = players₂.length)
    (h : distributeRewards env₁ ctx rewardsrec args distConfig players₁ = .ok r₁) :
    ∃ r₂, distributeRewards env₂ ctx rewardsrec args distConfig players₂ = .ok r₂ := by
  simp only [distributeRewards, bind_ok, need_ok, pure_ok] at h ⊢
  obtain ⟨zero, hzero, p₁, hpay, ⟨id, handle⟩, hid, -⟩ := h
  obtain ⟨p₂, hpay₂⟩ := payTiers_sim hlen ⟨rfl, rfl, rfl⟩ hpay
  let row : RewardsRecorded := ⟨id, args.gameId, args.cycleNumber, args.statName,
    p₂.distributedTotal, p₂.rewardedPlayers, p₂.playerRewards, ctx.now⟩
  obtain ⟨handle', hstored⟩ : ∃ handle', handle.emplace row = some handle' :=
    Handle.emplace_available (Handle.ofTable_fresh _) hid rfl
  exact ⟨_, zero, hzero, p₂, hpay₂, (id, handle), hid, handle', hstored, rfl⟩

theorem Reordered.succeeds (h : Reordered args env₁ s₁ env₂ s₂)
    (hs : ∃ r, distribute env₁ ctx s₁ args = .ok r) : ∃ r, distribute env₂ ctx s₂ args = .ok r := by
  obtain ⟨r, hs⟩ := hs
  simp only [distribute_eq, settle, bind_ok, State.scan_eq_bucket] at hs ⊢
  obtain ⟨⟨global, distConfig⟩, hadmit, scores, hscores, paid, hpaid, -⟩ := hs
  rw [h.admission_eq] at hadmit
  obtain ⟨-, rfl⟩ := collectScores_ok_iff.mp hscores
  have hlen : ((env₁.sorter.sort (s₁.scores args)).take global.maxRewardTiers.toNat).length =
      ((env₂.sorter.sort (s₂.scores args)).take global.maxRewardTiers.toNat).length := by
    rw [List.length_take, List.length_take, (env₁.sorter.perm _).length_eq,
      (env₂.sorter.perm _).length_eq, h.scores_perm.length_eq]
  have hlog : s₁.rewardsrec = s₂.rewardsrec := by rw [h.frame]
  rw [hlog] at hpaid
  obtain ⟨paid₂, hpaid₂⟩ := distributeRewards_sim hlen hpaid
  exact ⟨_, _, hadmit, _, h.collects hscores, paid₂, hpaid₂, rfl⟩

-- ---------------------------------------------------------------------------
-- The same rewards
-- ---------------------------------------------------------------------------

theorem TierPaid.unique : Relator.RightUnique (TierPaid total) := by
  intro percentage reward reward' h h'
  exact Except.ok.inj (h.1.symm.trans h'.1)

/-- The row pays the record: its entry stands at rank `k` of the sorted
scores, and the reward of that rank is `reward`. -/
structure PaidAt (env : Env) (s : State) (args : DistributeArgs) (row : RewardsRecorded)
    (r : GameRecords) (k : Nat) (reward : Asset) : Prop where
  rank : ∃ entry, r.entry args.statName = some entry ∧
    (env.sorter.sort (s.scores args))[k]? = some entry
  winner : row.rewardedPlayers[k]? = some r.player
  paid : row.playerRewards[k]? = some reward

def Untied (s : State) (args : DistributeArgs) (r : GameRecords) : Prop :=
  (r.score args.statName).isSome = true ∧
    ∀ r' ∈ s.bucket args.gameId args.cycleNumber,
      r'.score args.statName = r.score args.statName → r' = r

theorem Untied.count_eq (h : Untied s args r) (hr : r ∈ s.bucket args.gameId args.cycleNumber)
    (hentry : r.entry args.statName = some entry) :
    (s.scores args).countP (fun a => a.2 = entry.2) = 1 := by
  obtain ⟨-, hunique⟩ := h
  have hscore : r.score args.statName = some entry.2 := by
    simp only [GameRecords.entry, Option.map_eq_some_iff] at hentry
    obtain ⟨value, hvalue, rfl⟩ := hentry
    exact hvalue
  have hnodup : (s.bucket args.gameId args.cycleNumber).Nodup := s.gamerecords.nodup.filter _
  rw [← List.count_eq_one_of_mem hnodup hr, State.scores, List.countP_filterMap, List.count]
  refine List.countP_congr fun r' hr' => ?_
  rw [beq_iff_eq]
  constructor
  · intro hscore'
    refine hunique r' hr' ?_
    cases hvalue : r'.score args.statName with
    | none => simp [GameRecords.entry, hvalue] at hscore'
    | some value =>
      rw [hscore]
      simpa [GameRecords.entry, hvalue] using hscore'
  · rintro rfl
    simp [hentry]

theorem Settlement.winner {sorted : List (Name × UInt64)} {entry : Name × UInt64}
    (h : Settlement env ctx args distConfig (sorted.take n) row transfers)
    (hrank : sorted[k]? = some entry) (hk : k < row.rewardedPlayers.length) :
    row.rewardedPlayers[k]? = some entry.1 := by
  rw [h.winners, List.length_map, List.length_take, List.length_take] at hk
  have htier : k < args.rewardPercentages.length := by omega
  have hcut : k < n := by omega
  rw [h.winners, List.getElem?_map, List.getElem?_take_of_lt htier, List.getElem?_take_of_lt hcut,
    hrank, Option.map_some]

theorem entry_player {entry : Name × UInt64} (h : GameRecords.entry statName r = some entry) :
    entry.1 = r.player := by
  simp only [GameRecords.entry, Option.map_eq_some_iff] at h
  obtain ⟨_, -, rfl⟩ := h
  rfl

theorem PaidAt.transfer {reward : Asset} (hpaid : PaidAt env₁ s₁ args row₁ r₁ k reward)
    (h : Reordered args env₁ s₁ env₂ s₂) (hsame : r₁.reported = r₂.reported)
    (hone : ∀ entry, r₁.entry args.statName = some entry →
      (s₁.scores args).countP (fun a => a.2 = entry.2) = 1)
    (hd : Distribution env₂ ctx s₂ args s₂' out₂ global token distConfig row₂)
    (hrewards : row₁.playerRewards = row₂.playerRewards) :
    PaidAt env₂ s₂ args row₂ r₂ k reward := by
  obtain ⟨⟨entry, hentry, hrank⟩, -, hreward⟩ := hpaid
  have hperm : (env₁.sorter.sort (s₁.scores args)).Perm (env₂.sorter.sort (s₂.scores args)) :=
    (env₁.sorter.perm _).trans (h.scores_perm.trans (env₂.sorter.perm _).symm)
  have hcount := hone entry hentry
  rw [← (env₁.sorter.perm _).countP_eq] at hcount
  have hrank₂ := Ranking.getElem?_of_perm (f := Prod.snd) (sorter_ordered env₁.sorter _)
    (sorter_ordered env₂.sorter _) hperm hcount hrank
  rw [entry_eq hsame] at hentry
  rw [hrewards] at hreward
  obtain ⟨hk, -⟩ := List.getElem?_eq_some_iff.mp hreward
  rw [← hd.settlement.lengths] at hk
  constructor
  · exact ⟨entry, hentry, hrank₂⟩
  · rw [hd.settlement.winner hrank₂ hk, entry_player hentry]
  · exact hreward

theorem Reordered.rewards_eq (h : Reordered args env₁ s₁ env₂ s₂)
    (hd₁ : Distribution env₁ ctx s₁ args s₁' out₁ global₁ token₁ distConfig₁ row₁)
    (hd₂ : Distribution env₂ ctx s₂ args s₂' out₂ global₂ token₂ distConfig₂ row₂) :
    row₁.playerRewards = row₂.playerRewards := by
  have hglobal : global₁ = global₂ := by
    have hsame : s₁.globalconfig = s₂.globalconfig := by rw [h.frame]
    exact Option.some.inj (hd₁.global_eq.symm.trans (hsame.trans hd₂.global_eq))
  subst hglobal
  have htiers₁ := hd₁.settlement.tiers
  have htiers₂ := hd₂.settlement.tiers
  rw [List.length_take, (env₁.sorter.perm _).length_eq, h.scores_perm.length_eq] at htiers₁
  rw [List.length_take, (env₂.sorter.perm _).length_eq] at htiers₂
  exact List.right_unique_forall₂' TierPaid.unique htiers₁ htiers₂

/-- Whatever the order of submission and of ties, `distribute` succeeds or
fails, pays the same rewards rank by rank, and treats every record without
ties the same. -/
theorem submission_order_moves_ties_only (args : DistributeArgs) (env₁ env₂ : Env) (s₁ s₂ : State)
    (ctx : Context) (h : Reordered args env₁ s₁ env₂ s₂) :
    ((∃ r, distribute env₁ ctx s₁ args = .ok r) ↔ ∃ r, distribute env₂ ctx s₂ args = .ok r) ∧
    ∀ s₁' out₁ s₂' out₂, distribute env₁ ctx s₁ args = .ok (s₁', out₁) →
      distribute env₂ ctx s₂ args = .ok (s₂', out₂) →
      ∃ row₁ row₂, s₁'.rewardsrec.rows = s₁.rewardsrec.rows ++ [row₁] ∧
        s₂'.rewardsrec.rows = s₂.rewardsrec.rows ++ [row₂] ∧
        row₁.playerRewards = row₂.playerRewards ∧
        ∀ r₁ ∈ s₁.bucket args.gameId args.cycleNumber, Untied s₁ args r₁ →
          ∀ r₂ ∈ s₂.bucket args.gameId args.cycleNumber, r₁.reported = r₂.reported →
            ∀ k reward, PaidAt env₁ s₁ args row₁ r₁ k reward ↔
              PaidAt env₂ s₂ args row₂ r₂ k reward := by
  constructor
  · exact ⟨h.succeeds, h.symm.succeeds⟩
  · intro s₁' out₁ s₂' out₂ h₁ h₂
    obtain ⟨_, _, _, row₁, hd₁⟩ := distribute_ok h₁
    obtain ⟨_, _, _, row₂, hd₂⟩ := distribute_ok h₂
    have hrewards := h.rewards_eq hd₁ hd₂
    refine ⟨row₁, row₂, hd₁.rewards_rows, hd₂.rewards_rows, hrewards, ?_⟩
    intro r₁ hr₁ huntied r₂ _ hsame k reward
    have hone : ∀ entry, r₁.entry args.statName = some entry →
        (s₁.scores args).countP (fun a => a.2 = entry.2) = 1 := fun _ => huntied.count_eq hr₁
    constructor
    · intro hpaid
      exact hpaid.transfer h hsame hone hd₂ hrewards
    · intro hpaid
      refine hpaid.transfer h.symm hsame.symm (fun entry hentry => ?_) hd₁ hrewards.symm
      rw [← h.scores_perm.countP_eq]
      exact hone entry (entry_eq hsame ▸ hentry)

def Sample.submitted (first second : GameRecordData) : State :=
  run Sample.env (Sample.setup 1000 1000 100 ++ [Sample.block 1050 (.recordgame [first, second])])

def Sample.inOrder : State :=
  Sample.submitted (Sample.result 10 50 1010) (Sample.result 11 40 1020)

def Sample.swapped : State :=
  Sample.submitted (Sample.result 11 40 1020) (Sample.result 10 50 1010)

theorem both_orders_pay_the_same :
    ((∃ r, distribute Sample.env (Sample.context 1100) Sample.inOrder (Sample.payout 1 [60, 40]) =
        .ok r) ↔
      ∃ r, distribute Sample.env (Sample.context 1100) Sample.swapped (Sample.payout 1 [60, 40]) =
        .ok r) ∧
    ∀ s₁' out₁ s₂' out₂,
      distribute Sample.env (Sample.context 1100) Sample.inOrder (Sample.payout 1 [60, 40]) =
        .ok (s₁', out₁) →
      distribute Sample.env (Sample.context 1100) Sample.swapped (Sample.payout 1 [60, 40]) =
        .ok (s₂', out₂) →
      ∃ row₁ row₂, s₁'.rewardsrec.rows = Sample.inOrder.rewardsrec.rows ++ [row₁] ∧
        s₂'.rewardsrec.rows = Sample.swapped.rewardsrec.rows ++ [row₂] ∧
        row₁.playerRewards = row₂.playerRewards ∧
        ∀ r₁ ∈ Sample.inOrder.bucket 1 1, Untied Sample.inOrder (Sample.payout 1 [60, 40]) r₁ →
          ∀ r₂ ∈ Sample.swapped.bucket 1 1, r₁.reported = r₂.reported →
            ∀ k reward,
              PaidAt Sample.env Sample.inOrder (Sample.payout 1 [60, 40]) row₁ r₁ k reward ↔
                PaidAt Sample.env Sample.swapped (Sample.payout 1 [60, 40]) row₂ r₂ k reward :=
  submission_order_moves_ties_only (Sample.payout 1 [60, 40]) Sample.env Sample.env Sample.inOrder
    Sample.swapped (Sample.context 1100) ⟨rfl, by decide, by decide⟩

end GameRewards
