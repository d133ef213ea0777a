import GameRewards.RecordHistory

/-!
# The records of a reachable state

No result is stored twice, every row is well formed under the current globals,
and so no action reads past the end of a vector or divides by zero in the cycle
arithmetic.
-/

namespace GameRewards

theorem no_duplicate_results (env : Env) (actions : List Action) :
    (run env actions).gamerecords.rows.Pairwise fun r r' => ¬ r.SameResult r' := by
  refine (run env actions).gamerecords.nodup.pairwise_of_forall_ne fun r hr r' hr' hne hsame => ?_
  exact hne ((run_invariant env actions).distinct r hr r' hr' hsame)

-- ---------------------------------------------------------------------------
-- No access out of range
-- ---------------------------------------------------------------------------

def InBounds (x : Result α) : Prop := FailsOnly (· ≠ .outOfRange) x

namespace InBounds

theorem bind {x : Result α} {f : α → Result β} (hx : InBounds x) (hf : ∀ a, InBounds (f a)) :
    InBounds (x >>= f) := FailsOnly.bind hx hf

theorem pure (a : α) : InBounds (.ok a) := FailsOnly.ok a

theorem check {cond : Prop} [Decidable cond] : InBounds (check cond message) := FailsOnly.check nofun

theorem need {o : Option α} : InBounds (need o message) := FailsOnly.need nofun

theorem requireAuth : InBounds (requireAuth env ctx) := by
  unfold GameRewards.requireAuth
  split
  · exact pure ()
  · rintro _ ⟨⟩
    exact nofun

theorem sub (a b : Asset) : InBounds (a.sub b) :=
  bind check fun _ => bind check fun _ => bind check fun _ => pure _

theorem add (a b : Asset) : InBounds (a.add b) :=
  bind check fun _ => bind check fun _ => bind check fun _ => pure _

theorem tierReward (total : Asset) (percentage : UInt8) :
    InBounds (tierReward total percentage) := by
  refine bind (bind check fun _ => bind check fun _ => pure _) fun product => ?_
  refine bind (bind check fun _ => bind check fun _ => pure _) fun reward => ?_
  refine bind ?_ fun amount => pure _
  unfold adjustToPrecision
  split
  · rintro _ ⟨⟩
    exact nofun
  · exact pure _

theorem payTiers (players : List (Name × UInt64)) (p : Payout) :
    InBounds (payTiers env args distConfig players p) := by
  induction players generalizing p with
  | nil => exact pure p
  | cons entry players ih =>
    unfold GameRewards.payTiers
    split
    · exact pure p
    · refine bind (tierReward _ _) fun reward => bind check fun _ => ?_
      refine bind (sub _ _) fun remaining => bind (add _ _) fun total => ?_
      exact ih _

theorem distributeRewards :
    InBounds (distributeRewards env ctx rewardsrec args distConfig players) := by
  refine bind (bind check fun _ => bind check fun _ => pure _) fun zero => ?_
  exact bind (payTiers _ _) fun p => bind need fun _ => bind need fun _ => pure _

theorem getCurrentCycle (g : GlobalConfig) (now : TimePointSec) :
    InBounds (g.getCurrentCycle now) := by
  unfold GlobalConfig.getCurrentCycle
  split
  · exact pure 0
  · refine bind ?_ fun n => pure _
    unfold div32
    split
    · rintro _ ⟨⟩
      exact nofun
    · exact pure _

end InBounds

theorem distribute_inBounds {s : State}
    (hlen : ∀ r ∈ s.gamerecords.rows, r.statsNames.length = r.statsValues.length) :
    InBounds (distribute env ctx s args) := by
  refine .bind .requireAuth fun _ => .bind .need fun global => ?_
  refine .bind .check fun _ => .bind .check fun _ => .bind .check fun _ => .bind .check fun _ => ?_
  refine .bind .need fun game => .bind .check fun _ => .bind .check fun _ => ?_
  refine .bind .need fun token => .bind .check fun _ => .bind .check fun _ => ?_
  refine .bind .need fun distConfig => ?_
  refine .bind (.getCurrentCycle _ _) fun current => .bind .check fun _ => .bind .check fun _ => ?_
  refine .bind ?_ fun scores => .bind .distributeRewards fun _ => .pure _
  rw [s.scan_eq_bucket]
  obtain ⟨scores, hscores⟩ := collectScores_exists
    fun r (hr : r ∈ s.bucket _ _) => hlen r (List.mem_filter.mp hr).1
  rw [hscores]
  exact .pure _

-- ---------------------------------------------------------------------------
-- Well-formed records
-- ---------------------------------------------------------------------------

/-- A row against the globals and the block time, in unbounded integers. -/
structure GameRecords.WellFormed (g : GlobalConfig) (now : TimePointSec) (r : GameRecords) : Prop where
  lengths : r.statsNames.length = r.statsValues.length
  started : g.cyclesInitiationTime ≤ r.gameCompletionTime
  not_future : r.gameCompletionTime ≤ now
  cycle : r.cycleNumber.toNat =
    (r.gameCompletionTime.toNat - g.cyclesInitiationTime.toNat) / g.cycleLengthSec.toNat + 1
  cycle_pos : 1 ≤ r.cycleNumber.toNat
  cycle_le : ∀ later, now ≤ later →
    ∃ current, g.getCurrentCycle later = .ok current ∧ r.cycleNumber ≤ current

theorem Recorded.wellFormed (h : Recorded g r) (hg : g.Valid) (hnow : r.gameCompletionTime ≤ now) :
    r.WellFormed g now := by
  have hcycle : r.cycleNumber.toNat = (g.calendar hg).periodOf r.gameCompletionTime.toNat := by
    rw [h.cycle, GlobalConfig.cycle_toNat hg h.started]
  constructor
  · exact h.lengths
  · exact h.started
  · exact hnow
  · exact hcycle
  · rw [hcycle]
    exact (g.calendar hg).periodOf_pos _
  · intro later hlater
    have htime : r.gameCompletionTime ≤ later := UInt32.le_trans hnow hlater
    refine ⟨_, GlobalConfig.getCurrentCycle_ok hg later, ?_⟩
    rw [UInt32.le_iff_toNat_le, GlobalConfig.cycle_toNat hg (UInt32.le_trans h.started htime), hcycle]
    exact (g.calendar hg).periodOf_mono (UInt32.le_iff_toNat_le.mp htime)

theorem getCurrentCycle_ne_divideByZero (g : GlobalConfig) (now : TimePointSec) :
    g.getCurrentCycle now ≠ .error .divideByZero := by
  unfold GlobalConfig.getCurrentCycle
  intro h
  split at h
  · cases h
  · rename_i hlen
    have hne : g.cycleLengthSec ≠ 0 := by
      intro h0
      simp [h0] at hlen
    rw [div32, if_neg hne] at h
    cases h

/-- At any time from the last action on, every row of a reachable state is well
formed under the current globals; no vector access of `distribute` is out of
range and the cycle arithmetic never divides by zero. -/
theorem records_well_formed (env : Env) (actions : List Action) (now : TimePointSec)
    (hnow : ∀ a ∈ actions, a.ctx.now ≤ now) :
    (∀ r ∈ (run env actions).gamerecords.rows,
      ∃ g, (run env actions).globalconfig = some g ∧ r.WellFormed g now) ∧
    (∀ ctx args, distribute env ctx (run env actions) args ≠ .error .outOfRange) ∧
    (∀ ctx t, determineCycle ctx (run env actions).globalconfig t ≠ .error .divideByZero) ∧
    ∀ g t, (run env actions).globalconfig = some g → g.getCurrentCycle t ≠ .error .divideByZero := by
  have hinv := run_invariant env actions
  refine ⟨?_, ?_, ?_, ?_⟩
  · intro r hr
    obtain ⟨g, hg, hrec⟩ := hinv.records r hr
    obtain ⟨a, ha, htime⟩ := run_time_le env actions r hr
    exact ⟨g, hg, hrec.wellFormed (hinv.globals g hg) (UInt32.le_trans htime (hnow a ha))⟩
  · exact fun ctx args h => distribute_inBounds hinv.stats_lengths _ h rfl
  · exact fun ctx t => determineCycle_ne_divideByZero
  · exact fun g t _ => getCurrentCycle_ne_divideByZero g t

theorem late_records_well_formed :
    (∀ r ∈ (run Sample.env Sample.late).gamerecords.rows,
      ∃ g, (run Sample.env Sample.late).globalconfig = some g ∧ r.WellFormed g 1101) ∧
    (∀ ctx args, distribute Sample.env ctx (run Sample.env Sample.late) args ≠ .error .outOfRange) ∧
    (∀ ctx t, determineCycle ctx (run Sample.env Sample.late).globalconfig t ≠ .error .divideByZero) ∧
    ∀ g t, (run Sample.env Sample.late).globalconfig = some g →
      g.getCurrentCycle t ≠ .error .divideByZero :=
  records_well_formed Sample.env Sample.late 1101 (by decide)

end GameRewards
