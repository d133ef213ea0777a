import GameRewards.Invariant

/-!
# Closing a cycle

A `distribute` closes its cycle. Until the next `initcontract` the cycle stays
closed and no second `distribute` passes; that the cycle has ended by then is
only checked in 32 bits.
-/

namespace GameRewards

-- ---------------------------------------------------------------------------
-- A closed cycle stays closed
-- ---------------------------------------------------------------------------

/-- Without a reset a cycle is closed by its `distribute` and by nothing else,
and is never opened again. -/
theorem Effect.closed_iff (he : Effect env s a s' out) (hreset : a.call.isInit = false) :
    s'.Closed g c ↔ s.Closed g c ∨ a.call.distributes g c = true := by
  cases he with
  | reset _ => cases hreset
  | configured hcall hs =>
    unfold State.Closed
    simp [hs.rewards, Call.not_distributes (Call.not_isDistribute hcall)]
  | recorded _ => simp [State.Closed, Call.distributes]
  | cleared _ => simp [State.Closed, Call.distributes]
  | distributed hd => rw [hd.closed_iff, Call.distributes_iff]

theorem run_closed_iff
    (hreset : ∀ e ∈ History.events (exec env) s actions, e.request.call.isInit = false) :
    (History.run (exec env) s actions).Closed g c ↔
      s.Closed g c ∨
        ∃ d ∈ History.events (exec env) s actions, d.request.call.distributes g c = true := by
  refine History.history_induction
    (P := fun evs t => (∀ e ∈ evs, e.request.call.isInit = false) →
      (t.Closed g c ↔ s.Closed g c ∨ ∃ d ∈ evs, d.request.call.distributes g c = true))
    (fun _ => by simp) ?_ actions hreset
  intro evs t a t' out ih hx hall
  have hlast : a.call.isInit = false := hall _ (List.mem_append_right _ List.mem_cons_self)
  rw [(exec_effect hx).closed_iff hlast, ih fun e he => hall e (List.mem_append_left _ he), or_assoc]
  simp only [List.mem_append, List.mem_singleton, or_and_right, exists_or, exists_eq_left]

theorem Effect.distributes {a : Action} (he : Effect env s a s' out)
    (h : a.call.distributes g c = true) :
    ¬ s.Closed g c ∧ s'.Closed g c := by
  obtain ⟨args, hcall, rfl, rfl⟩ := Call.distributes_args h
  obtain ⟨_, _, _, _, hd⟩ := he.of_distribute hcall
  refine ⟨?_, hd.closed_iff.mpr (.inr ⟨rfl, rfl⟩)⟩
  rintro ⟨d, hmem, hkey⟩
  exact hd.open_cycle d hmem hkey

theorem closed_at (hsplit : events env actions = before ++ e :: (between ++ e' :: later))
    (hreset : ∀ i ∈ between, i.request.call.isInit = false) (h : e.post.Closed g c) :
    e'.pre.Closed g c := by
  obtain ⟨_, _, -, -, -, hrest, -⟩ := History.segment hsplit
  obtain ⟨_, _, -, hbetween, hpre, -, -⟩ := History.segment hrest
  rw [← hbetween] at hreset
  rw [← hpre]
  exact (run_closed_iff hreset).mpr (.inl h)

/-- The log never lists a game and cycle twice, and between two successful
`distribute` calls for the same game and cycle the contract was initialized
again. -/
theorem no_double_distribution (env : Env) (actions : List Action) :
    ((run env actions).rewardsrec.rows.map fun d => (d.gameId, d.cycleNumber)).Nodup ∧
    ∀ g c before e between e' later, events env actions = before ++ e :: (between ++ e' :: later) →
      e.request.call.distributes g c = true → e'.request.call.distributes g c = true →
      ∃ i ∈ between, i.request.call.isInit = true := by
  constructor
  · refine List.Nodup.map_on (fun d hd d' hd' h => ?_) (run env actions).rewardsrec.nodup
    obtain ⟨hgame, hcycle⟩ := Prod.mk.inj h
    exact (run_invariant env actions).once d hd d' hd' hgame hcycle
  · intro g c before e between e' later hsplit he he'
    by_contra hnone
    have hreset : ∀ i ∈ between, i.request.call.isInit = false := by simpa using hnone
    have hmem : e ∈ events env actions := by simp [hsplit]
    have hmem' : e' ∈ events env actions := by simp [hsplit]
    have hclosed : e.post.Closed g c := ((event_effect hmem).distributes he).2
    have hopen : ¬ e'.pre.Closed g c := ((event_effect hmem').distributes he').1
    exact hopen (closed_at hsplit hreset hclosed)

-- ---------------------------------------------------------------------------
-- A closed cycle and its end
-- ---------------------------------------------------------------------------

/-- The cycle has ended, in unbounded time. -/
def GlobalConfig.Ended (g : GlobalConfig) (now : TimePointSec) (cycle : UInt32) : Prop :=
  1 ≤ cycle.toNat ∧ g.cyclesInitiationTime.toNat + cycle.toNat * g.cycleLengthSec.toNat ≤ now.toNat

instance : Decidable (GlobalConfig.Ended g now cycle) := inferInstanceAs (Decidable (_ ∧ _))

theorem Distribution.ended (h : Distribution env ctx s args s' out global token distConfig row)
    (hvalid : global.Valid) (hstart : global.cyclesInitiationTime ≤ ctx.now) :
    global.Ended ctx.now args.cycleNumber := by
  obtain ⟨current, hcurrent, hlt⟩ := h.cycle_lt
  rw [GlobalConfig.getCurrentCycle_ok hvalid] at hcurrent
  obtain rfl := Except.ok.inj hcurrent
  have hlt := UInt32.lt_iff_toNat_lt.mp hlt
  rw [GlobalConfig.cycle_toNat hvalid hstart] at hlt
  refine ⟨UInt32.lt_iff_toNat_lt.mp h.cycle_pos, ?_⟩
  exact ((global.calendar hvalid).lt_periodOf_iff (UInt32.le_iff_toNat_le.mp hstart)).mp hlt

/-- A successful `distribute` is for an ended cycle exactly when it does not
come before the start of the first cycle: before it, the elapsed time wraps. -/
theorem distribute_ended_iff (env : Env) (actions : List Action) (ctx : Context)
    (args : DistributeArgs) (hg : (run env actions).globalconfig = some global)
    (h : distribute env ctx (run env actions) args = .ok (s', out)) :
    global.Ended ctx.now args.cycleNumber ↔ global.cyclesInitiationTime ≤ ctx.now := by
  have hvalid : global.Valid := (run_invariant env actions).globals global hg
  obtain ⟨g, _, _, _, hd⟩ := distribute_ok h
  obtain rfl : global = g := Option.some.inj (hg.symm.trans hd.global_eq)
  constructor
  · rintro ⟨-, hend⟩
    exact UInt32.le_iff_toNat_le.mpr ((Nat.le_add_right _ _).trans hend)
  · exact hd.ended hvalid

theorem distribute_before_start :
    ¬ ∀ (env : Env) (actions : List Action) (ctx : Context) (args : DistributeArgs)
      (global : GlobalConfig) (s' : State) (out : List Transfer),
      (run env actions).globalconfig = some global →
      distribute env ctx (run env actions) args = .ok (s', out) →
      global.Ended ctx.now args.cycleNumber := by
  intro h
  have hended := h Sample.env (Sample.setup 1000 2000 100) (Sample.context 1000)
    (Sample.payout 1 [100]) ⟨true, 2000, 100, 1000, 10, 1⟩ _ _ (by decide) rfl
  exact absurd hended (by decide)

theorem distribute_at_end :
    GlobalConfig.Ended ⟨true, 2000, 100, 1000, 10, 1⟩ 2100 1 ↔ (2000 : TimePointSec) ≤ 2100 :=
  distribute_ended_iff Sample.env (Sample.setup 1000 2000 100) (Sample.context 2100)
    (Sample.payout 1 [100]) (by decide) rfl

end GameRewards
