import GameRewards.RecordHistory

/-!
# Across initializations

`initcontract` leaves nothing of the state it found. So the same result can be
reported and paid again, if its completion time is not before the new start.
The start may lie 60 seconds in the past: only a result completed, paid and
wiped within this window comes back.
-/

namespace GameRewards

open MultiIndex (Table)

-- ---------------------------------------------------------------------------
-- Nothing is left
-- ---------------------------------------------------------------------------

/-- The clearing loop empties the table, whatever fuel it has from one pass
for each row on. -/
def ClearingEnds [LinearOrder ι] {pk : α → ι} (t : Table pk) : Prop :=
  ∀ fuel, t.rows.length ≤ fuel → Table.clearFrom fuel t = .empty

theorem clearingEnds [LinearOrder ι] {pk : α → ι} (t : Table pk) : ClearingEnds t :=
  fun _ hfuel => t.clearFrom_eq_empty hfuel

/-- Two states of any content are the same after an `initcontract` with the
same arguments, and so is everything that follows. -/
theorem initcontract_resets (env : Env) (ctx₁ ctx₂ : Context) (s₁ s₂ : State) (args : InitArgs)
    (h₁ : initcontract env ctx₁ s₁ args = .ok s₁') (h₂ : initcontract env ctx₂ s₂ args = .ok s₂') :
    s₁' = s₂' ∧
    (s₁'.gameconfig.rows = [] ∧ s₁'.gamerecords.rows = [] ∧ s₁'.rewarddist.rows = [] ∧
      s₁'.rewardsrec.rows = [] ∧ s₁'.tokenconfig.rows = []) ∧
    s₁'.globalconfig = some
      { initialized := true
        cyclesInitiationTime := args.startTime
        cycleLengthSec := args.cycleLengthSec
        maxCycleLengthSec := args.maxCycleLengthSec
        maxRewardTiers := args.maxRewardTiers
        minRewardPercentage := args.minRewardPercentage } ∧
    (∀ later, History.events (exec env) s₁' later = History.events (exec env) s₂' later ∧
      History.run (exec env) s₁' later = History.run (exec env) s₂' later) ∧
    ClearingEnds s₁.gameconfig ∧ ClearingEnds s₁.gamerecords ∧ ClearingEnds s₁.rewarddist ∧
      ClearingEnds s₁.rewardsrec ∧ ClearingEnds s₁.tokenconfig := by
  obtain ⟨-, rfl⟩ := initcontract_ok h₁
  obtain ⟨-, rfl⟩ := initcontract_ok h₂
  refine ⟨rfl, ⟨rfl, rfl, rfl, rfl, rfl⟩, rfl, fun _ => ⟨rfl, rfl⟩, ?_⟩
  exact ⟨clearingEnds _, clearingEnds _, clearingEnds _, clearingEnds _, clearingEnds _⟩

theorem late_resets :
    ∃ s₁' s₂' : State, s₁' = s₂' ∧
      (s₁'.gameconfig.rows = [] ∧ s₁'.gamerecords.rows = [] ∧ s₁'.rewarddist.rows = [] ∧
        s₁'.rewardsrec.rows = [] ∧ s₁'.tokenconfig.rows = []) ∧
      s₁'.globalconfig = some ⟨true, 2000, 100, 1000, 10, 1⟩ ∧
      (∀ later, History.events (exec Sample.env) s₁' later =
          History.events (exec Sample.env) s₂' later ∧
        History.run (exec Sample.env) s₁' later = History.run (exec Sample.env) s₂' later) ∧
      ClearingEnds (run Sample.env Sample.late).gameconfig ∧
      ClearingEnds (run Sample.env Sample.late).gamerecords ∧
      ClearingEnds (run Sample.env Sample.late).rewarddist ∧
      ClearingEnds (run Sample.env Sample.late).rewardsrec ∧
      ClearingEnds (run Sample.env Sample.late).tokenconfig :=
  ⟨_, _, initcontract_resets Sample.env (Sample.context 2000) (Sample.context 2000)
    (run Sample.env Sample.late) State.deployed ⟨2000, 100, 1000, 10, 1⟩ rfl rfl⟩

structure PaysFor (env : Env) (e : Event) (args : DistributeArgs) (r : GameRecords) : Prop where
  call : e.request.call = .distribute args
  mem : r ∈ e.pre.gamerecords.rows
  game : r.gameId = args.gameId
  cycle : r.cycleNumber = args.cycleNumber
  paid : ∃ entry ∈ (env.sorter.sort (e.pre.scores args)).take args.rewardPercentages.length,
    r.entry args.statName = some entry

theorem PaysFor.distributes (h : PaysFor env e args r) :
    e.request.call.distributes r.gameId r.cycleNumber = true := by
  rw [h.call, Call.distributes_iff]
  exact ⟨h.game.symm, h.cycle.symm⟩

-- ---------------------------------------------------------------------------
-- Where the globals come from
-- ---------------------------------------------------------------------------

theorem Effect.globals (he : Effect env s a s' out) (hreset : a.call.isInit = false) :
    s'.globalconfig = s.globalconfig := by
  cases he with
  | reset _ => cases hreset
  | configured _ hs => exact hs.globals
  | recorded _ => rfl
  | cleared _ => rfl
  | distributed hd => rw [hd.frame]

/-- The globals after a history that started with `g`: kept, or set by an
`initcontract` of the history. -/
inductive GlobalsFrom (g : Option GlobalConfig) (evs : List Event) : Option GlobalConfig → Prop
  | kept : (∀ i ∈ evs, i.request.call.isInit = false) → GlobalsFrom g evs g
  | reset : i ∈ evs → i.request.call = .initcontract args → args.Accepted i.request.ctx.now →
      GlobalsFrom g evs (some args.toGlobal)

theorem GlobalsFrom.step (h : GlobalsFrom g evs s.globalconfig) (he : Effect env s a s' out) :
    GlobalsFrom g (evs ++ [⟨s, a, out, s'⟩]) s'.globalconfig := by
  cases hinit : a.call.isInit with
  | true =>
    obtain ⟨args, hcall, haccepted, rfl⟩ := he.of_init hinit
    exact .reset (List.mem_append_right _ List.mem_cons_self) hcall haccepted
  | false =>
    rw [he.globals hinit]
    generalize s.globalconfig = g' at *
    cases h with
    | kept hnone =>
      exact .kept (List.forall_mem_append.mpr ⟨hnone, List.forall_mem_singleton.mpr hinit⟩)
    | reset hi hcall haccepted => exact .reset (List.mem_append_left _ hi) hcall haccepted

theorem run_globals (env : Env) (s : State) (actions : List Action) :
    GlobalsFrom s.globalconfig (History.events (exec env) s actions)
      (History.run (exec env) s actions).globalconfig :=
  History.history_induction (P := fun evs t => GlobalsFrom s.globalconfig evs (State.globalconfig t))
    (.kept (by simp)) (fun _ _ _ _ _ h hx => h.step (exec_effect hx)) actions

-- ---------------------------------------------------------------------------
-- The window
-- ---------------------------------------------------------------------------

theorem PaysFor.completed (h : PaysFor env e args r) (ht : Timed actions)
    (hsplit : events env actions = before ++ e :: later) :
    r.gameCompletionTime < e.request.ctx.now := by
  have he : e ∈ events env actions := by simp [hsplit]
  have hinv := event_invariant he
  obtain ⟨g, hg, hrec⟩ := hinv.records r h.mem
  have hvalid := hinv.globals g hg
  obtain ⟨is₁, is₂, rfl, -, hpre, -, -⟩ := History.segment hsplit
  -- The row was stored by an earlier action.
  obtain ⟨a, ha, htime⟩ := run_time_le env is₁ r (by rw [run, hpre]; exact h.mem)
  have hnow : r.gameCompletionTime ≤ e.request.ctx.now :=
    UInt32.le_trans htime ((List.pairwise_append.mp ht).2.2 a ha _ List.mem_cons_self)
  have hstart : g.cyclesInitiationTime ≤ e.request.ctx.now := UInt32.le_trans hrec.started hnow
  obtain ⟨global, _, _, _, hd⟩ := (event_effect he).of_distribute h.call
  obtain rfl : g = global := Option.some.inj (hg.symm.trans hd.global_eq)
  have hended := (hd.ended hvalid hstart).2
  have hcycle : args.cycleNumber.toNat = (g.calendar hvalid).periodOf r.gameCompletionTime.toNat := by
    rw [← h.cycle, hrec.cycle, GlobalConfig.cycle_toNat hvalid hrec.started]
  have hclose := (g.calendar hvalid).lt_closes_periodOf (UInt32.le_iff_toNat_le.mp hrec.started)
  rw [← hcycle] at hclose
  exact UInt32.lt_iff_toNat_lt.mpr (hclose.trans_le hended)

theorem PaysFor.reset_between (h : PaysFor env e args r) (h' : PaysFor env e' args' r')
    (hsame : r.SameResult r') (hsplit : events env actions = before ++ e :: (between ++ e' :: later)) :
    ∃ i ∈ between, ∃ init, i.request.call = .initcontract init ∧ init.Accepted i.request.ctx.now ∧
      e'.pre.globalconfig = some init.toGlobal := by
  have he : e ∈ events env actions := by simp [hsplit]
  have he' : e' ∈ events env actions := by simp [hsplit]
  obtain ⟨_, _, -, -, -, hrest, -⟩ := History.segment hsplit
  obtain ⟨js, _, -, hbetween, hpre, -, -⟩ := History.segment hrest
  have horigin := run_globals env e.post js
  rw [hbetween, hpre] at horigin
  generalize hglobals : e'.pre.globalconfig = globals at horigin
  cases horigin with
  | reset hi hcall haccepted => exact ⟨_, hi, _, hcall, haccepted, rfl⟩
  | kept hreset =>
    -- Under one configuration the result has one cycle, and that is closed.
    obtain ⟨g, hg, hrec⟩ := (event_invariant he).records r h.mem
    obtain ⟨g', hg', hrec'⟩ := (event_invariant he').records r' h'.mem
    have hinit : e.request.call.isInit = false := by rw [h.call]; rfl
    rw [hglobals, (event_effect he).globals hinit, hg] at hg'
    obtain rfl := Option.some.inj hg'
    have hcycle : r'.cycleNumber = r.cycleNumber := by rw [hrec'.cycle, hrec.cycle, hsame.time]
    have hdist' := h'.distributes
    rw [← hsame.game, hcycle] at hdist'
    have hclosed := ((event_effect he).distributes h.distributes).2
    exact absurd (closed_at hsplit hreset hclosed) ((event_effect he').distributes hdist').1

theorem InitArgs.Accepted.window {args : InitArgs} (h : args.Accepted now)
    (hlt : args.startTime < now) :
    now.toNat ≤ args.startTime.toNat + 60 := by
  have hpast := UInt32.le_iff_toNat_le.mp h.not_past
  have hlt := UInt32.lt_iff_toNat_lt.mp hlt
  have hmax := now.toNat_lt
  rw [UInt32.toNat_sub] at hpast
  simp only [UInt32.reduceToNat] at hpast
  omega

/-- At non-decreasing block times one result is paid twice only around an
`initcontract` whose start reaches back to its completion: the result was
completed and paid before that call, and at most 60 seconds before it. -/
theorem paid_twice_only_in_window (env : Env) (actions : List Action)
    (before between later : List Event) (e e' : Event) (args args' : DistributeArgs)
    (r r' : GameRecords) (ht : Timed actions)
    (hsplit : events env actions = before ++ e :: (between ++ e' :: later))
    (h : PaysFor env e args r) (h' : PaysFor env e' args' r') (hsame : r.SameResult r') :
    ∃ i ∈ between, ∃ init, i.request.call = .initcontract init ∧
      init.startTime ≤ r.gameCompletionTime ∧ r.gameCompletionTime < e.request.ctx.now ∧
      e.request.ctx.now ≤ i.request.ctx.now ∧
      i.request.ctx.now.toNat ≤ init.startTime.toNat + 60 := by
  have he' : e' ∈ events env actions := by simp [hsplit]
  obtain ⟨i, hi, init, hcall, haccepted, hglobals⟩ := h.reset_between h' hsame hsplit
  obtain ⟨g', hg', hrec'⟩ := (event_invariant he').records r' h'.mem
  obtain rfl : init.toGlobal = g' := Option.some.inj (hglobals.symm.trans hg')
  have hstart : init.startTime ≤ r.gameCompletionTime := hsame.time ▸ hrec'.started
  have hpaid := h.completed ht hsplit
  have hnow : e.request.ctx.now ≤ i.request.ctx.now := by
    have hordered : (events env actions).Pairwise
        fun e e' => e.request.ctx.now ≤ e'.request.ctx.now := ht.events
    rw [hsplit] at hordered
    have hrest := (List.pairwise_cons.mp (List.pairwise_append.mp hordered).2.1).1
    exact hrest i (List.mem_append_left _ hi)
  refine ⟨i, hi, init, hcall, hstart, hpaid, hnow, haccepted.window ?_⟩
  exact UInt32.lt_of_le_of_lt hstart (UInt32.lt_of_lt_of_le hpaid hnow)

/-- One result of a ten second cycle: reported, paid, wiped by an
`initcontract` with a start 20 seconds back, reported again. -/
def Sample.replayed : List Action :=
  Sample.setup 1000 1000 10 ++ [
    Sample.block 1005 (.recordgame [Sample.result 10 50 1002]),
    Sample.block 1010 (.distribute (Sample.payout 1 [100]))] ++
  Sample.setup 1020 1000 10 ++ [
    Sample.block 1021 (.recordgame [Sample.result 10 50 1002])]

def Sample.payment (actions : List Action) (now : TimePointSec) : Event where
  pre := run Sample.env actions
  request := Sample.block now (.distribute (Sample.payout 1 [100]))
  output := [⟨⟨6⟩, ⟨1⟩, ⟨10⟩, ⟨1000000, Sample.boid⟩, Name.toBytes ⟨10⟩⟩]
  post := run Sample.env (actions ++ [Sample.block now (.distribute (Sample.payout 1 [100]))])

def Sample.replayedEvents : List Event :=
  events Sample.env (Sample.replayed ++ [Sample.block 1022 (.distribute (Sample.payout 1 [100]))])

theorem replayed_split : Sample.replayedEvents =
    Sample.replayedEvents.take 5 ++ Sample.payment (Sample.replayed.take 5) 1010 ::
      ((Sample.replayedEvents.drop 6).take 5 ++ Sample.payment Sample.replayed 1022 :: []) := rfl

def Sample.replayedRow (updated : TimePointSec) : GameRecords :=
  ⟨0, ⟨10⟩, 1, [kills], [50], 1, false, 1002, updated⟩

theorem replayed_pays_before :
    PaysFor Sample.env (Sample.payment (Sample.replayed.take 5) 1010) (Sample.payout 1 [100])
      (Sample.replayedRow 1005) :=
  ⟨rfl, by decide, rfl, rfl, (⟨10⟩, 50), by decide, rfl⟩

theorem replayed_pays_after :
    PaysFor Sample.env (Sample.payment Sample.replayed 1022) (Sample.payout 1 [100])
      (Sample.replayedRow 1021) :=
  ⟨rfl, by decide, rfl, rfl, (⟨10⟩, 50), by decide, rfl⟩

theorem replayed_in_window :
    ∃ i ∈ (Sample.replayedEvents.drop 6).take 5, ∃ init, i.request.call = .initcontract init ∧
      init.startTime ≤ 1002 ∧ (1002 : TimePointSec) < 1010 ∧ 1010 ≤ i.request.ctx.now ∧
      i.request.ctx.now.toNat ≤ init.startTime.toNat + 60 :=
  paid_twice_only_in_window Sample.env
    (Sample.replayed ++ [Sample.block 1022 (.distribute (Sample.payout 1 [100]))])
    _ _ _ _ _ _ _ _ _ (by decide) replayed_split replayed_pays_before replayed_pays_after
    ⟨rfl, rfl, rfl, rfl, rfl⟩

theorem result_paid_twice :
    ¬ ∀ (env : Env) (actions : List Action) (before between later : List Event) (e e' : Event)
      (args args' : DistributeArgs) (r r' : GameRecords), Timed actions →
      events env actions = before ++ e :: (between ++ e' :: later) →
      PaysFor env e args r → PaysFor env e' args' r' → ¬ r.SameResult r' := by
  intro h
  exact h Sample.env (Sample.replayed ++ [Sample.block 1022 (.distribute (Sample.payout 1 [100]))])
    _ _ _ _ _ _ _ _ _ (by decide) replayed_split replayed_pays_before replayed_pays_after
    ⟨rfl, rfl, rfl, rfl, rfl⟩

end GameRewards
