import GameRewards.Contract

/-!
# The bounds of a cycle

`get_cycle_start`, `get_cycle_end` and `is_valid_cycle` against the calendar.
Their sums are taken in 32 bits: what they say is right as long as the bound
fits, and wrong in the kinds of case given here.
-/

namespace GameRewards

namespace GlobalConfig

theorem getCycleStart_toNat {g : GlobalConfig} (h : g.Valid) (hc : 1 ≤ c.toNat) :
    (g.getCycleStart c).toNat = (g.calendar h).opens c.toNat % 2 ^ 32 := by
  have hne : ¬ c ≤ 0 := by
    rw [UInt32.le_iff_toNat_le, UInt32.toNat_zero]
    omega
  have hone : (c - 1).toNat = c.toNat - 1 :=
    UInt32.toNat_sub_of_le _ _ (UInt32.le_iff_toNat_le.mpr hc)
  rw [getCycleStart, if_neg hne, UInt32.toNat_add, UInt32.toNat_mul, hone, Nat.add_mod_mod]
  rfl

theorem getCycleEnd_toNat {g : GlobalConfig} (h : g.Valid) (hc : 1 ≤ c.toNat) :
    (g.getCycleEnd c).toNat = (g.calendar h).closes c.toNat % 2 ^ 32 := by
  have hne : ¬ c ≤ 0 := by
    rw [UInt32.le_iff_toNat_le, UInt32.toNat_zero]
    omega
  rw [getCycleEnd, if_neg hne, UInt32.toNat_add, getCycleStart_toNat h hc, Nat.mod_add_mod,
    Calendar.closes_eq _ hc]
  rfl

end GlobalConfig

theorem initcontract_valid (h : initcontract env ctx s args = .ok s')
    (hg : s'.globalconfig = some g) : g.Valid := by
  obtain ⟨haccepted, rfl⟩ := initcontract_ok h
  cases hg
  exact haccepted.valid

-- ---------------------------------------------------------------------------
-- The cycle of a completion time
-- ---------------------------------------------------------------------------

/-- The cycle of a completion time is the current cycle at that time and has
started; it has not ended, exactly when its end fits into 32 bits. -/
theorem cycle_bounds_agree_iff (env : Env) (ctx₀ ctx : Context) (s s' : State) (args : InitArgs)
    (g : GlobalConfig) (t : TimePointSec) (c : UInt32)
    (hinit : initcontract env ctx₀ s args = .ok s') (hg : s'.globalconfig = some g)
    (hc : determineCycle ctx s'.globalconfig t = .ok c) :
    (g.getCurrentCycle t = .ok c ∧ g.getCycleStart c ≤ t ∧ t < g.getCycleEnd c) ↔
      g.cyclesInitiationTime.toNat +
        ((t.toNat - g.cyclesInitiationTime.toNat) / g.cycleLengthSec.toNat + 1) *
          g.cycleLengthSec.toNat < 2 ^ 32 := by
  have hvalid : g.Valid := initcontract_valid hinit hg
  obtain ⟨g', hg', -, hstart, rfl⟩ := determineCycle_ok hc
  obtain rfl : g = g' := Option.some.inj (hg.symm.trans hg')
  have hstarted := UInt32.le_iff_toNat_le.mp hstart
  have hcurrent := GlobalConfig.getCurrentCycle_ok hvalid t
  have hperiod := GlobalConfig.cycle_toNat hvalid hstart
  generalize (t - g.cyclesInitiationTime) / g.cycleLengthSec + 1 = c at *
  have hpos : 1 ≤ c.toNat := hperiod ▸ (g.calendar hvalid).periodOf_pos _
  have hopens := (g.calendar hvalid).opens_periodOf_le hstarted
  have hcloses := (g.calendar hvalid).lt_closes_periodOf hstarted
  have hlength := (g.calendar hvalid).closes_eq hpos
  have hlen : (g.calendar hvalid).len < 2 ^ 32 := g.cycleLengthSec.toNat_lt
  have ht := t.toNat_lt
  change _ ↔ (g.calendar hvalid).closes ((g.calendar hvalid).periodOf t.toNat) < 2 ^ 32
  rw [← hperiod] at hopens hcloses ⊢
  have hopens32 : (g.getCycleStart c).toNat = (g.calendar hvalid).opens c.toNat := by
    rw [GlobalConfig.getCycleStart_toNat hvalid hpos]
    exact Nat.mod_eq_of_lt (hopens.trans_lt ht)
  have hcloses32 := GlobalConfig.getCycleEnd_toNat hvalid hpos
  rw [UInt32.le_iff_toNat_le, UInt32.lt_iff_toNat_lt, hopens32, hcloses32]
  constructor
  · rintro ⟨-, -, hlt⟩
    by_contra hwrap
    -- The end wraps to less than a cycle after zero, which is before the start.
    rw [Nat.mod_eq_sub_mod (Nat.not_lt.mp hwrap), Nat.mod_eq_of_lt (by omega)] at hlt
    omega
  · intro hfits
    rw [Nat.mod_eq_of_lt hfits]
    exact ⟨hcurrent, hopens, hcloses⟩

theorem sample_cycle_bounds :
    (GlobalConfig.getCurrentCycle ⟨true, 2000, 100, 1000, 10, 1⟩ 2150 = .ok 2 ∧
      GlobalConfig.getCycleStart ⟨true, 2000, 100, 1000, 10, 1⟩ 2 ≤ 2150 ∧
      2150 < GlobalConfig.getCycleEnd ⟨true, 2000, 100, 1000, 10, 1⟩ 2) ↔
        2000 + ((2150 - 2000) / 100 + 1) * 100 < 2 ^ 32 :=
  cycle_bounds_agree_iff Sample.env (Sample.context 1000) (Sample.context 2150) State.deployed _
    ⟨2000, 100, 1000, 10, 1⟩ ⟨true, 2000, 100, 1000, 10, 1⟩ 2150 2 rfl rfl rfl

theorem cycle_end_wraps :
    ¬ ∀ (env : Env) (ctx₀ ctx : Context) (s s' : State) (args : InitArgs) (g : GlobalConfig)
      (t : TimePointSec) (c : UInt32), initcontract env ctx₀ s args = .ok s' →
      s'.globalconfig = some g → determineCycle ctx s'.globalconfig t = .ok c →
      g.getCurrentCycle t = .ok c ∧ g.getCycleStart c ≤ t ∧ t < g.getCycleEnd c := by
  intro h
  have hbounds := h Sample.env (Sample.context 1000) (Sample.context 1000) State.deployed _
    ⟨1000, 4294967295, 4294967295, 10, 1⟩ ⟨true, 1000, 4294967295, 4294967295, 10, 1⟩ 1000 1
    rfl rfl rfl
  exact absurd hbounds.2.2 (by decide)

-- ---------------------------------------------------------------------------
-- Started cycles
-- ---------------------------------------------------------------------------

def GlobalConfig.Started (g : GlobalConfig) (now : TimePointSec) (cycle : UInt32) : Prop :=
  1 ≤ cycle.toNat ∧
    g.cyclesInitiationTime.toNat + (cycle.toNat - 1) * g.cycleLengthSec.toNat ≤ now.toNat

instance : Decidable (GlobalConfig.Started g now cycle) := inferInstanceAs (Decidable (_ ∧ _))

namespace GlobalConfig

theorem isValidCycle_eq {g : GlobalConfig} (h : g.Valid) (now : TimePointSec) (c : UInt32) :
    g.isValidCycle now c = .ok (decide (1 ≤ c.toNat ∧
      c ≤ (now - g.cyclesInitiationTime) / g.cycleLengthSec + 1 ∧ g.getCycleStart c ≤ now)) := by
  unfold isValidCycle
  by_cases hc : c ≤ 0
  · have hzero : ¬ 1 ≤ c.toNat := by
      rw [UInt32.le_iff_toNat_le, UInt32.toNat_zero] at hc
      omega
    simp [hc, hzero, pure, Except.pure]
  · have hpos : 1 ≤ c.toNat := by
      rw [UInt32.le_iff_toNat_le, UInt32.toNat_zero] at hc
      omega
    simp [h.initialized, hc, hpos, getCurrentCycle_ok h, bind, Except.bind, pure, Except.pure]

/-- Before the start of the first cycle the elapsed time wraps to nearly 2^32
seconds, and the cycles of as long a time count as reached. -/
theorem le_current_before_iff {g : GlobalConfig} (h : g.Valid)
    (hnow : now < g.cyclesInitiationTime) (hc : 1 ≤ c.toNat) :
    c ≤ (now - g.cyclesInitiationTime) / g.cycleLengthSec + 1 ↔
      (g.calendar h).opens c.toNat ≤ 2 ^ 32 + now.toNat ∧
        ¬ (g.cycleLengthSec = 1 ∧ now.toNat + 1 = g.cyclesInitiationTime.toNat) := by
  have hbefore := UInt32.lt_iff_toNat_lt.mp hnow
  have hlen := UInt32.lt_iff_toNat_lt.mp h.length_pos
  have hstart := g.cyclesInitiationTime.toNat_lt
  have hcmax := c.toNat_lt
  rw [UInt32.toNat_zero] at hlen
  have hreached : c.toNat - 1 ≤
      (2 ^ 32 + now.toNat - g.cyclesInitiationTime.toNat) / g.cycleLengthSec.toNat ↔
        (g.calendar h).opens c.toNat ≤ 2 ^ 32 + now.toNat := by
    rw [Nat.le_div_iff_mul_le hlen]
    change _ ↔ g.cyclesInitiationTime.toNat + (c.toNat - 1) * g.cycleLengthSec.toNat ≤ _
    omega
  have helapsed : (now - g.cyclesInitiationTime).toNat =
      2 ^ 32 + now.toNat - g.cyclesInitiationTime.toNat := by
    rw [UInt32.toNat_sub]
    omega
  rw [← hreached, UInt32.le_iff_toNat_le, UInt32.toNat_add, UInt32.toNat_div, helapsed]
  by_cases hlast : g.cycleLengthSec = 1 ∧ now.toNat + 1 = g.cyclesInitiationTime.toNat
  · -- The number of the current cycle wraps to zero as well.
    constructor
    · intro hle
      rw [hlast.1, UInt32.toNat_one, Nat.div_one] at hle
      omega
    · rintro ⟨-, hnot⟩
      exact absurd hlast hnot
  · have hnowrap : (2 ^ 32 + now.toNat - g.cyclesInitiationTime.toNat) / g.cycleLengthSec.toNat + 1 <
        2 ^ 32 := by
      by_cases hone : g.cycleLengthSec.toNat = 1
      · have hsecond : now.toNat + 1 ≠ g.cyclesInitiationTime.toNat :=
          fun h => hlast ⟨UInt32.toNat_inj.mp hone, h⟩
        rw [hone, Nat.div_one]
        omega
      · have hhalf : (2 ^ 32 + now.toNat - g.cyclesInitiationTime.toNat) / g.cycleLengthSec.toNat ≤
            (2 ^ 32 + now.toNat - g.cyclesInitiationTime.toNat) / 2 :=
          Nat.div_le_div_left (by omega) (by omega)
        omega
    rw [UInt32.toNat_one, Nat.mod_eq_of_lt hnowrap, and_iff_left hlast]
    omega

theorem getCycleStart_before_iff {g : GlobalConfig} (h : g.Valid)
    (hnow : now < g.cyclesInitiationTime) (hc : 1 ≤ c.toNat)
    (hreached : (g.calendar h).opens c.toNat ≤ 2 ^ 32 + now.toNat) :
    g.getCycleStart c ≤ now ↔ 2 ^ 32 ≤ (g.calendar h).opens c.toNat := by
  have hbefore := UInt32.lt_iff_toNat_lt.mp hnow
  have hlt := now.toNat_lt
  have hopens : g.cyclesInitiationTime.toNat ≤ (g.calendar h).opens c.toNat := Nat.le_add_right _ _
  rw [UInt32.le_iff_toNat_le, getCycleStart_toNat h hc]
  omega

end GlobalConfig

/-- `is_valid_cycle` is exact but for the cycles that start between 2^32 and
2^32 seconds after now, asked for before the first cycle starts. In the last
second before it, with cycles of one second, it is exact for these too. -/
theorem valid_cycle_exact_iff (env : Env) (ctx₀ : Context) (s s' : State) (args : InitArgs)
    (g : GlobalConfig) (hinit : initcontract env ctx₀ s args = .ok s')
    (hg : s'.globalconfig = some g) (now : TimePointSec) (c : UInt32) :
    g.isValidCycle now c = .ok (decide (g.Started now c)) ↔
      ¬ (now < g.cyclesInitiationTime ∧
        2 ^ 32 ≤ g.cyclesInitiationTime.toNat + (c.toNat - 1) * g.cycleLengthSec.toNat ∧
        g.cyclesInitiationTime.toNat + (c.toNat - 1) * g.cycleLengthSec.toNat ≤
          2 ^ 32 + now.toNat ∧
        ¬ (g.cycleLengthSec = 1 ∧ now.toNat + 1 = g.cyclesInitiationTime.toNat)) := by
  have hvalid : g.Valid := initcontract_valid hinit hg
  have hopens : g.cyclesInitiationTime.toNat + (c.toNat - 1) * g.cycleLengthSec.toNat =
    (g.calendar hvalid).opens c.toNat := rfl
  have hstart := g.cyclesInitiationTime.toNat_lt
  rw [GlobalConfig.isValidCycle_eq hvalid, Except.ok.injEq, decide_eq_decide]
  unfold GlobalConfig.Started
  rw [hopens]
  by_cases hpos : 1 ≤ c.toNat
  · by_cases hnow : now < g.cyclesInitiationTime
    · have hlate : ¬ (g.calendar hvalid).opens c.toNat ≤ now.toNat := by
        have hbefore := UInt32.lt_iff_toNat_lt.mp hnow
        omega
      have hreached := GlobalConfig.le_current_before_iff hvalid hnow hpos
      have hwrapped := GlobalConfig.getCycleStart_before_iff hvalid hnow hpos
      have hanswer : (1 ≤ c.toNat ∧ c ≤ (now - g.cyclesInitiationTime) / g.cycleLengthSec + 1 ∧
          g.getCycleStart c ≤ now) ↔
            2 ^ 32 ≤ (g.calendar hvalid).opens c.toNat ∧
              (g.calendar hvalid).opens c.toNat ≤ 2 ^ 32 + now.toNat ∧
              ¬ (g.cycleLengthSec = 1 ∧ now.toNat + 1 = g.cyclesInitiationTime.toNat) := by
        rw [and_iff_right hpos, hreached]
        constructor
        · rintro ⟨⟨hle, hlast⟩, hstart⟩
          exact ⟨(hwrapped hle).mp hstart, hle, hlast⟩
        · rintro ⟨hwraps, hle, hlast⟩
          exact ⟨⟨hle, hlast⟩, (hwrapped hle).mpr hwraps⟩
      -- Nothing has started, so the answer is wrong whenever it is yes.
      have hnot : ¬ (1 ≤ c.toNat ∧ (g.calendar hvalid).opens c.toNat ≤ now.toNat) :=
        fun h => hlate h.2
      rw [hanswer, iff_false_right hnot, and_iff_right hnow]
    · have hnow : g.cyclesInitiationTime ≤ now := UInt32.not_lt.mp hnow
      have hstarted := UInt32.le_iff_toNat_le.mp hnow
      have hreached := (g.calendar hvalid).le_periodOf_iff hstarted hpos
      rw [← GlobalConfig.cycle_toNat hvalid hnow, ← UInt32.le_iff_toNat_le] at hreached
      have hlt := now.toNat_lt
      have hexact : (g.calendar hvalid).opens c.toNat ≤ now.toNat → g.getCycleStart c ≤ now := by
        intro hle
        rw [UInt32.le_iff_toNat_le, GlobalConfig.getCycleStart_toNat hvalid hpos,
          Nat.mod_eq_of_lt (hle.trans_lt hlt)]
        exact hle
      refine iff_of_true (and_congr_right fun _ => ?_) fun h => UInt32.not_lt.mpr hnow h.1
      rw [hreached]
      exact and_iff_left_of_imp hexact
  · have hzero : c.toNat - 1 = 0 := by omega
    have hfirst : ¬ 2 ^ 32 ≤ (g.calendar hvalid).opens c.toNat := by
      rw [← hopens, hzero]
      omega
    exact iff_of_true ⟨fun h => absurd h.1 hpos, fun h => absurd h.1 hpos⟩ fun h => hfirst h.2.1

theorem sample_valid_cycle :
    GlobalConfig.isValidCycle ⟨true, 2000, 100, 1000, 10, 1⟩ 1000 1 =
        .ok (decide (GlobalConfig.Started ⟨true, 2000, 100, 1000, 10, 1⟩ 1000 1)) ↔
      ¬ ((1000 : TimePointSec) < 2000 ∧ 2 ^ 32 ≤ 2000 + (1 - 1) * 100 ∧
        2000 + (1 - 1) * 100 ≤ 2 ^ 32 + 1000 ∧ ¬ ((100 : UInt32) = 1 ∧ 1000 + 1 = 2000)) :=
  valid_cycle_exact_iff Sample.env (Sample.context 1000) State.deployed _ ⟨2000, 100, 1000, 10, 1⟩
    ⟨true, 2000, 100, 1000, 10, 1⟩ rfl rfl 1000 1

/-- A thousand seconds before the first cycle starts, a cycle that starts in
136 years is valid. -/
theorem future_cycle_valid :
    ¬ ∀ (env : Env) (ctx₀ : Context) (s s' : State) (args : InitArgs) (g : GlobalConfig)
      (now : TimePointSec) (c : UInt32), initcontract env ctx₀ s args = .ok s' →
      s'.globalconfig = some g → ctx₀.now ≤ now →
      g.isValidCycle now c = .ok (decide (g.Started now c)) := by
  intro h
  have hvalid := h Sample.env (Sample.context 1000) State.deployed _ ⟨2000, 100, 1000, 10, 1⟩
    ⟨true, 2000, 100, 1000, 10, 1⟩ 1000 42949655 rfl rfl (by decide)
  exact absurd hvalid (by decide)

end GameRewards
