import GameRewards.Chain
import GameRewards.Calendar
import GameRewards.MultiIndex.Index

/-!
# The tables of the contract

Rows and keys as `config_tables.hpp` and `contract_tables.hpp` declare them,
with the cycle arithmetic of `globalconfig` in 32 bits.
-/

namespace GameRewards

open MultiIndex (Table)

-- ---------------------------------------------------------------------------
-- Configuration
-- ---------------------------------------------------------------------------

structure GlobalConfig where
  initialized : Bool := false
  cyclesInitiationTime : TimePointSec
  cycleLengthSec : UInt32 := 604800
  maxCycleLengthSec : UInt32 := 2592000
  maxRewardTiers : UInt8 := 10
  minRewardPercentage : UInt8 := 1
  deriving DecidableEq, Repr

/-- Unsigned 32-bit division; a zero divisor traps. -/
def div32 (a b : UInt32) : Result UInt32 :=
  if b = 0 then .error .divideByZero else .ok (a / b)

theorem div32_ok : div32 a b = .ok q ↔ b ≠ 0 ∧ a / b = q := by
  unfold div32
  split <;> rename_i h <;> simp [h]

namespace GlobalConfig

def getCurrentCycle (g : GlobalConfig) (now : TimePointSec) : Result UInt32 := do
  if !g.initialized || g.cycleLengthSec == 0 then
    pure 0
  else do
    let n ← div32 (now - g.cyclesInitiationTime) g.cycleLengthSec
    pure (n + 1)

def getCycleStart (g : GlobalConfig) (cycle : UInt32) : TimePointSec :=
  if cycle ≤ 0 then 0 else g.cyclesInitiationTime + (cycle - 1) * g.cycleLengthSec

def getCycleEnd (g : GlobalConfig) (cycle : UInt32) : TimePointSec :=
  if cycle ≤ 0 then 0 else g.getCycleStart cycle + g.cycleLengthSec

def isValidCycle (g : GlobalConfig) (now : TimePointSec) (cycle : UInt32) : Result Bool := do
  if !g.initialized || cycle ≤ 0 then
    pure false
  else do
    let current ← g.getCurrentCycle now
    pure (cycle ≤ current && g.getCycleStart cycle ≤ now)

end GlobalConfig

structure TokenConfig where
  tokenContract : Name
  tokenSymbol : Symbol
  enabled : Bool := false
  deriving DecidableEq, Repr

def TokenConfig.primaryKey (r : TokenConfig) : UInt64 := r.tokenSymbol.raw

structure RewardDistConfig where
  gameId : UInt8
  destinationContract : Name
  memoTemplate : Bytes
  useDirectTransfer : Bool
  deriving DecidableEq, Repr

def RewardDistConfig.primaryKey (r : RewardDistConfig) : UInt64 := r.gameId.toUInt64

structure GameConfig where
  gameId : UInt8
  displayName : Bytes
  metadata : Bytes
  active : Bool := true
  statsNames : List Name
  deriving DecidableEq, Repr

def GameConfig.primaryKey (r : GameConfig) : UInt64 := r.gameId.toUInt64

-- ---------------------------------------------------------------------------
-- Records and distributions
-- ---------------------------------------------------------------------------

/-- `((uint128_t)game_id << 64) | cycle_number` -/
def cycleKey (gameId : UInt8) (cycleNumber : UInt32) : BitVec 128 :=
  (gameId.toBitVec.setWidth 128 <<< 64) ||| cycleNumber.toBitVec.setWidth 128

structure GameRecords where
  id : UInt64
  player : Name
  gameId : UInt8
  statsNames : List Name
  statsValues : List UInt64
  cycleNumber : UInt32
  rewardsDistributed : Bool := false
  gameCompletionTime : TimePointSec
  lastUpdated : TimePointSec
  deriving DecidableEq, Repr

def GameRecords.primaryKey (r : GameRecords) : UInt64 := r.id

def GameRecords.byGameCycle (r : GameRecords) : BitVec 128 := cycleKey r.gameId r.cycleNumber

structure RewardsRecorded where
  id : UInt64
  gameId : UInt8
  cycleNumber : UInt32
  statName : Name
  totalReward : Asset
  rewardedPlayers : List Name
  playerRewards : List Asset
  distributionTime : TimePointSec
  deriving DecidableEq, Repr

def RewardsRecorded.primaryKey (r : RewardsRecorded) : UInt64 := r.id

def RewardsRecorded.byGameCycle (r : RewardsRecorded) : BitVec 128 :=
  cycleKey r.gameId r.cycleNumber

structure State where
  globalconfig : Option GlobalConfig
  tokenconfig : Table TokenConfig.primaryKey
  gamerecords : Table GameRecords.primaryKey
  rewardsrec : Table RewardsRecorded.primaryKey
  rewarddist : Table RewardDistConfig.primaryKey
  gameconfig : Table GameConfig.primaryKey
  deriving DecidableEq

def State.deployed : State := ⟨none, .empty, .empty, .empty, .empty, .empty⟩

-- ---------------------------------------------------------------------------
-- The packed key
-- ---------------------------------------------------------------------------

theorem cycleKey_toNat (g : UInt8) (c : UInt32) :
    (cycleKey g c).toNat = g.toNat * 2 ^ 64 + c.toNat := by
  have hg := g.toNat_lt
  have hc := c.toNat_lt
  have hshift : (g.toBitVec.setWidth 128 <<< 64).toNat = g.toNat <<< 64 := by
    simp [BitVec.toNat_shiftLeft, Nat.shiftLeft_eq]
    omega
  have hcycle : (c.toBitVec.setWidth 128).toNat = c.toNat := by
    simp
    omega
  rw [cycleKey, BitVec.toNat_or, hshift, hcycle, Nat.shiftLeft_eq, Nat.mul_comm,
    ← Nat.two_pow_add_eq_or_of_lt (by omega)]

theorem cycleKey_inj : cycleKey g c = cycleKey g' c' ↔ g = g' ∧ c = c' := by
  constructor
  · intro h
    have h := congrArg BitVec.toNat h
    rw [cycleKey_toNat, cycleKey_toNat] at h
    have hc := c.toNat_lt
    have hc' := c'.toNat_lt
    exact ⟨UInt8.toNat_inj.mp (by omega), UInt32.toNat_inj.mp (by omega)⟩
  · rintro ⟨rfl, rfl⟩
    rfl

/-- The loop condition of the cycle scans. -/
def GameRecords.inCycle (gameId : UInt8) (cycleNumber : UInt32) (r : GameRecords) : Bool :=
  r.gameId == gameId && r.cycleNumber == cycleNumber

theorem GameRecords.inCycle_iff {r : GameRecords} :
    r.inCycle g c = true ↔ r.gameId = g ∧ r.cycleNumber = c := by
  simp [GameRecords.inCycle]

theorem GameRecords.inCycle_eq_key (r : GameRecords) :
    r.inCycle g c = decide (r.byGameCycle = cycleKey g c) := by
  rw [Bool.eq_iff_iff, GameRecords.inCycle_iff, decide_eq_true_iff, GameRecords.byGameCycle,
    cycleKey_inj]

-- ---------------------------------------------------------------------------
-- 32-bit cycles against the calendar
-- ---------------------------------------------------------------------------

namespace GlobalConfig

/-- What `initcontract` stores and no other action changes. -/
structure Valid (g : GlobalConfig) : Prop where
  initialized : g.initialized = true
  start_pos : 0 < g.cyclesInitiationTime
  length_pos : 0 < g.cycleLengthSec

/-- The cycles as unbounded periods. -/
def calendar (g : GlobalConfig) (h : g.Valid) : Calendar where
  start := g.cyclesInitiationTime.toNat
  len := g.cycleLengthSec.toNat
  len_pos := UInt32.lt_iff_toNat_lt.mp h.length_pos

/-- The formula shared by `determine_cycle` and `get_current_cycle` counts
periods exactly, as long as the time is not before the start. -/
theorem cycle_toNat {g : GlobalConfig} (h : g.Valid) (ht : g.cyclesInitiationTime ≤ t) :
    ((t - g.cyclesInitiationTime) / g.cycleLengthSec + 1).toNat =
      (g.calendar h).periodOf t.toNat := by
  have hpos := UInt32.lt_iff_toNat_lt.mp h.start_pos
  have ht' := UInt32.le_iff_toNat_le.mp ht
  have hlt := t.toNat_lt
  -- The start is after the epoch, so the quotient stays below 2^32 - 1.
  have hq : (t.toNat - g.cyclesInitiationTime.toNat) / g.cycleLengthSec.toNat ≤
      t.toNat - g.cyclesInitiationTime.toNat := Nat.div_le_self _ _
  have hnowrap : (t.toNat - g.cyclesInitiationTime.toNat) / g.cycleLengthSec.toNat + 1 < 2 ^ 32 := by
    simp only [UInt32.toNat_zero] at hpos
    omega
  rw [UInt32.toNat_add, UInt32.toNat_div, UInt32.toNat_sub_of_le _ _ ht]
  exact Nat.mod_eq_of_lt hnowrap

theorem getCurrentCycle_ok {g : GlobalConfig} (h : g.Valid) (now : TimePointSec) :
    g.getCurrentCycle now = .ok ((now - g.cyclesInitiationTime) / g.cycleLengthSec + 1) := by
  have hlen : g.cycleLengthSec ≠ 0 := by
    have := UInt32.lt_iff_toNat_lt.mp h.length_pos
    intro h0
    simp [h0] at this
  simp [getCurrentCycle, h.initialized, hlen, div32, bind, Except.bind, pure, Except.pure]

end GlobalConfig

end GameRewards
