import GameRewards.Ranking
import Mathlib.Data.Int.Order.Basic

/-!
# What the chain and the contract library supply

Names, symbols, assets and the checks that stop an action, as the contract's
code uses them. Integers keep their width: every operation that can wrap or
trap in the compiled contract does so here. `std::string` is its bytes.

Two things stay open. The block time, the authorizations and the accounts of
other contracts come with each action, in a `Context`. The sorting routine is
part of the deployment, in an `Env`: any `Sorter` for the contract's
comparator, so nothing is known about the order of ties.
-/

namespace GameRewards

-- ---------------------------------------------------------------------------
-- Stopping an action
-- ---------------------------------------------------------------------------

inductive Abort
  | missingAuthority
  | check (message : String)
  | divideByZero
  /-- A vector access past the end, which the source leaves undefined. -/
  | outOfRange
  deriving DecidableEq, Repr

abbrev Result := Except Abort

def check (cond : Prop) [Decidable cond] (message : String) : Result Unit :=
  if cond then .ok () else .error (.check message)

def need (o : Option α) (message : String) : Result α :=
  match o with
  | some a => .ok a
  | none => .error (.check message)

def keyTaken : String := "could not insert object, most likely a uniqueness constraint was violated"

theorem bind_ok {x : Except ε α} {f : α → Except ε β} :
    x >>= f = .ok b ↔ ∃ a, x = .ok a ∧ f a = .ok b := by
  cases x with
  | error e => exact ⟨fun h => (nomatch h), fun ⟨_, h, _⟩ => (nomatch h)⟩
  | ok a => exact ⟨fun h => ⟨a, rfl, h⟩, fun ⟨_, rfl, h⟩ => h⟩

theorem bind_error {x : Except ε α} {f : α → Except ε β} :
    x >>= f = .error e ↔ x = .error e ∨ ∃ a, x = .ok a ∧ f a = .error e := by
  cases x <;> simp [bind, Except.bind]

theorem map_ok {x : Except ε α} {f : α → β} : f <$> x = .ok b ↔ ∃ a, x = .ok a ∧ f a = b := by
  cases x <;> simp [Functor.map, Except.map]

theorem pure_ok : (pure a : Except ε α) = .ok b ↔ a = b := by
  simp [pure, Except.pure]

/-- What each pass of a loop keeps, a loop that returns keeps. -/
theorem foldlM_ok {f : β → α → Except ε β} {P : β → Prop} {xs : List α}
    (h : xs.foldlM f b = .ok b') (hb : P b) (hstep : ∀ b x b', P b → f b x = .ok b' → P b') :
    P b' := by
  induction xs generalizing b with
  | nil => exact pure_ok.mp h ▸ hb
  | cons x xs ih =>
    rw [List.foldlM_cons, bind_ok] at h
    obtain ⟨b₁, hone, hrest⟩ := h
    exact ih hrest (hstep b x b₁ hb hone)

theorem check_ok {cond : Prop} [Decidable cond] : check cond message = .ok u ↔ cond := by
  unfold check
  split <;> rename_i h <;> simp [h]

theorem check_error {cond : Prop} [Decidable cond] :
    check cond message = .error abort ↔ ¬ cond ∧ .check message = abort := by
  unfold check
  split <;> rename_i h <;> simp [h]

theorem check_congr {p q : Prop} [Decidable p] [Decidable q] (h : p ↔ q) (message : String) :
    check p message = check q message := by
  by_cases hq : q
  · rw [check, check, if_pos hq, if_pos (h.mpr hq)]
  · rw [check, check, if_neg hq, if_neg (mt h.mp hq)]

theorem need_ok {o : Option α} : need o message = .ok a ↔ o = some a := by
  cases o <;> simp [need]

/-- Every way the action stops is one of these. -/
def FailsOnly (P : Abort → Prop) (x : Result α) : Prop := ∀ abort, x = .error abort → P abort

namespace FailsOnly

theorem ok (a : α) : FailsOnly P (.ok a) := fun _ h => nomatch h

theorem bind_iff {x : Result α} {f : α → Result β} :
    FailsOnly P (x >>= f) ↔ FailsOnly P x ∧ ∀ a, x = .ok a → FailsOnly P (f a) := by
  simp only [FailsOnly, bind_error]
  constructor
  · intro h
    exact ⟨fun abort hx => h abort (.inl hx), fun a ha abort hf => h abort (.inr ⟨a, ha, hf⟩)⟩
  · rintro ⟨hx, hf⟩ abort (herror | ⟨a, ha, herror⟩)
    · exact hx abort herror
    · exact hf a ha abort herror

theorem bind {x : Result α} {f : α → Result β} (hx : FailsOnly P x) (hf : ∀ a, FailsOnly P (f a)) :
    FailsOnly P (x >>= f) := bind_iff.mpr ⟨hx, fun a _ => hf a⟩

theorem check {cond : Prop} [Decidable cond] (h : P (.check message)) :
    FailsOnly P (check cond message) := by
  intro abort herror
  obtain ⟨-, rfl⟩ := check_error.mp herror
  exact h

theorem need {o : Option α} (h : P (.check message)) : FailsOnly P (need o message) := by
  cases o with
  | some a => exact ok a
  | none =>
    rintro _ ⟨⟩
    exact h

end FailsOnly

-- ---------------------------------------------------------------------------
-- Names and times
-- ---------------------------------------------------------------------------

structure Name where
  value : UInt64
  deriving DecidableEq, Repr

abbrev Bytes := List UInt8

/-- `time_point_sec`: seconds since the epoch. -/
abbrev TimePointSec := UInt32

/-- Entry `i` of the character map `.12345abcdefghijklmnopqrstuvwxyz`. -/
def Name.charOf (i : UInt8) : UInt8 :=
  if i = 0 then 46 else if i ≤ 5 then 48 + i else 91 + i

/-- Twelve digits of five bits, then one of four, from the top; trailing zero
digits are not written. -/
def Name.digits : Nat → UInt64 → Bytes
  | 0, _ => []
  | n + 1, v =>
    if v = 0 then []
    else Name.charOf (((v &&& 0xF800000000000000) >>> (if n = 0 then 60 else 59)).toUInt8) ::
      Name.digits n (v <<< 5)

def Name.toBytes (n : Name) : Bytes := Name.digits 13 n.value

def Name.toString (n : Name) : String :=
  String.ofList (n.toBytes.map fun b => Char.ofNat b.toNat)

-- ---------------------------------------------------------------------------
-- Symbols and assets
-- ---------------------------------------------------------------------------

/-- A token symbol: the code in the upper 56 bits, the number of decimals in
the lowest byte. -/
structure Symbol where
  raw : UInt64
  deriving DecidableEq, Repr

def Symbol.precision (s : Symbol) : UInt8 := s.raw.toUInt8

def Symbol.code (s : Symbol) : UInt64 := s.raw >>> 8

/-- The seven code bytes, first letter first. -/
def Symbol.codeBytes (s : Symbol) : Bytes :=
  (List.range 7).map fun i => (s.raw >>> (8 + 8 * UInt64.ofNat i)).toUInt8

/-- One to seven capital letters, then only zeros. -/
def Symbol.isValid (s : Symbol) : Bool :=
  let letters := s.codeBytes.takeWhile (· ≠ 0)
  letters ≠ [] && letters.all (fun b => 65 ≤ b && b ≤ 90) &&
    (s.codeBytes.drop letters.length).all (· = 0)

structure Asset where
  amount : Int64
  symbol : Symbol
  deriving DecidableEq, Repr

namespace Asset

/-- `max_amount`: assets stay below 2^62 units in size. -/
def maxAmount : Int := 0x3FFFFFFFFFFFFFFF

def make (amount : Int64) (symbol : Symbol) : Result Asset := do
  check (-maxAmount ≤ amount.toInt ∧ amount.toInt ≤ maxAmount)
    "magnitude of asset amount must be less than 2^62"
  check symbol.isValid "invalid symbol name"
  pure { amount, symbol }

/-- `operator*=`: the product is taken in 128 bits. -/
def mul (a : Asset) (b : Int) : Result Asset := do
  let product := a.amount.toInt * b
  check (product ≤ maxAmount) "multiplication overflow"
  check (-maxAmount ≤ product) "multiplication underflow"
  pure { a with amount := Int64.ofInt product }

def div (a : Asset) (b : Int64) : Result Asset := do
  check (b ≠ 0) "divide by zero"
  check (¬ (a.amount = Int64.minValue ∧ b = -1)) "signed division overflow"
  pure { a with amount := a.amount / b }

def sub (a b : Asset) : Result Asset := do
  check (b.symbol = a.symbol) "attempt to subtract asset with different symbol"
  let amount := a.amount - b.amount
  check (-maxAmount ≤ amount.toInt) "subtraction underflow"
  check (amount.toInt ≤ maxAmount) "subtraction overflow"
  pure { a with amount }

def add (a b : Asset) : Result Asset := do
  check (b.symbol = a.symbol) "attempt to add asset with different symbol"
  let amount := a.amount + b.amount
  check (-maxAmount ≤ amount.toInt) "addition underflow"
  check (amount.toInt ≤ maxAmount) "addition overflow"
  pure { a with amount }

def isValid (a : Asset) : Bool :=
  decide (-maxAmount ≤ a.amount.toInt ∧ a.amount.toInt ≤ maxAmount) && a.symbol.isValid

/-- An amount and every result of an operation on it that passed its checks
is in this range, and the next operation is exact on it. -/
def InRange (a : Asset) : Prop := -maxAmount ≤ a.amount.toInt ∧ a.amount.toInt ≤ maxAmount

theorem make_ok (h : make n sym = .ok a) :
    a = { amount := n, symbol := sym } ∧ a.InRange ∧ sym.isValid = true := by
  simp only [make, bind_ok, check_ok, pure_ok] at h
  obtain ⟨_, hrange, _, hvalid, rfl⟩ := h
  exact ⟨rfl, hrange, hvalid⟩

theorem mul_ok (h : mul a b = .ok c) :
    c.amount.toInt = a.amount.toInt * b ∧ c.symbol = a.symbol ∧ c.InRange := by
  simp only [mul, bind_ok, check_ok, pure_ok] at h
  obtain ⟨_, hle, _, hge, rfl⟩ := h
  have hexact : (Int64.ofInt (a.amount.toInt * b)).toInt = a.amount.toInt * b := by
    refine Int64.toInt_ofInt_of_le ?_ ?_ <;> simp only [maxAmount] at hle hge <;> omega
  exact ⟨hexact, rfl, by simpa only [InRange, hexact] using ⟨hge, hle⟩⟩

theorem add_ok (ha : a.InRange) (hb : b.InRange) (h : add a b = .ok c) :
    c.amount.toInt = a.amount.toInt + b.amount.toInt ∧ c.symbol = a.symbol ∧ c.InRange := by
  simp only [add, bind_ok, check_ok, pure_ok] at h
  obtain ⟨_, -, _, hge, _, hle, rfl⟩ := h
  refine ⟨?_, rfl, hge, hle⟩
  simp only [InRange, maxAmount] at ha hb
  rw [Int64.toInt_add, Int.bmod_eq_of_le] <;> omega

theorem sub_ok (ha : a.InRange) (hb : b.InRange) (h : sub a b = .ok c) :
    c.amount.toInt = a.amount.toInt - b.amount.toInt ∧ c.symbol = a.symbol ∧ c.InRange := by
  simp only [sub, bind_ok, check_ok, pure_ok] at h
  obtain ⟨_, -, _, hge, _, hle, rfl⟩ := h
  refine ⟨?_, rfl, hge, hle⟩
  simp only [InRange, maxAmount] at ha hb
  rw [Int64.toInt_sub, Int.bmod_eq_of_le] <;> omega

theorem add_exists {a b : Asset} (hsymbol : b.symbol = a.symbol)
    (hnonneg : 0 ≤ a.amount.toInt + b.amount.toInt)
    (hle : a.amount.toInt + b.amount.toInt ≤ maxAmount) :
    ∃ c, a.add b = .ok c ∧ c.amount.toInt = a.amount.toInt + b.amount.toInt ∧ c.symbol = a.symbol := by
  have hexact : (a.amount + b.amount).toInt = a.amount.toInt + b.amount.toInt := by
    simp only [maxAmount] at hle
    rw [Int64.toInt_add, Int.bmod_eq_of_le] <;> omega
  refine ⟨{ a with amount := a.amount + b.amount }, ?_, hexact, rfl⟩
  simp only [add, bind_ok, check_ok, pure_ok, hexact]
  exact ⟨(), hsymbol, (), le_trans (by decide) hnonneg, (), hle, trivial⟩

theorem sub_exists {a b : Asset} (hsymbol : b.symbol = a.symbol)
    (hnonneg : 0 ≤ a.amount.toInt - b.amount.toInt)
    (hle : a.amount.toInt - b.amount.toInt ≤ maxAmount) :
    ∃ c, a.sub b = .ok c ∧ c.amount.toInt = a.amount.toInt - b.amount.toInt ∧ c.symbol = a.symbol := by
  have hexact : (a.amount - b.amount).toInt = a.amount.toInt - b.amount.toInt := by
    simp only [maxAmount] at hle
    rw [Int64.toInt_sub, Int.bmod_eq_of_le] <;> omega
  refine ⟨{ a with amount := a.amount - b.amount }, ?_, hexact, rfl⟩
  simp only [sub, bind_ok, check_ok, pure_ok, hexact]
  exact ⟨(), hsymbol, (), le_trans (by decide) hnonneg, (), hle, trivial⟩

theorem isValid_iff {a : Asset} : a.isValid = true ↔ a.InRange ∧ a.symbol.isValid = true := by
  simp only [isValid, InRange, Bool.and_eq_true, decide_eq_true_eq]

end Asset

-- ---------------------------------------------------------------------------
-- Inline actions and the context of an action
-- ---------------------------------------------------------------------------

/-- An inline `transfer` action of the token contract `code`, with the
authority of `sender`. -/
structure Transfer where
  code : Name
  sender : Name
  recipient : Name
  quantity : Asset
  memo : Bytes
  deriving DecidableEq, Repr

structure Context where
  /-- `current_time_point`, in whole seconds. -/
  now : TimePointSec
  hasAuth : Name → Bool
  isAccount : Name → Bool
  /-- Which names the `accounts` table of the `boid` contract lists. -/
  boidAccount : Name → Bool

/-- `a.second > b.second` -/
def higherScore (a b : Name × UInt64) : Bool := a.2 > b.2

structure Env where
  self : Name
  sorter : Ranking.Sorter (Name × UInt64) higherScore

def requireAuth (env : Env) (ctx : Context) : Result Unit :=
  if ctx.hasAuth env.self then .ok () else .error .missingAuthority

theorem requireAuth_ok : requireAuth env ctx = .ok u ↔ ctx.hasAuth env.self = true := by
  unfold requireAuth
  split <;> rename_i h <;> simp [h]

end GameRewards
