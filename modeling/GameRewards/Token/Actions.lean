import GameRewards.Chain
import GameRewards.History
import GameRewards.MultiIndex.Maps

/-!
# `eosio.token.cpp`

The token contract that the payouts are sent to. Its two tables are kept under
scopes: `accounts` under the owner, `stat` under the code of the symbol. The
payer of the RAM is left out.
-/

namespace GameRewards.Token

open MultiIndex (Table Scoped)

-- ---------------------------------------------------------------------------
-- Tables
-- ---------------------------------------------------------------------------

structure Account where
  balance : Asset
  deriving DecidableEq, Repr

def Account.primaryKey (r : Account) : UInt64 := r.balance.symbol.code

structure CurrencyStats where
  supply : Asset
  maxSupply : Asset
  issuer : Name
  deriving DecidableEq, Repr

def CurrencyStats.primaryKey (r : CurrencyStats) : UInt64 := r.supply.symbol.code

structure State where
  accounts : Table (Scoped.key Account.primaryKey)
  stat : Table (Scoped.key CurrencyStats.primaryKey)
  deriving DecidableEq

def State.deployed : State := ⟨.empty, .empty⟩

/-- `accounts( get_self(), owner.value ).find( sym_code )` -/
def State.account (s : State) (owner : Name) (symCode : UInt64) : Option (Scoped Account) :=
  s.accounts.find (toLex (owner.value, symCode))

/-- `stats( get_self(), sym_code ).find( sym_code )` -/
def State.stats (s : State) (symCode : UInt64) : Option (Scoped CurrencyStats) :=
  s.stat.find (toLex (symCode, symCode))

def setBalance (amount : Int64) (r : Scoped Account) : Scoped Account :=
  { r with row := { balance := { r.row.balance with amount := amount } } }

theorem setBalance_key (amount : Int64) (r : Scoped Account) :
    (setBalance amount r).key Account.primaryKey = r.key Account.primaryKey := rfl

def setSupply (amount : Int64) (r : Scoped CurrencyStats) : Scoped CurrencyStats :=
  { r with row := { r.row with supply := { r.row.supply with amount := amount } } }

theorem setSupply_key (amount : Int64) (r : Scoped CurrencyStats) :
    (setSupply amount r).key CurrencyStats.primaryKey = r.key CurrencyStats.primaryKey := rfl

def State.writeBalance (s : State) (r : Scoped Account) (amount : Int64) : State :=
  { s with
    accounts := s.accounts.modify (r.key Account.primaryKey) (setBalance amount)
      (setBalance_key amount) }

def State.writeSupply (s : State) (r : Scoped CurrencyStats) (amount : Int64) : State :=
  { s with
    stat := s.stat.modify (r.key CurrencyStats.primaryKey) (setSupply amount)
      (setSupply_key amount) }

-- ---------------------------------------------------------------------------
-- Actions
-- ---------------------------------------------------------------------------

def requireAuth (ctx : Context) (n : Name) : Result Unit :=
  if ctx.hasAuth n then .ok () else .error .missingAuthority

theorem requireAuth_ok : requireAuth ctx n = .ok u ↔ ctx.hasAuth n = true := by
  unfold requireAuth
  split <;> rename_i h <;> simp [h]

def subBalance (s : State) (owner : Name) (value : Asset) : Result State := do
  let from' ← need (s.account owner value.symbol.code) "no balance object found"
  check (value.amount ≤ from'.row.balance.amount) "overdrawn balance"
  let balance ← from'.row.balance.sub value
  pure (s.writeBalance from' balance.amount)

def addBalance (s : State) (owner : Name) (value : Asset) : Result State := do
  match s.account owner value.symbol.code with
  | none => do
    let accounts ← need (s.accounts.emplace ⟨owner.value, ⟨value⟩⟩) keyTaken
    pure { s with accounts := accounts }
  | some to' => do
    let balance ← to'.row.balance.add value
    pure (s.writeBalance to' balance.amount)

def create (self : Name) (ctx : Context) (s : State) (issuer : Name) (maximumSupply : Asset) :
    Result State := do
  requireAuth ctx self
  let sym := maximumSupply.symbol
  check sym.isValid "invalid symbol name"
  check maximumSupply.isValid "invalid supply"
  check (0 < maximumSupply.amount) "max-supply must be positive"
  check (s.stats sym.code = none) "token with symbol already exists"
  let stat ← need (s.stat.emplace ⟨sym.code, ⟨⟨0, sym⟩, maximumSupply, issuer⟩⟩) keyTaken
  pure { s with stat := stat }

def issue (ctx : Context) (s : State) (to' : Name) (quantity : Asset) (memo : Bytes) :
    Result State := do
  let sym := quantity.symbol
  check sym.isValid "invalid symbol name"
  check (memo.length ≤ 256) "memo has more than 256 bytes"
  let st ← need (s.stats sym.code) "token with symbol does not exist, create token before issue"
  check (to' = st.row.issuer) "tokens can only be issued to issuer account"
  requireAuth ctx st.row.issuer
  check quantity.isValid "invalid quantity"
  check (0 < quantity.amount) "must issue positive quantity"
  check (quantity.symbol = st.row.supply.symbol) "symbol precision mismatch"
  check (quantity.amount ≤ st.row.maxSupply.amount - st.row.supply.amount)
    "quantity exceeds available supply"
  let supply ← st.row.supply.add quantity
  addBalance (s.writeSupply st supply.amount) st.row.issuer quantity

def retire (ctx : Context) (s : State) (quantity : Asset) (memo : Bytes) : Result State := do
  let sym := quantity.symbol
  check sym.isValid "invalid symbol name"
  check (memo.length ≤ 256) "memo has more than 256 bytes"
  let st ← need (s.stats sym.code) "token with symbol does not exist"
  requireAuth ctx st.row.issuer
  check quantity.isValid "invalid quantity"
  check (0 < quantity.amount) "must retire positive quantity"
  check (quantity.symbol = st.row.supply.symbol) "symbol precision mismatch"
  let supply ← st.row.supply.sub quantity
  subBalance (s.writeSupply st supply.amount) st.row.issuer quantity

/-- The accounts notified are the second result. -/
def transfer (ctx : Context) (s : State) (from' to' : Name) (quantity : Asset) (memo : Bytes) :
    Result (State × List Name) := do
  check (from' ≠ to') "cannot transfer to self"
  requireAuth ctx from'
  check (ctx.isAccount to') "to account does not exist"
  let st ← need (s.stats quantity.symbol.code) "unable to find key"
  check quantity.isValid "invalid quantity"
  check (0 < quantity.amount) "must transfer positive quantity"
  check (quantity.symbol = st.row.supply.symbol) "symbol precision mismatch"
  check (memo.length ≤ 256) "memo has more than 256 bytes"
  let s ← subBalance s from' quantity
  let s ← addBalance s to' quantity
  pure (s, [from', to'])

def open' (ctx : Context) (s : State) (owner : Name) (symbol : Symbol) (ramPayer : Name) :
    Result State := do
  requireAuth ctx ramPayer
  check (ctx.isAccount owner) "owner account does not exist"
  let st ← need (s.stats symbol.code) "symbol does not exist"
  check (st.row.supply.symbol = symbol) "symbol precision mismatch"
  match s.account owner symbol.code with
  | none => do
    let balance ← Asset.make 0 symbol
    let accounts ← need (s.accounts.emplace ⟨owner.value, ⟨balance⟩⟩) keyTaken
    pure { s with accounts := accounts }
  | some _ => pure s

def close (ctx : Context) (s : State) (owner : Name) (symbol : Symbol) : Result State := do
  requireAuth ctx owner
  let it ← need (s.account owner symbol.code)
    "Balance row already deleted or never existed. Action won't have any effect."
  check (it.row.balance.amount = 0) "Cannot close because the balance is not zero."
  pure { s with accounts := s.accounts.erase (it.key Account.primaryKey) }

-- ---------------------------------------------------------------------------
-- The contract as a machine
-- ---------------------------------------------------------------------------

inductive Call
  | create (issuer : Name) (maximumSupply : Asset)
  | issue (to' : Name) (quantity : Asset) (memo : Bytes)
  | retire (quantity : Asset) (memo : Bytes)
  | transfer (from' to' : Name) (quantity : Asset) (memo : Bytes)
  | open' (owner : Name) (symbol : Symbol) (ramPayer : Name)
  | close (owner : Name) (symbol : Symbol)
  deriving DecidableEq, Repr

structure Action where
  ctx : Context
  call : Call

/-- Run one action of the token contract on account `self`. The output is the
accounts it notifies. -/
def exec (self : Name) (s : State) (a : Action) : Result (State × List Name) :=
  match a.call with
  | .create issuer maximumSupply => (·, []) <$> create self a.ctx s issuer maximumSupply
  | .issue to' quantity memo => (·, []) <$> issue a.ctx s to' quantity memo
  | .retire quantity memo => (·, []) <$> retire a.ctx s quantity memo
  | .transfer from' to' quantity memo => transfer a.ctx s from' to' quantity memo
  | .open' owner symbol ramPayer => (·, []) <$> open' a.ctx s owner symbol ramPayer
  | .close owner symbol => (·, []) <$> close a.ctx s owner symbol

def run (self : Name) (actions : List Action) : State :=
  History.run (exec self) State.deployed actions

end GameRewards.Token
