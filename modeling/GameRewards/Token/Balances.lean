import GameRewards.Token.Actions

/-!
# Balances and supplies

`Sound` is the invariant: the balances of a token add up to its supply, which
is within its maximum, and every balance is an amount of an existing token.
The actions change balances one at a time (`BalanceChange`) and the supply at
most once. The invariant holds again when a change of the supply is matched by
a balance, or one balance by another.
-/

namespace GameRewards.Token

open MultiIndex (Table Scoped)

-- ---------------------------------------------------------------------------
-- Balances and supplies
-- ---------------------------------------------------------------------------

def amountOf (symCode : UInt64) (r : Scoped Account) : Int :=
  if r.row.primaryKey = symCode then r.row.balance.amount.toInt else 0

def State.circulating (s : State) (symCode : UInt64) : Int := s.accounts.total (amountOf symCode)

/-- A missing row holds nothing. -/
def State.balanceOf (s : State) (owner : Name) (symCode : UInt64) : Int :=
  ((s.account owner symCode).map fun r => r.row.balance.amount.toInt).getD 0

def State.supplyOf (s : State) (symCode : UInt64) : Int :=
  ((s.stats symCode).map fun st => st.row.supply.amount.toInt).getD 0

theorem account_eq_some {s : State} : s.account owner symCode = some r ↔
    r ∈ s.accounts.rows ∧ r.scope = owner.value ∧ r.row.primaryKey = symCode := by
  rw [State.account, s.accounts.find_eq_some, Scoped.key_eq]

theorem account_key {s : State} (h : s.account owner symCode = some r) :
    r.key Account.primaryKey = toLex (owner.value, symCode) := Table.find_key h

theorem stats_key {s : State} (h : s.stats symCode = some st) :
    st.key CurrencyStats.primaryKey = toLex (symCode, symCode) := Table.find_key h

theorem account_code {s : State} (h : s.account owner symCode = some r) :
    r.row.balance.symbol.code = symCode := (account_eq_some.mp h).2.2

theorem sameAccount {owner owner' : Name} {c c' : UInt64} :
    toLex (owner'.value, c') = toLex (owner.value, c) ↔ owner' = owner ∧ c' = c := by
  cases owner
  cases owner'
  simp

theorem ite_sameAccount {owner owner' : Name} {c c' : UInt64} (x y : α)
    [Decidable (toLex (owner'.value, c') = toLex (owner.value, c))] :
    (if toLex (owner'.value, c') = toLex (owner.value, c) then x else y) =
      if owner' = owner ∧ c' = c then x else y := by
  by_cases h : owner' = owner ∧ c' = c
  · rw [if_pos h, if_pos (sameAccount.mpr h)]
  · rw [if_neg h, if_neg (mt sameAccount.mp h)]

theorem ite_sameStats {c c' : UInt64} (x y : α) [Decidable (toLex (c', c') = toLex (c, c))] :
    (if toLex (c', c') = toLex (c, c) then x else y) = if c' = c then x else y := by
  by_cases h : c' = c
  · rw [if_pos h, if_pos (by rw [h])]
  · rw [if_neg h, if_neg fun hlex => h (by simpa using hlex)]

-- ---------------------------------------------------------------------------
-- One balance changes
-- ---------------------------------------------------------------------------

/-- The balance of one owner moved by `d`; nothing else did. -/
structure BalanceChange (owner : Name) (symbol : Symbol) (d : Int) (s s' : State) : Prop where
  stat : s'.stat = s.stat
  account : ∃ amount : Int64, 0 ≤ amount.toInt ∧ amount.toInt ≤ Asset.maxAmount ∧
    amount.toInt = s.balanceOf owner symbol.code + d ∧
    ∀ o c, s'.account o c =
      if o = owner ∧ c = symbol.code then some ⟨owner.value, ⟨⟨amount, symbol⟩⟩⟩ else s.account o c
  circulating : ∀ c, s'.circulating c = s.circulating c + if c = symbol.code then d else 0

theorem BalanceChange.balanceOf (h : BalanceChange owner symbol d s s') (o : Name) (c : UInt64) :
    s'.balanceOf o c = s.balanceOf o c + if o = owner ∧ c = symbol.code then d else 0 := by
  obtain ⟨amount, -, -, hamount, hrows⟩ := h.account
  rw [State.balanceOf, hrows]
  split
  · rename_i hsame
    obtain ⟨rfl, rfl⟩ := hsame
    exact hamount
  · exact (Int.add_zero _).symm

theorem BalanceChange.covered (h : BalanceChange owner symbol d s s') :
    0 ≤ s.balanceOf owner symbol.code + d := by
  obtain ⟨amount, hnonneg, -, hamount, -⟩ := h.account
  exact hamount ▸ hnonneg

theorem BalanceChange.stats (h : BalanceChange owner symbol d s s') (c : UInt64) :
    s'.stats c = s.stats c := by
  rw [State.stats, h.stat, State.stats]

theorem account_writeBalance {s : State} (h : s.account owner symCode = some r) (amount : Int64)
    (o : Name) (c : UInt64) : (s.writeBalance r amount).account o c =
      if o = owner ∧ c = symCode then some (setBalance amount r) else s.account o c := by
  rw [State.account, State.writeBalance, Table.find_modify, account_key h, ite_sameAccount,
    ← State.account, h, Option.map_some, State.account]

theorem circulating_writeBalance {s : State} (h : s.account owner symCode = some r)
    (amount : Int64) (c : UInt64) : (s.writeBalance r amount).circulating c =
      s.circulating c + if c = symCode then amount.toInt - r.row.balance.amount.toInt else 0 := by
  have hfind : s.accounts.find (r.key Account.primaryKey) = some r := by
    rw [account_key h]
    exact h
  have hcode : r.row.balance.symbol.code = symCode := account_code h
  rw [State.circulating, State.writeBalance, Table.total_modify hfind, State.circulating]
  simp only [amountOf, setBalance, Account.primaryKey, hcode, eq_comm (a := symCode)]
  split <;> omega

theorem BalanceChange.of_write {s : State} {amount : Int64}
    (h : s.account owner symbol.code = some r) (hsymbol : r.row.balance.symbol = symbol)
    (hamount : amount.toInt = r.row.balance.amount.toInt + d) (hnonneg : 0 ≤ amount.toInt)
    (hmax : amount.toInt ≤ Asset.maxAmount) :
    BalanceChange owner symbol d s (s.writeBalance r amount) where
  stat := rfl
  account := by
    refine ⟨amount, hnonneg, hmax, ?_, fun o c => ?_⟩
    · rw [State.balanceOf, h]
      exact hamount
    · have hrow : setBalance amount r = ⟨owner.value, ⟨⟨amount, symbol⟩⟩⟩ := by
        rw [← (account_eq_some.mp h).2.1, ← hsymbol]
        rfl
      rw [account_writeBalance h, hrow]
  circulating c := by
    rw [circulating_writeBalance h, hamount, add_sub_cancel_left]

theorem BalanceChange.of_emplace {s : State} (value : Asset)
    (h : s.account owner value.symbol.code = none)
    (hstored : s.accounts.emplace ⟨owner.value, ⟨value⟩⟩ = some accounts)
    (hnonneg : 0 ≤ value.amount.toInt) (hmax : value.amount.toInt ≤ Asset.maxAmount) :
    BalanceChange owner value.symbol value.amount.toInt s { s with accounts := accounts } where
  stat := rfl
  account := by
    refine ⟨value.amount, hnonneg, hmax, ?_, fun o c => ?_⟩
    · rw [State.balanceOf, h]
      exact (Int.zero_add _).symm
    · rw [State.account, Table.find_emplace hstored, Scoped.key, Account.primaryKey,
        ite_sameAccount, State.account]
  circulating c := by
    rw [State.circulating, Table.total_emplace hstored, State.circulating]
    simp only [amountOf, Account.primaryKey, eq_comm (a := value.symbol.code)]

theorem subBalance_ok {s : State} (hv : value.InRange)
    (hr : ∀ r, s.account owner value.symbol.code = some r → r.row.balance.InRange)
    (h : subBalance s owner value = .ok s') :
    BalanceChange owner value.symbol (-value.amount.toInt) s s' := by
  simp only [subBalance, bind_ok, need_ok, check_ok, pure_ok] at h
  obtain ⟨r, hfind, _, hle, balance, hsub, rfl⟩ := h
  have hle := Int64.le_iff_toInt_le.mp hle
  obtain ⟨hexact, -, hrange⟩ := Asset.sub_ok (hr r hfind) hv hsub
  simp only [Asset.sub, bind_ok, check_ok] at hsub
  obtain ⟨_, hsymbol, -⟩ := hsub
  exact .of_write hfind hsymbol.symm (by omega) (by omega) hrange.2

theorem addBalance_ok {s : State} (hv : value.InRange) (hpos : 0 ≤ value.amount.toInt)
    (hr : ∀ r, s.account owner value.symbol.code = some r →
      r.row.balance.InRange ∧ 0 ≤ r.row.balance.amount.toInt)
    (h : addBalance s owner value = .ok s') :
    BalanceChange owner value.symbol value.amount.toInt s s' := by
  unfold addBalance at h
  split at h
  · rename_i hnone
    simp only [bind_ok, need_ok, pure_ok] at h
    obtain ⟨accounts, hstored, rfl⟩ := h
    exact .of_emplace value hnone hstored hpos hv.2
  · rename_i r hfind
    simp only [bind_ok, pure_ok] at h
    obtain ⟨balance, hadd, rfl⟩ := h
    obtain ⟨hrange, hnonneg⟩ := hr r hfind
    obtain ⟨hexact, -, hsum⟩ := Asset.add_ok hrange hv hadd
    simp only [Asset.add, bind_ok, check_ok] at hadd
    obtain ⟨_, hsymbol, -⟩ := hadd
    exact .of_write hfind hsymbol.symm hexact (by omega) hsum.2

-- ---------------------------------------------------------------------------
-- The invariant
-- ---------------------------------------------------------------------------

/-- A supply within its maximum, which is an amount of the same token. -/
structure CurrencyStats.Limited (st : CurrencyStats) : Prop where
  symbol : st.maxSupply.symbol = st.supply.symbol
  nonneg : 0 ≤ st.supply.amount.toInt
  le_max : st.supply.amount.toInt ≤ st.maxSupply.amount.toInt
  max_le : st.maxSupply.amount.toInt ≤ Asset.maxAmount

/-- Every balance is an amount of an existing token. -/
def State.HoldsTokens (s : State) : Prop :=
  ∀ owner c r, s.account owner c = some r → ∃ st, s.stats c = some st ∧
    r.row.balance.symbol = st.row.supply.symbol ∧ 0 ≤ r.row.balance.amount.toInt

structure Sound (s : State) : Prop where
  limited : ∀ c st, s.stats c = some st → st.row.Limited
  holds : s.HoldsTokens
  circulating : ∀ c, s.circulating c = s.supplyOf c

theorem Sound.deployed : Sound State.deployed where
  limited _ _ h := nomatch h
  holds _ _ _ h := nomatch h
  circulating _ := rfl

theorem State.HoldsTokens.balance_le {s : State} (h : s.HoldsTokens)
    (hr : s.account owner c = some r) : r.row.balance.amount.toInt ≤ s.circulating c := by
  obtain ⟨hmem, -, hcode⟩ := account_eq_some.mp hr
  have hnonneg : ∀ x ∈ s.accounts.rows, 0 ≤ amountOf c x := by
    intro x hx
    unfold amountOf
    split
    · obtain ⟨_, -, -, hx⟩ := h ⟨x.scope⟩ _ x (account_eq_some.mpr ⟨hx, rfl, rfl⟩)
      exact hx
    · exact le_rfl
  have hle := Table.le_total hmem hnonneg
  rw [amountOf, if_pos hcode] at hle
  exact hle

theorem Sound.balance_le (h : Sound s) (hr : s.account owner c = some r) :
    r.row.balance.amount.toInt ≤ s.supplyOf c := by
  rw [← h.circulating]
  exact h.holds.balance_le hr

theorem State.supplyOf_eq {s : State} (h : s.stats symCode = some st) :
    s.supplyOf symCode = st.row.supply.amount.toInt := by
  rw [State.supplyOf, h, Option.map_some, Option.getD_some]

theorem Sound.supplyOf_le (h : Sound s) (c : UInt64) : s.supplyOf c ≤ Asset.maxAmount := by
  cases hst : s.stats c with
  | none =>
    rw [State.supplyOf, hst]
    decide
  | some st =>
    have hlimited := h.limited c st hst
    rw [State.supplyOf, hst]
    exact hlimited.le_max.trans hlimited.max_le

theorem Sound.balanceOf_le (h : Sound s) (owner : Name) (c : UInt64) :
    s.balanceOf owner c ≤ s.supplyOf c := by
  cases hr : s.account owner c with
  | some r =>
    rw [State.balanceOf, hr]
    exact h.balance_le hr
  | none =>
    rw [State.balanceOf, hr]
    cases hst : s.stats c with
    | none => rw [State.supplyOf, hst]; rfl
    | some st => rw [State.supplyOf_eq hst]; exact (h.limited c st hst).nonneg

theorem Sound.balanceOf_nonneg (h : Sound s) (owner : Name) (c : UInt64) :
    0 ≤ s.balanceOf owner c := by
  cases hr : s.account owner c with
  | none => rw [State.balanceOf, hr, Option.map_none, Option.getD_none]
  | some r =>
    obtain ⟨_, -, -, hnonneg⟩ := h.holds owner c r hr
    rw [State.balanceOf, hr, Option.map_some, Option.getD_some]
    exact hnonneg

theorem Sound.balance_range (h : Sound s) (hr : s.account owner c = some r) :
    r.row.balance.InRange ∧ 0 ≤ r.row.balance.amount.toInt := by
  obtain ⟨_, -, -, hnonneg⟩ := h.holds owner c r hr
  have hle := (h.balance_le hr).trans (h.supplyOf_le c)
  exact ⟨⟨le_trans (by decide) hnonneg, hle⟩, hnonneg⟩

theorem BalanceChange.holds (h : BalanceChange owner symbol d s s') (hs : s.HoldsTokens)
    (hst : s.stats symbol.code = some st) (hsymbol : symbol = st.row.supply.symbol) :
    s'.HoldsTokens := by
  intro o c r hr
  rw [h.stats]
  obtain ⟨amount, hnonneg, -, -, hrows⟩ := h.account
  rw [hrows] at hr
  split at hr
  · rename_i hsame
    obtain ⟨-, rfl⟩ := hsame
    cases hr
    exact ⟨st, hst, hsymbol, hnonneg⟩
  · exact hs o c r hr

-- ---------------------------------------------------------------------------
-- The supply
-- ---------------------------------------------------------------------------

theorem stats_writeSupply {s : State} (h : s.stats symCode = some st) (amount : Int64)
    (c : UInt64) : (s.writeSupply st amount).stats c =
      if c = symCode then some (setSupply amount st) else s.stats c := by
  rw [State.stats, State.writeSupply, Table.find_modify, stats_key h, ite_sameStats,
    ← State.stats, h, Option.map_some, State.stats]

theorem balanceOf_writeSupply (s : State) (st : Scoped CurrencyStats) (amount : Int64)
    (owner : Name) (c : UInt64) : (s.writeSupply st amount).balanceOf owner c = s.balanceOf owner c :=
  rfl

theorem holds_writeSupply {s : State} (hs : s.HoldsTokens) (h : s.stats symCode = some st)
    (amount : Int64) : (s.writeSupply st amount).HoldsTokens := by
  intro o c r hr
  obtain ⟨st', hst', hsymbol, hnonneg⟩ := hs o c r hr
  rw [stats_writeSupply h]
  split
  · rename_i hc
    subst hc
    obtain rfl := Option.some.inj (h.symm.trans hst')
    exact ⟨_, rfl, hsymbol, hnonneg⟩
  · exact ⟨st', hst', hsymbol, hnonneg⟩

theorem Sound.of_supply (h : Sound s) (hst : s.stats symbol.code = some st)
    (hsymbol : symbol = st.row.supply.symbol)
    (hamount : amount.toInt = st.row.supply.amount.toInt + d) (hnonneg : 0 ≤ amount.toInt)
    (hmax : amount.toInt ≤ st.row.maxSupply.amount.toInt)
    (hb : BalanceChange owner symbol d (s.writeSupply st amount) s') : Sound s' := by
  have hst' : (s.writeSupply st amount).stats symbol.code = some (setSupply amount st) := by
    rw [stats_writeSupply hst, if_pos rfl]
  constructor
  · intro c st₁ hst₁
    rw [hb.stats, stats_writeSupply hst] at hst₁
    split at hst₁
    · cases hst₁
      obtain ⟨hsame, -, -, hle⟩ := h.limited _ _ hst
      exact ⟨hsame, hnonneg, hmax, hle⟩
    · exact h.limited c st₁ hst₁
  · exact hb.holds (holds_writeSupply h.holds hst amount) hst' hsymbol
  · intro c
    have hsame : (s.writeSupply st amount).circulating c = s.supplyOf c := h.circulating c
    rw [hb.circulating, hsame, State.supplyOf, State.supplyOf, hb.stats, stats_writeSupply hst]
    split
    · rename_i hc
      subst hc
      rw [hst]
      exact hamount.symm
    · exact Int.add_zero _

theorem Sound.of_moved (h : Sound s) (hst : s.stats symbol.code = some st)
    (hsymbol : symbol = st.row.supply.symbol) (hsub : BalanceChange owner symbol (-d) s s₁)
    (hadd : BalanceChange owner' symbol d s₁ s') : Sound s' := by
  have hstats : ∀ c, s'.stats c = s.stats c := fun c => (hadd.stats c).trans (hsub.stats c)
  constructor
  · intro c st' hst'
    exact h.limited c st' (hstats c ▸ hst')
  · exact hadd.holds (hsub.holds h.holds hst hsymbol) (hsub.stats _ ▸ hst) hsymbol
  · intro c
    rw [hadd.circulating, hsub.circulating, h.circulating, State.supplyOf, State.supplyOf, hstats]
    split <;> omega

theorem Sound.of_opened (h : Sound s) (hst : s.stats symbol.code = some st)
    (hsymbol : symbol = st.row.supply.symbol) (hchange : BalanceChange owner symbol 0 s s') :
    Sound s' := by
  constructor
  · exact fun c st' hst' => h.limited c st' (hchange.stats c ▸ hst')
  · exact hchange.holds h.holds hst hsymbol
  · intro c
    rw [hchange.circulating, h.circulating, State.supplyOf, State.supplyOf, hchange.stats, ite_self,
      Int.add_zero]

end GameRewards.Token
