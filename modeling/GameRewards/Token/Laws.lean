import GameRewards.Token.Balances

/-!
# What the token contract does

`Effect` takes the actions apart, once. Balances are what came in less what
went out, they add up to the supply, and nobody's shrinks without their
authority.
-/

namespace GameRewards.Token

open MultiIndex (Table Scoped)

-- ---------------------------------------------------------------------------
-- What an action does
-- ---------------------------------------------------------------------------

structure Quantity (s : State) (quantity : Asset) (st : Scoped CurrencyStats) : Prop where
  token : s.stats quantity.symbol.code = some st
  symbol : quantity.symbol = st.row.supply.symbol
  range : quantity.InRange
  positive : 0 < quantity.amount.toInt

/-- A successful transfer: what it found, and the two balances it changes. -/
structure Transferred (ctx : Context) (s : State) (from' to' : Name) (quantity : Asset) (memo : Bytes)
    (s' : State) : Prop where
  distinct : from' ≠ to'
  auth : ctx.hasAuth from' = true
  isAccount : ctx.isAccount to' = true
  valid : quantity.isValid = true
  memo_le : memo.length ≤ 256
  token : ∃ st, Quantity s quantity st
  moved : ∃ s₁, BalanceChange from' quantity.symbol (-quantity.amount.toInt) s s₁ ∧
    BalanceChange to' quantity.symbol quantity.amount.toInt s₁ s'

inductive Effect (self : Name) (s : State) : Action → State → List Name → Prop
  | created : ctx.hasAuth self = true → s.stats maximumSupply.symbol.code = none →
      st.row.Limited → st.row = ⟨⟨0, maximumSupply.symbol⟩, maximumSupply, issuer⟩ →
      s'.accounts = s.accounts →
      (∀ c, s'.stats c = if c = maximumSupply.symbol.code then some st else s.stats c) →
      Effect self s ⟨ctx, .create issuer maximumSupply⟩ s' []
  | issued : Quantity s quantity st → to' = st.row.issuer → ctx.hasAuth st.row.issuer = true →
      amount.toInt = st.row.supply.amount.toInt + quantity.amount.toInt →
      amount.toInt ≤ st.row.maxSupply.amount.toInt →
      BalanceChange st.row.issuer quantity.symbol quantity.amount.toInt (s.writeSupply st amount) s' →
      Effect self s ⟨ctx, .issue to' quantity memo⟩ s' []
  | retired : Quantity s quantity st → ctx.hasAuth st.row.issuer = true →
      amount.toInt = st.row.supply.amount.toInt - quantity.amount.toInt →
      BalanceChange st.row.issuer quantity.symbol (-quantity.amount.toInt) (s.writeSupply st amount)
        s' →
      Effect self s ⟨ctx, .retire quantity memo⟩ s' []
  | transferred : Transferred ctx s from' to' quantity memo s' →
      Effect self s ⟨ctx, .transfer from' to' quantity memo⟩ s' [from', to']
  | opened : s.stats symbol.code = some st → symbol = st.row.supply.symbol →
      s' = s ∨ BalanceChange owner symbol 0 s s' →
      Effect self s ⟨ctx, .open' owner symbol ramPayer⟩ s' []
  | closed : ctx.hasAuth owner = true → s.account owner symbol.code = some r →
      r.row.balance.amount = 0 → s'.stat = s.stat →
      (∀ o c, s'.account o c = if o = owner ∧ c = symbol.code then none else s.account o c) →
      (∀ c, s'.circulating c = s.circulating c) →
      Effect self s ⟨ctx, .close owner symbol⟩ s' []

theorem silent_ok {x : Result State} :
    (·, ([] : List Name)) <$> x = .ok (s', notified) ↔ x = .ok s' ∧ notified = [] := by
  simp only [map_ok, Prod.mk.injEq]
  constructor
  · rintro ⟨_, h, rfl, rfl⟩
    exact ⟨h, rfl⟩
  · rintro ⟨h, rfl⟩
    exact ⟨s', h, rfl, rfl⟩

theorem toInt_zero_lt {a : Int64} (h : 0 < a) : 0 < a.toInt := Int64.lt_iff_toInt_lt.mp h

theorem create_ok (h : create self ctx s issuer maximumSupply = .ok s') :
    Effect self s ⟨ctx, .create issuer maximumSupply⟩ s' [] := by
  simp only [create, bind_ok, requireAuth_ok, check_ok, need_ok, pure_ok] at h
  obtain ⟨_, hauth, _, -, _, hvalid, _, hpos, _, hfree, stat, hstored, rfl⟩ := h
  obtain ⟨hrange, -⟩ := Asset.isValid_iff.mp hvalid
  let st : Scoped CurrencyStats :=
    ⟨maximumSupply.symbol.code, ⟨0, maximumSupply.symbol⟩, maximumSupply, issuer⟩
  have hlimited : st.row.Limited := ⟨rfl, le_rfl, (toInt_zero_lt hpos).le, hrange.2⟩
  refine .created hauth hfree hlimited rfl rfl fun c => ?_
  rw [State.stats, Table.find_emplace hstored, Scoped.key, CurrencyStats.primaryKey, ite_sameStats,
    State.stats]

/-- What was left to issue, in 64 bits, is exact under the invariant. -/
theorem CurrencyStats.Limited.room {st : CurrencyStats} (h : st.Limited) :
    (st.maxSupply.amount - st.supply.amount).toInt =
      st.maxSupply.amount.toInt - st.supply.amount.toInt := by
  have hnonneg := h.nonneg
  have hle := h.le_max
  have hmax := h.max_le
  simp only [Asset.maxAmount] at hmax
  rw [Int64.toInt_sub, Int.bmod_eq_of_le] <;> omega

theorem CurrencyStats.Limited.range {st : CurrencyStats} (h : st.Limited) : st.supply.InRange :=
  ⟨le_trans (by decide) h.nonneg, h.le_max.trans h.max_le⟩

theorem Sound.account_range {s : State} (h : Sound s) (owner : Name) (c : UInt64) :
    ∀ r, s.account owner c = some r →
      r.row.balance.InRange ∧ 0 ≤ r.row.balance.amount.toInt :=
  fun _ hr => h.balance_range hr

theorem issue_ok (hs : Sound s) (h : issue ctx s to' quantity memo = .ok s') :
    Effect self s ⟨ctx, .issue to' quantity memo⟩ s' [] := by
  simp only [issue, bind_ok, requireAuth_ok, check_ok, need_ok] at h
  obtain ⟨_, -, _, -, st, hst, _, hto, _, hauth, _, hvalid, _, hpos, _, hsymbol, _, hroom, h⟩ := h
  obtain ⟨supply, hadd, hbalance⟩ := h
  have hlimited := hs.limited _ st hst
  have hrange := (Asset.isValid_iff.mp hvalid).1
  have hpos := toInt_zero_lt hpos
  obtain ⟨hexact, -, -⟩ := Asset.add_ok hlimited.range hrange hadd
  have hroom := Int64.le_iff_toInt_le.mp hroom
  rw [hlimited.room] at hroom
  refine .issued ⟨hst, hsymbol, hrange, hpos⟩ hto hauth hexact (by omega) ?_
  exact addBalance_ok hrange hpos.le (hs.account_range _ _) hbalance

theorem retire_ok (hs : Sound s) (h : retire ctx s quantity memo = .ok s') :
    Effect self s ⟨ctx, .retire quantity memo⟩ s' [] := by
  simp only [retire, bind_ok, requireAuth_ok, check_ok, need_ok] at h
  obtain ⟨_, -, _, -, st, hst, _, hauth, _, hvalid, _, hpos, _, hsymbol, supply, hsub, hbalance⟩ := h
  have hlimited := hs.limited _ st hst
  have hrange := (Asset.isValid_iff.mp hvalid).1
  obtain ⟨hexact, -, -⟩ := Asset.sub_ok hlimited.range hrange hsub
  refine .retired ⟨hst, hsymbol, hrange, toInt_zero_lt hpos⟩ hauth hexact ?_
  exact subBalance_ok hrange (fun r hr => (hs.balance_range hr).1) hbalance

theorem transfer_ok (hs : Sound s) (h : transfer ctx s from' to' quantity memo = .ok (s', notified)) :
    Effect self s ⟨ctx, .transfer from' to' quantity memo⟩ s' notified := by
  simp only [transfer, bind_ok, requireAuth_ok, check_ok, need_ok, pure_ok, Prod.mk.injEq] at h
  obtain ⟨_, hne, _, hauth, _, haccount, st, hst, _, hvalid, _, hpos, _, hsymbol, _, hmemo, h⟩ := h
  obtain ⟨s₁, hsub, _, hadd, rfl, rfl⟩ := h
  have hrange := (Asset.isValid_iff.mp hvalid).1
  have hpos := toInt_zero_lt hpos
  have hsub := subBalance_ok hrange (fun r hr => (hs.balance_range hr).1) hsub
  refine .transferred ⟨hne, hauth, haccount, hvalid, hmemo, ⟨st, hst, hsymbol, hrange, hpos⟩, s₁,
    hsub, addBalance_ok hrange hpos.le (fun r hr => ?_) hadd⟩
  -- The recipient's row is the one before the sender paid.
  obtain ⟨_, -, -, -, hrows⟩ := hsub.account
  rw [hrows, if_neg fun hsame => hne hsame.1.symm] at hr
  exact hs.balance_range hr

theorem open_ok (h : open' ctx s owner symbol ramPayer = .ok s') :
    Effect self s ⟨ctx, .open' owner symbol ramPayer⟩ s' [] := by
  simp only [open', bind_ok, requireAuth_ok, check_ok, need_ok] at h
  obtain ⟨_, -, _, -, st, hst, _, hsymbol, h⟩ := h
  refine .opened hst hsymbol.symm ?_
  split at h
  · rename_i hnone
    simp only [bind_ok, need_ok, pure_ok] at h
    obtain ⟨balance, hmake, accounts, hstored, rfl⟩ := h
    obtain ⟨rfl, -, -⟩ := Asset.make_ok hmake
    have hzero : (0 : Int64).toInt = 0 := rfl
    have hmax : (0 : Int64).toInt ≤ Asset.maxAmount := by decide
    have hchange := BalanceChange.of_emplace ⟨0, symbol⟩ hnone hstored hzero.ge hmax
    exact .inr (hzero ▸ hchange)
  · exact .inl (pure_ok.mp h).symm

theorem close_ok (h : close ctx s owner symbol = .ok s') :
    Effect self s ⟨ctx, .close owner symbol⟩ s' [] := by
  simp only [close, bind_ok, requireAuth_ok, check_ok, need_ok, pure_ok] at h
  obtain ⟨_, hauth, r, hfind, _, hzero, rfl⟩ := h
  have hkey := account_key hfind
  have hrow : s.accounts.find (r.key Account.primaryKey) = some r := by
    rw [hkey]
    exact hfind
  refine .closed hauth hfind hzero rfl (fun o c => ?_) fun c => ?_
  · rw [State.account, Table.find_erase, hkey, ite_sameAccount, State.account]
  · have hnothing : amountOf c r = 0 := by simp [amountOf, hzero]
    rw [State.circulating, Table.total_erase hrow, hnothing, sub_zero, State.circulating]

theorem exec_effect (hs : Sound s) (h : exec self s a = .ok (s', notified)) :
    Effect self s a s' notified := by
  obtain ⟨ctx, call⟩ := a
  cases call with
  | create issuer maximumSupply =>
    obtain ⟨hcall, rfl⟩ := silent_ok.mp h
    exact create_ok hcall
  | issue to' quantity memo =>
    obtain ⟨hcall, rfl⟩ := silent_ok.mp h
    exact issue_ok hs hcall
  | retire quantity memo =>
    obtain ⟨hcall, rfl⟩ := silent_ok.mp h
    exact retire_ok hs hcall
  | transfer from' to' quantity memo => exact transfer_ok hs h
  | open' owner symbol ramPayer =>
    obtain ⟨hcall, rfl⟩ := silent_ok.mp h
    exact open_ok hcall
  | close owner symbol =>
    obtain ⟨hcall, rfl⟩ := silent_ok.mp h
    exact close_ok hcall

-- ---------------------------------------------------------------------------
-- Every run
-- ---------------------------------------------------------------------------

theorem Sound.of_issued (h : Sound s) (hq : Quantity s quantity st)
    (hamount : amount.toInt = st.row.supply.amount.toInt + quantity.amount.toInt)
    (hmax : amount.toInt ≤ st.row.maxSupply.amount.toInt)
    (hchange : BalanceChange st.row.issuer quantity.symbol quantity.amount.toInt
      (s.writeSupply st amount) s') : Sound s' := by
  have hnonneg := (h.limited _ _ hq.token).nonneg
  have hpos := hq.positive
  exact h.of_supply hq.token hq.symbol hamount (by omega) hmax hchange

theorem Sound.of_retired (h : Sound s) (hq : Quantity s quantity st)
    (hamount : amount.toInt = st.row.supply.amount.toInt - quantity.amount.toInt)
    (hchange : BalanceChange st.row.issuer quantity.symbol (-quantity.amount.toInt)
      (s.writeSupply st amount) s') : Sound s' := by
  have hle := (h.limited _ _ hq.token).le_max
  have hpos := hq.positive
  -- The issuer's balance covers the quantity, and the supply covers the balance.
  have hcovered := hchange.covered
  have hbalance := h.balanceOf_le st.row.issuer quantity.symbol.code
  rw [State.supplyOf_eq hq.token] at hbalance
  rw [balanceOf_writeSupply] at hcovered
  exact h.of_supply hq.token hq.symbol (by omega) (by omega) (by omega) hchange

theorem Sound.of_created (h : Sound s) (hfree : s.stats symCode = none) (hlimited : st.row.Limited)
    (hsupply : st.row.supply.amount = 0) (haccounts : s'.accounts = s.accounts)
    (hstats : ∀ c, s'.stats c = if c = symCode then some st else s.stats c) : Sound s' := by
  constructor
  · intro c st' hst'
    rw [hstats] at hst'
    split at hst'
    · cases hst'
      exact hlimited
    · exact h.limited c st' hst'
  · intro o c r hr
    rw [State.account, haccounts, ← State.account] at hr
    obtain ⟨st', hst', hholds⟩ := h.holds o c r hr
    have hne : c ≠ symCode := by
      rintro rfl
      rw [hfree] at hst'
      cases hst'
    exact ⟨st', by rw [hstats, if_neg hne, hst'], hholds⟩
  · intro c
    rw [State.circulating, haccounts, ← State.circulating, h.circulating, State.supplyOf,
      State.supplyOf, hstats]
    split
    · rename_i hc
      rw [hc, hfree, Option.map_some, hsupply]
      rfl
    · rfl

theorem Sound.of_closed (h : Sound s) (hstat : s'.stat = s.stat)
    (hrows : ∀ o c, s'.account o c = if o = owner ∧ c = symCode then none else s.account o c)
    (hcirculating : ∀ c, s'.circulating c = s.circulating c) : Sound s' := by
  have hstats : ∀ c, s'.stats c = s.stats c := fun c => by rw [State.stats, hstat, State.stats]
  constructor
  · exact fun c st hst => h.limited c st (hstats c ▸ hst)
  · intro o c r hr
    rw [hrows] at hr
    split at hr
    · cases hr
    · rw [hstats]
      exact h.holds o c r hr
  · intro c
    rw [hcirculating, h.circulating, State.supplyOf, State.supplyOf, hstats]

theorem Sound.step (h : Sound s) (he : Effect self s a s' notified) : Sound s' := by
  cases he with
  | created _ hfree hlimited hrow haccounts hstats =>
    exact h.of_created hfree hlimited (by rw [hrow]) haccounts hstats
  | issued hq _ _ hamount hmax hchange => exact h.of_issued hq hamount hmax hchange
  | retired hq _ hamount hchange => exact h.of_retired hq hamount hchange
  | transferred ht =>
    obtain ⟨st, hq⟩ := ht.token
    obtain ⟨s₁, hsub, hadd⟩ := ht.moved
    exact h.of_moved hq.token hq.symbol hsub hadd
  | opened hst hsymbol hsame =>
    rcases hsame with rfl | hchange
    · exact h
    · exact h.of_opened hst hsymbol hchange
  | closed _ _ _ hstat hrows hcirculating => exact h.of_closed hstat hrows hcirculating

theorem run_sound (self : Name) (actions : List Action) : Sound (run self actions) :=
  History.run_invariant .deployed (fun _ _ _ _ h hx => h.step (exec_effect h hx)) actions

abbrev Event := History.Event State Action (List Name)

def events (self : Name) (actions : List Action) : List Event :=
  History.events (exec self) State.deployed actions

-- ---------------------------------------------------------------------------
-- What comes in and what goes out
-- ---------------------------------------------------------------------------

def amountFor (owner : Name) (symCode : UInt64) (holder : Name) (quantity : Asset) : Int :=
  if owner = holder ∧ symCode = quantity.symbol.code then quantity.amount.toInt else 0

def Action.credit (owner : Name) (symCode : UInt64) (a : Action) : Int :=
  match a.call with
  | .issue to' quantity _ => amountFor owner symCode to' quantity
  | .transfer _ to' quantity _ => amountFor owner symCode to' quantity
  | _ => 0

/-- What it takes from them. A retired quantity is taken from the issuer. -/
def Action.debit (owner : Name) (symCode : UInt64) (s : State) (a : Action) : Int :=
  match a.call with
  | .retire quantity _ =>
    ((s.stats quantity.symbol.code).map fun st =>
      amountFor owner symCode st.row.issuer quantity).getD 0
  | .transfer from' _ quantity _ => amountFor owner symCode from' quantity
  | _ => 0

theorem amountFor_neg (owner : Name) (symCode : UInt64) (holder : Name) (quantity : Asset) :
    (if owner = holder ∧ symCode = quantity.symbol.code then -quantity.amount.toInt else 0) =
      -amountFor owner symCode holder quantity := by
  unfold amountFor
  split <;> rfl

theorem Effect.balanceOf (he : Effect self s a s' notified) (owner : Name) (symCode : UInt64) :
    s'.balanceOf owner symCode =
      s.balanceOf owner symCode + a.credit owner symCode - a.debit owner symCode s := by
  cases he with
  | created _ _ _ _ haccounts _ =>
    simp only [State.balanceOf, State.account, haccounts, Action.credit, Action.debit]
    omega
  | issued _ hto _ _ _ hchange =>
    rw [hchange.balanceOf, balanceOf_writeSupply]
    simp only [Action.credit, Action.debit, hto, amountFor]
    omega
  | retired hq _ _ hchange =>
    rw [hchange.balanceOf, balanceOf_writeSupply, amountFor_neg]
    simp only [Action.credit, Action.debit, hq.token, Option.map_some, Option.getD_some]
    omega
  | transferred ht =>
    obtain ⟨s₁, hsub, hadd⟩ := ht.moved
    rw [hadd.balanceOf, hsub.balanceOf, amountFor_neg]
    simp only [Action.credit, Action.debit, amountFor]
    omega
  | opened _ _ hsame =>
    simp only [Action.credit, Action.debit]
    rcases hsame with rfl | hchange
    · omega
    · rw [hchange.balanceOf, ite_self]
      omega
  | closed _ hfind hzero _ hrows _ =>
    simp only [Action.credit, Action.debit]
    rw [State.balanceOf, hrows]
    split
    · rename_i hsame
      obtain ⟨rfl, rfl⟩ := hsame
      simp [State.balanceOf, hfind, hzero]
    · rw [State.balanceOf]
      omega

theorem amountFor_nonneg (h : 0 < quantity.amount.toInt) (owner : Name) (symCode : UInt64)
    (holder : Name) : 0 ≤ amountFor owner symCode holder quantity := by
  unfold amountFor
  split
  · exact h.le
  · exact le_rfl

theorem Effect.credit_nonneg (he : Effect self s a s' notified) (owner : Name) (symCode : UInt64) :
    0 ≤ a.credit owner symCode := by
  cases he with
  | issued hq => exact amountFor_nonneg hq.positive owner symCode _
  | transferred ht =>
    obtain ⟨_, hq⟩ := ht.token
    exact amountFor_nonneg hq.positive owner symCode _
  | _ => exact le_rfl

theorem amountFor_other (h : ¬ (owner = holder ∧ symCode = quantity.symbol.code)) :
    amountFor owner symCode holder quantity = 0 := if_neg h

theorem Effect.debit_eq_zero (he : Effect self s a s' notified) (h : a.ctx.hasAuth owner = false)
    (symCode : UInt64) : a.debit owner symCode s = 0 := by
  cases he with
  | retired hq hauth =>
    simp only [Action.debit, hq.token, Option.map_some, Option.getD_some]
    refine amountFor_other ?_
    rintro ⟨rfl, -⟩
    exact absurd (hauth.symm.trans h) (by decide)
  | transferred ht =>
    refine amountFor_other ?_
    rintro ⟨rfl, -⟩
    exact absurd (ht.auth.symm.trans h) (by decide)
  | _ => rfl

def credits (owner : Name) (symCode : UInt64) (evs : List Event) : Int :=
  (evs.map fun e => e.request.credit owner symCode).sum

def debits (owner : Name) (symCode : UInt64) (evs : List Event) : Int :=
  (evs.map fun e => e.request.debit owner symCode e.pre).sum

theorem event_effect (h : e ∈ events self actions) :
    Effect self e.pre e.request e.post e.output := by
  obtain ⟨js, hjs⟩ := History.pre_reached h
  have hsound : Sound e.pre := hjs ▸ run_sound self js
  exact exec_effect hsound (History.events_exec h)

theorem Effect.debit_nonneg (he : Effect self s a s' notified) (owner : Name) (symCode : UInt64) :
    0 ≤ a.debit owner symCode s := by
  cases he with
  | retired hq =>
    simp only [Action.debit, hq.token, Option.map_some, Option.getD_some]
    exact amountFor_nonneg hq.positive owner symCode _
  | transferred ht =>
    obtain ⟨_, hq⟩ := ht.token
    exact amountFor_nonneg hq.positive owner symCode _
  | _ => exact le_rfl

theorem run_balance (self : Name) (actions : List Action) (owner : Name) (symCode : UInt64) :
    (run self actions).balanceOf owner symCode =
      credits owner symCode (events self actions) - debits owner symCode (events self actions) := by
  have hrun : Sound (run self actions) ∧ (run self actions).balanceOf owner symCode =
      credits owner symCode (events self actions) - debits owner symCode (events self actions) := by
    refine History.history_induction (P := fun (evs : List Event) (s : State) => Sound s ∧
      s.balanceOf owner symCode = credits owner symCode evs - debits owner symCode evs)
      ⟨.deployed, rfl⟩ ?_ actions
    rintro evs s a s' notified ⟨hsound, hbalance⟩ hx
    have he := exec_effect hsound hx
    refine ⟨hsound.step he, ?_⟩
    simp only [credits, debits, List.map_append, List.sum_append, List.map_cons, List.map_nil,
      List.sum_cons, List.sum_nil] at hbalance ⊢
    rw [he.balanceOf, hbalance]
    omega
  exact hrun.2

/-- In every run the balances of a token add up to its supply, which is within
its maximum, and each is an amount of the token between zero and the supply. -/
theorem supply_backed (self : Name) (actions : List Action) (symCode : UInt64) :
    (run self actions).circulating symCode = (run self actions).supplyOf symCode ∧
    (∀ st, (run self actions).stats symCode = some st → st.row.Limited) ∧
    ∀ owner r, (run self actions).account owner symCode = some r →
      ∃ st, (run self actions).stats symCode = some st ∧
        r.row.balance.symbol = st.row.supply.symbol ∧ 0 ≤ r.row.balance.amount.toInt ∧
        r.row.balance.amount.toInt ≤ st.row.supply.amount.toInt := by
  have hs := run_sound self actions
  refine ⟨hs.circulating symCode, hs.limited symCode, fun owner r hr => ?_⟩
  obtain ⟨st, hst, hsymbol, hnonneg⟩ := hs.holds owner symCode r hr
  have hle := hs.balance_le hr
  rw [State.supplyOf_eq hst] at hle
  exact ⟨st, hst, hsymbol, hnonneg, hle⟩

/-- In every run a balance is what was issued and transferred to its owner less
what was transferred from them or retired, and only actions with the owner's
authority take anything. -/
theorem account_statement (self : Name) (actions : List Action) (owner : Name) (symCode : UInt64) :
    (run self actions).balanceOf owner symCode =
      credits owner symCode (events self actions) - debits owner symCode (events self actions) ∧
    ∀ e ∈ events self actions, 0 ≤ e.request.credit owner symCode ∧
      0 ≤ e.request.debit owner symCode e.pre ∧
      (e.request.ctx.hasAuth owner = false → e.request.debit owner symCode e.pre = 0) := by
  refine ⟨run_balance self actions owner symCode, fun e he => ?_⟩
  have heffect := event_effect he
  exact ⟨heffect.credit_nonneg owner symCode, heffect.debit_nonneg owner symCode,
    fun hauth => heffect.debit_eq_zero hauth symCode⟩

-- ---------------------------------------------------------------------------
-- When a transfer goes through
-- ---------------------------------------------------------------------------

theorem subBalance_exists (hs : Sound s) (hq : Quantity s quantity st)
    (hfunds : quantity.amount.toInt ≤ s.balanceOf owner quantity.symbol.code) :
    ∃ s', subBalance s owner quantity = .ok s' := by
  have hpos := hq.positive
  cases hfind : s.account owner quantity.symbol.code with
  | none =>
    rw [State.balanceOf, hfind, Option.map_none, Option.getD_none] at hfunds
    omega
  | some r =>
    rw [State.balanceOf, hfind, Option.map_some, Option.getD_some] at hfunds
    obtain ⟨st', hst', hsymbol, -⟩ := hs.holds _ _ r hfind
    obtain rfl := Option.some.inj (hq.token.symm.trans hst')
    have hmax := (hs.balance_range hfind).1.2
    obtain ⟨balance, hsub, -⟩ := Asset.sub_exists (hq.symbol.trans hsymbol.symm)
      (Int.sub_nonneg.mpr hfunds) (by omega)
    simp only [subBalance, bind_ok, need_ok, check_ok, pure_ok]
    exact ⟨_, r, hfind, (), Int64.le_iff_toInt_le.mpr hfunds, balance, hsub, rfl⟩

theorem addBalance_exists (hs : s.HoldsTokens) (owner : Name)
    (hst : s.stats quantity.symbol.code = some st)
    (hsymbol : quantity.symbol = st.row.supply.symbol) (hpos : 0 ≤ quantity.amount.toInt)
    (hroom : s.circulating quantity.symbol.code + quantity.amount.toInt ≤ Asset.maxAmount) :
    ∃ s', addBalance s owner quantity = .ok s' := by
  cases hfind : s.account owner quantity.symbol.code with
  | none =>
    let row : Scoped Account := ⟨owner.value, ⟨quantity⟩⟩
    have hfree : s.accounts.find (row.key Account.primaryKey) = none := hfind
    obtain ⟨accounts, hstored⟩ := Table.emplace_of_find hfree
    simp only [addBalance, hfind, bind_ok, need_ok, pure_ok]
    exact ⟨_, accounts, hstored, rfl⟩
  | some r =>
    obtain ⟨st', hst', hheld, hnonneg⟩ := hs _ _ r hfind
    obtain rfl := Option.some.inj (hst.symm.trans hst')
    have hle := hs.balance_le hfind
    obtain ⟨balance, hadd, -⟩ := Asset.add_exists (hsymbol.trans hheld.symm)
      (Int.add_nonneg hnonneg hpos) (by omega)
    simp only [addBalance, hfind, bind_ok, pure_ok]
    exact ⟨_, balance, hadd, rfl⟩

structure Transferable (ctx : Context) (s : State) (from' to' : Name) (quantity : Asset)
    (memo : Bytes) : Prop where
  distinct : from' ≠ to'
  auth : ctx.hasAuth from' = true
  isAccount : ctx.isAccount to' = true
  valid : quantity.isValid = true
  positive : 0 < quantity.amount
  memo_le : memo.length ≤ 256
  token : ∃ st, s.stats quantity.symbol.code = some st ∧ quantity.symbol = st.row.supply.symbol
  funds : quantity.amount.toInt ≤ s.balanceOf from' quantity.symbol.code

theorem transfer_exists (hs : Sound s) (h : Transferable ctx s from' to' quantity memo) :
    ∃ r, transfer ctx s from' to' quantity memo = .ok r := by
  obtain ⟨st, hst, hsymbol⟩ := h.token
  have hrange := (Asset.isValid_iff.mp h.valid).1
  have hpos := toInt_zero_lt h.positive
  have hq : Quantity s quantity st := ⟨hst, hsymbol, hrange, hpos⟩
  obtain ⟨s₁, hsub⟩ := subBalance_exists hs hq h.funds
  have hchange := subBalance_ok hrange (fun r hr => (hs.balance_range hr).1) hsub
  have hroom : s₁.circulating quantity.symbol.code + quantity.amount.toInt ≤ Asset.maxAmount := by
    rw [hchange.circulating, if_pos rfl, hs.circulating, Int.neg_add_cancel_right]
    exact hs.supplyOf_le _
  obtain ⟨s₂, hadd⟩ := addBalance_exists (hchange.holds hs.holds hst hsymbol) to'
    ((hchange.stats _).trans hst) hsymbol hpos.le hroom
  simp only [transfer, bind_ok, requireAuth_ok, check_ok, need_ok, pure_ok]
  exact ⟨_, (), h.distinct, (), h.auth, (), h.isAccount, st, hst, (), h.valid, (), h.positive, (),
    hsymbol, (), h.memo_le, s₁, hsub, s₂, hadd, rfl⟩

theorem Transferred.transferable (h : Transferred ctx s from' to' quantity memo s') :
    Transferable ctx s from' to' quantity memo := by
  obtain ⟨st, hq⟩ := h.token
  obtain ⟨s₁, hsub, -⟩ := h.moved
  have hcovered := hsub.covered
  exact ⟨h.distinct, h.auth, h.isAccount, h.valid, Int64.lt_iff_toInt_lt.mpr hq.positive, h.memo_le,
    ⟨st, hq.token, hq.symbol⟩, by omega⟩

theorem transfer_iff (hs : Sound s) (ctx : Context) (from' to' : Name) (quantity : Asset)
    (memo : Bytes) :
    (∃ r, transfer ctx s from' to' quantity memo = .ok r) ↔
      Transferable ctx s from' to' quantity memo := by
  constructor
  · rintro ⟨⟨s', notified⟩, h⟩
    -- The account the contract runs on plays no part in a transfer.
    have he : Effect ⟨0⟩ s ⟨ctx, .transfer from' to' quantity memo⟩ s' notified := transfer_ok hs h
    cases he with
    | transferred ht => exact ht.transferable
  · exact transfer_exists hs

/-- In every reachable state a transfer succeeds exactly if it is between two
accounts with the sender's authority, of a positive valid quantity of an
existing token with the right decimals, within the sender's balance, and its
memo fits: the recipient's balance never overflows. -/
theorem transfer_succeeds_iff (self : Name) (actions : List Action) (ctx : Context)
    (from' to' : Name) (quantity : Asset) (memo : Bytes) :
    (∃ r, transfer ctx (run self actions) from' to' quantity memo = .ok r) ↔
      Transferable ctx (run self actions) from' to' quantity memo :=
  transfer_iff (run_sound self actions) ctx from' to' quantity memo

end GameRewards.Token
