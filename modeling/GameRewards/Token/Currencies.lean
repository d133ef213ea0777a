import GameRewards.Token.Laws

/-!
# The currencies

The entry of a token is what its one `create` said, and stays so; its supply is
what was issued less what was retired.
-/

namespace GameRewards.Token

open MultiIndex (Scoped)

-- ---------------------------------------------------------------------------
-- One action
-- ---------------------------------------------------------------------------

/-- What `create` fixes of a token. -/
structure Currency where
  issuer : Name
  maxSupply : Asset
  deriving DecidableEq, Repr

def CurrencyStats.currency (st : CurrencyStats) : Currency := ⟨st.issuer, st.maxSupply⟩

def State.currency? (s : State) (symCode : UInt64) : Option Currency :=
  (s.stats symCode).map fun st => st.row.currency

def Action.creates (symCode : UInt64) (a : Action) : Option Currency :=
  match a.call with
  | .create issuer maximumSupply =>
    if symCode = maximumSupply.symbol.code then some ⟨issuer, maximumSupply⟩ else none
  | _ => none

def amountIn (symCode : UInt64) (quantity : Asset) : Int :=
  if symCode = quantity.symbol.code then quantity.amount.toInt else 0

def Action.supplied (symCode : UInt64) (a : Action) : Int :=
  match a.call with
  | .issue _ quantity _ => amountIn symCode quantity
  | .retire quantity _ => -amountIn symCode quantity
  | _ => 0

structure CurrencyStep (symCode : UInt64) (s : State) (a : Action) (s' : State) : Prop where
  entry : (s'.currency? symCode).toList =
    (s.currency? symCode).toList ++ (a.creates symCode).toList
  supply : s'.supplyOf symCode = s.supplyOf symCode + a.supplied symCode

theorem CurrencyStep.of_stats (h : s'.stats symCode = s.stats symCode)
    (hcreates : a.creates symCode = none) (hsupplied : a.supplied symCode = 0) :
    CurrencyStep symCode s a s' where
  entry := by rw [State.currency?, State.currency?, h, hcreates, Option.toList_none, List.append_nil]
  supply := by rw [State.supplyOf, State.supplyOf, h, hsupplied, Int.add_zero]

theorem CurrencyStep.of_supply (hst : s.stats code = some st)
    (hstats : ∀ c, s'.stats c = if c = code then some (setSupply amount st) else s.stats c)
    (hamount : amount.toInt = st.row.supply.amount.toInt + d)
    (hcreates : a.creates symCode = none)
    (hsupplied : a.supplied symCode = if symCode = code then d else 0) :
    CurrencyStep symCode s a s' where
  entry := by
    rw [hcreates, Option.toList_none, List.append_nil, State.currency?, State.currency?, hstats]
    split
    · rename_i hcode
      rw [hcode, hst]
      rfl
    · rfl
  supply := by
    rw [hsupplied, State.supplyOf, hstats, State.supplyOf]
    split
    · rename_i hcode
      rw [hcode, hst]
      exact hamount
    · exact (Int.add_zero _).symm

theorem CurrencyStep.of_created (hfree : s.stats code = none) (hzero : st.row.supply.amount = 0)
    (hstats : ∀ c, s'.stats c = if c = code then some st else s.stats c)
    (hcreates : a.creates symCode = if symCode = code then some st.row.currency else none)
    (hsupplied : a.supplied symCode = 0) : CurrencyStep symCode s a s' where
  entry := by
    rw [hcreates, State.currency?, State.currency?, hstats]
    split
    · rename_i hcode
      rw [hcode, hfree]
      rfl
    · exact (List.append_nil _).symm
  supply := by
    rw [hsupplied, Int.add_zero, State.supplyOf, State.supplyOf, hstats]
    split
    · rename_i hcode
      rw [hcode, hfree, Option.map_some, hzero]
      rfl
    · rfl

theorem amountIn_neg (symCode : UInt64) (quantity : Asset) :
    -amountIn symCode quantity =
      if symCode = quantity.symbol.code then -quantity.amount.toInt else 0 := by
  unfold amountIn
  split <;> rfl

theorem Effect.currencyStep (he : Effect self s a s' notified) (symCode : UInt64) :
    CurrencyStep symCode s a s' := by
  cases he with
  | created _ hfree _ hrow _ hstats =>
    refine .of_created hfree (by rw [hrow]) hstats ?_ rfl
    rw [Action.creates, hrow]
    rfl
  | issued hq _ _ hamount _ hchange =>
    refine .of_supply hq.token (fun c => ?_) hamount rfl rfl
    rw [hchange.stats, stats_writeSupply hq.token]
  | retired hq _ hamount hchange =>
    refine .of_supply hq.token (fun c => ?_) (hamount.trans Int.sub_eq_add_neg) rfl
      (amountIn_neg _ _)
    rw [hchange.stats, stats_writeSupply hq.token]
  | transferred ht =>
    obtain ⟨s₁, hsub, hadd⟩ := ht.moved
    exact .of_stats ((hadd.stats _).trans (hsub.stats _)) rfl rfl
  | opened _ _ hsame =>
    rcases hsame with rfl | hchange
    · exact .of_stats rfl rfl rfl
    · exact .of_stats (hchange.stats _) rfl rfl
  | closed _ _ _ hstat _ _ => exact .of_stats (by rw [State.stats, hstat, State.stats]) rfl rfl

-- ---------------------------------------------------------------------------
-- Every run
-- ---------------------------------------------------------------------------

/-- In every run at most one `create` of a token goes through, and the issuer and
the maximum of the token are the ones it named. The supply is what was issued
less what was retired since. -/
theorem currency_as_created (self : Name) (actions : List Action) (symCode : UInt64) :
    ((run self actions).currency? symCode).toList =
      (events self actions).filterMap (fun e => e.request.creates symCode) ∧
    (run self actions).supplyOf symCode =
      ((events self actions).map fun e => e.request.supplied symCode).sum := by
  have hrun : Sound (run self actions) ∧
      ((run self actions).currency? symCode).toList =
        (events self actions).filterMap (fun e => e.request.creates symCode) ∧
      (run self actions).supplyOf symCode =
        ((events self actions).map fun e => e.request.supplied symCode).sum := by
    refine History.history_induction (P := fun (evs : List Event) (s : State) => Sound s ∧
      (s.currency? symCode).toList = evs.filterMap (fun e => e.request.creates symCode) ∧
        s.supplyOf symCode = (evs.map fun e => e.request.supplied symCode).sum)
      ⟨.deployed, rfl, rfl⟩ ?_ actions
    rintro evs s a s' notified ⟨hsound, hentry, hsupply⟩ hx
    have he := exec_effect hsound hx
    have hstep := he.currencyStep symCode
    refine ⟨hsound.step he, ?_, ?_⟩
    · rw [hstep.entry, hentry, List.filterMap_append]
      cases hcreates : a.creates symCode <;> simp [hcreates]
    · rw [hstep.supply, hsupply, List.map_append, List.sum_append]
      simp
  exact hrun.2

end GameRewards.Token
