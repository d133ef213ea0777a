import GameRewards.Treasury

/-!
# When a payout goes through

The inline transfers of a payout are made one after the other, each from what
the ones before it left. If nobody acts in between, they go through together
exactly if each can be delivered and their sum is held, and then they move what
they say and nothing else.
-/

namespace GameRewards.System

-- ---------------------------------------------------------------------------
-- One transfer
-- ---------------------------------------------------------------------------

structure Deliverable (ctx : Context) (l : Ledgers) (t : Transfer) : Prop where
  distinct : t.sender ≠ t.recipient
  isAccount : ctx.isAccount t.recipient = true
  valid : t.quantity.isValid = true
  positive : 0 < t.quantity.amount
  memo_le : t.memo.length ≤ 256
  token : ∃ st, (l t.code).stats t.quantity.symbol.code = some st ∧
    t.quantity.symbol = st.row.supply.symbol

theorem step_exists_iff {l : Ledgers} (hs : SoundTokens l) :
    (∃ l', l.step (t.request ctx) = .ok l') ↔ Deliverable ctx l t ∧
      t.quantity.amount.toInt ≤ (l t.code).balanceOf t.sender t.quantity.symbol.code := by
  have htransfer := Token.transfer_iff (hs t.code)
    { ctx with hasAuth := fun n => decide (n = t.sender) } t.sender t.recipient t.quantity t.memo
  constructor
  · rintro ⟨l', h⟩
    obtain ⟨r, hexec, -⟩ := map_ok.mp h
    have ht := htransfer.mp ⟨r, hexec⟩
    exact ⟨⟨ht.distinct, ht.isAccount, ht.valid, ht.positive, ht.memo_le, ht.token⟩, ht.funds⟩
  · rintro ⟨ht, hfunds⟩
    obtain ⟨r, hr⟩ := htransfer.mpr
      ⟨ht.distinct, decide_eq_true rfl, ht.isAccount, ht.valid, ht.positive, ht.memo_le, ht.token,
        hfunds⟩
    exact ⟨_, map_ok.mpr ⟨r, hr, rfl⟩⟩

def net (code owner : Name) (symCode : UInt64) (t : Transfer) : Int :=
  if t.code = code then
    Token.amountFor owner symCode t.recipient t.quantity -
      Token.amountFor owner symCode t.sender t.quantity
  else 0

theorem step_net {l l' : Ledgers} {t : Transfer} (hs : SoundTokens l)
    (h : l.step (t.request ctx) = .ok l') (code owner : Name) (symCode : UInt64) :
    (l' code).balanceOf owner symCode =
      (l code).balanceOf owner symCode + net code owner symCode t := by
  rw [step_balanceOf hs h, TokenRequest.credit, TokenRequest.debit, net, Transfer.request_code]
  by_cases hcode : t.code = code
  · rw [if_pos hcode, if_pos hcode, if_pos hcode]
    exact Int.add_sub_assoc ..
  · rw [if_neg hcode, if_neg hcode, if_neg hcode]
    omega

theorem step_stats {l l' : Ledgers} {t : Transfer} (hs : SoundTokens l)
    (h : l.step (t.request ctx) = .ok l') (code : Name) (symCode : UInt64) : (l' code).stats symCode = (l code).stats symCode := by
  obtain ⟨s, notified, he, rfl⟩ := step_effect hs h
  by_cases hcode : code = t.code
  · subst hcode
    cases he with
    | transferred ht =>
      obtain ⟨s₁, hsub, hadd⟩ := ht.moved
      rw [Transfer.request_code, Function.update_self, hadd.stats, hsub.stats, Transfer.request_code]
  · rw [Transfer.request_code, Function.update_of_ne hcode]

theorem Deliverable.congr (h : ∀ code symCode, (l' code).stats symCode = (l code).stats symCode) :
    Deliverable ctx l' t ↔ Deliverable ctx l t := by
  constructor
  · rintro ⟨h1, h2, h3, h4, h5, h6⟩
    exact ⟨h1, h2, h3, h4, h5, h t.code _ ▸ h6⟩
  · rintro ⟨h1, h2, h3, h4, h5, h6⟩
    exact ⟨h1, h2, h3, h4, h5, (h t.code _).symm ▸ h6⟩

-- ---------------------------------------------------------------------------
-- All of them
-- ---------------------------------------------------------------------------

theorem payOut_quiet_cons : payOut ctx .quiet l (t :: rest) = .ok (l', requests) ↔
    ∃ l₁ requests', l.step (t.request ctx) = .ok l₁ ∧
      payOut ctx .quiet l₁ rest = .ok (l', requests') ∧ requests = t.request ctx :: requests' := by
  simp only [payOut, Reply.quiet, bind_ok, pure_ok, Prod.mk.injEq]
  constructor
  · rintro ⟨l₁, ht, _, hnone, l₂, hfold, ⟨_, requests'⟩, hrest, rfl, rfl⟩
    cases hnone
    cases pure_ok.mp hfold
    exact ⟨l₁, requests', ht, hrest, rfl⟩
  · rintro ⟨l₁, requests', ht, hrest, rfl⟩
    exact ⟨l₁, ht, [], rfl, l₁, rfl, ⟨l', requests'⟩, hrest, rfl, rfl⟩

theorem payOut_quiet_moves {l l' : Ledgers} (hs : SoundTokens l)
    (h : payOut ctx .quiet l transfers = .ok (l', requests)) (code : Name) (symCode : UInt64) :
    (l' code).stats symCode = (l code).stats symCode ∧
      ∀ owner, (l' code).balanceOf owner symCode =
        (l code).balanceOf owner symCode + (transfers.map (net code owner symCode)).sum := by
  induction transfers generalizing l requests with
  | nil =>
    obtain ⟨rfl, rfl⟩ := Prod.mk.inj (pure_ok.mp h)
    exact ⟨rfl, fun _ => (Int.add_zero _).symm⟩
  | cons t rest ih =>
    obtain ⟨l₁, requests', ht, hrest, rfl⟩ := payOut_quiet_cons.mp h
    obtain ⟨hstats, hbalance⟩ := ih (step_sound hs ht) hrest
    refine ⟨hstats.trans (step_stats hs ht code symCode), fun owner => ?_⟩
    rw [hbalance, step_net hs ht, List.map_cons, List.sum_cons, Int.add_assoc]

theorem outOf_nonneg (h : 0 < t.quantity.amount) (code : Name) (symCode : UInt64) :
    0 ≤ outOf code symCode t := by
  unfold outOf
  split
  · exact (Token.toInt_zero_lt h).le
  · exact le_rfl

theorem payOut_quiet_iff {l : Ledgers} (hs : SoundTokens l)
    (hsender : ∀ t ∈ transfers, t.sender = self) :
    (∃ r, payOut ctx .quiet l transfers = .ok r) ↔
      (∀ t ∈ transfers, Deliverable ctx l t) ∧
        ∀ code symCode,
          (transfers.map (outOf code symCode)).sum ≤ (l code).balanceOf self symCode := by
  induction transfers generalizing l with
  | nil =>
    refine ⟨fun _ => ⟨nofun, fun code symCode => ?_⟩, fun _ => ⟨_, rfl⟩⟩
    exact (hs code).balanceOf_nonneg self symCode
  | cons t rest ih =>
    obtain ⟨rfl, hsender⟩ := List.forall_mem_cons.mp hsender
    constructor
    · rintro ⟨⟨l', requests⟩, h⟩
      obtain ⟨l₁, requests', ht, hrest, -⟩ := payOut_quiet_cons.mp h
      obtain ⟨hdeliver, -⟩ := (step_exists_iff hs).mp ⟨l₁, ht⟩
      obtain ⟨hdelivers, hfunds⟩ := (ih (step_sound hs ht) hsender).mp ⟨_, hrest⟩
      refine ⟨List.forall_mem_cons.mpr ⟨hdeliver, fun t' ht' => ?_⟩, fun code symCode => ?_⟩
      · exact (Deliverable.congr (step_stats hs ht)).mp (hdelivers t' ht')
      · have hpaid := (step_pays hs ht code symCode).2
        have hleft := hfunds code symCode
        rw [List.map_cons, List.sum_cons]
        omega
    · rintro ⟨hdelivers, hfunds⟩
      obtain ⟨hdeliver, hdelivers⟩ := List.forall_mem_cons.mp hdelivers
      have hfirst : t.quantity.amount.toInt ≤
          (l t.code).balanceOf t.sender t.quantity.symbol.code := by
        have hall := hfunds t.code t.quantity.symbol.code
        have hrest : 0 ≤ (rest.map (outOf t.code t.quantity.symbol.code)).sum :=
          List.sum_nonneg (List.forall_mem_map.mpr fun t' ht' =>
            outOf_nonneg (hdelivers t' ht').positive _ _)
        rw [List.map_cons, List.sum_cons, outOf, if_pos ⟨rfl, rfl⟩] at hall
        omega
      obtain ⟨l₁, ht⟩ := (step_exists_iff hs).mpr ⟨hdeliver, hfirst⟩
      have hrest : ∃ r, payOut ctx .quiet l₁ rest = .ok r := by
        refine (ih (step_sound hs ht) hsender).mpr ⟨fun t' ht' => ?_, fun code symCode => ?_⟩
        · exact (Deliverable.congr (step_stats hs ht)).mpr (hdelivers t' ht')
        · have hpaid := (step_pays hs ht code symCode).2
          have hall := hfunds code symCode
          rw [List.map_cons, List.sum_cons] at hall
          omega
      obtain ⟨⟨l', requests⟩, hrest⟩ := hrest
      exact ⟨_, payOut_quiet_cons.mpr ⟨l₁, requests, ht, hrest, rfl⟩⟩

-- ---------------------------------------------------------------------------
-- Payouts
-- ---------------------------------------------------------------------------

/-- What the transfers of a payout in one token need at its contract. -/
structure Payable (env : Env) (ctx : Context) (s : Token.State) (symbol : Symbol)
    (transfers : List Transfer) : Prop where
  recipient : ∀ t ∈ transfers, t.recipient ≠ env.self ∧ ctx.isAccount t.recipient = true ∧
    t.memo.length ≤ 256
  token : transfers ≠ [] → ∃ st, s.stats symbol.code = some st ∧ symbol = st.row.supply.symbol
  funds : (transfers.map fun t => t.quantity.amount.toInt).sum ≤ s.balanceOf env.self symbol.code

theorem Distribution.payable_iff {l : Ledgers} (hs : SoundTokens l)
    (h : Distribution env ctx s args s' out global token distConfig row)
    (hvalid : args.totalReward.symbol.isValid = true) :
    (∃ r, payOut ctx .quiet l out = .ok r) ↔
      Payable env ctx (l args.tokenContract) args.totalReward.symbol out := by
  have hsender := Settlement.sender h.settlement
  have hkind := Settlement.kind h.settlement h.total_pos
  rw [payOut_quiet_iff hs hsender]
  constructor
  · rintro ⟨hdeliver, hfunds⟩
    constructor
    · intro t ht
      have hone := hdeliver t ht
      exact ⟨fun hself => hone.distinct ((hsender t ht).trans hself.symm), hone.isAccount,
        hone.memo_le⟩
    · intro hne
      obtain ⟨t, ht⟩ := List.exists_mem_of_ne_nil _ hne
      obtain ⟨hcode, hsymbol⟩ := hkind t ht
      rw [← hcode, ← hsymbol]
      exact (hdeliver t ht).token
    · have hall := hfunds args.tokenContract args.totalReward.symbol.code
      rw [System.sum_outOf hkind, if_pos ⟨rfl, rfl⟩] at hall
      exact hall
  · rintro ⟨hrecipient, htoken, hfunds⟩
    constructor
    · intro t ht
      obtain ⟨hself, haccount, hmemo⟩ := hrecipient t ht
      obtain ⟨_, -, _, reward, hpaid, rfl⟩ := h.settlement.sent ht
      have hsymbol : reward.symbol = args.totalReward.symbol := (hkind _ ht).2
      refine ⟨hself.symm, haccount, hpaid.isValid h.total_pos hvalid, hpaid.2, hmemo, ?_⟩
      simp only [transferTo, hsymbol]
      exact htoken (List.ne_nil_of_mem ht)
    · intro code symCode
      rw [System.sum_outOf hkind]
      split
      · rename_i hsame
        obtain ⟨rfl, rfl⟩ := hsame
        exact hfunds
      · exact (hs code).balanceOf_nonneg env.self symCode

theorem payout_exists {w : System} (hs : SoundTokens w.tokens)
    (h : distribute env ctx w.contract args = .ok (s, out))
    (hpayable : Payable env ctx (w.tokens args.tokenContract) args.totalReward.symbol out) :
    ∃ r, exec env w (.contract ⟨ctx, .distribute args⟩ .quiet) = .ok r := by
  obtain ⟨_, _, _, _, hd⟩ := distribute_ok h
  have hvalid := distribute_symbol_valid h
  obtain ⟨⟨l, done⟩, hpaid⟩ := (Distribution.payable_iff hs hd hvalid).mpr hpayable
  refine ⟨⟨⟨s, l⟩, ⟨out, done⟩⟩, ?_⟩
  simp only [exec, bind_ok, pure_ok]
  exact ⟨_, h, _, hpaid, rfl⟩

/-- In every reachable state of the system, and if the recipients let the
transfers pass and do nothing, a payout goes through exactly if `distribute`
does and its transfers, if any, are of an existing token with the right
decimals, together within what the contract holds of it, each to an account
other than the contract and with a memo that fits. -/
theorem payout_succeeds_iff (env : Env) (requests : List Request) (ctx : Context)
    (args : DistributeArgs) :
    (∃ r, exec env (run env requests) (.contract ⟨ctx, .distribute args⟩ .quiet) = .ok r) ↔
      ∃ s out, distribute env ctx (run env requests).contract args = .ok (s, out) ∧
        Payable env ctx ((run env requests).tokens args.tokenContract) args.totalReward.symbol
          out := by
  have hs := run_sound env requests
  constructor
  · rintro ⟨⟨w, o⟩, h⟩
    obtain ⟨hexec, hpaid⟩ := exec_contract h
    have hdistribute : distribute env ctx (run env requests).contract args =
        .ok (w.contract, o.transfers) := hexec
    obtain ⟨_, _, _, _, hd⟩ := distribute_ok hdistribute
    have hvalid := distribute_symbol_valid hdistribute
    exact ⟨_, _, hdistribute, (Distribution.payable_iff hs hd hvalid).mp ⟨_, hpaid⟩⟩
  · rintro ⟨s, out, hdistribute, hpayable⟩
    exact payout_exists hs hdistribute hpayable

def sentTo (owner : Name) (transfers : List Transfer) : Int :=
  ((transfers.filter fun t => t.recipient = owner).map fun t => t.quantity.amount.toInt).sum

theorem sum_net {transfers : List Transfer} {tokenContract self : Name} {symbol : Symbol}
    (h : ∀ t ∈ transfers, t.code = tokenContract ∧ t.quantity.symbol = symbol)
    (hsender : ∀ t ∈ transfers, t.sender = self) (owner : Name) :
    (transfers.map (net tokenContract owner symbol.code)).sum = sentTo owner transfers -
      if owner = self then (transfers.map fun t => t.quantity.amount.toInt).sum else 0 := by
  induction transfers with
  | nil => simp [sentTo]
  | cons t rest ih =>
    obtain ⟨⟨hcode, hsymbol⟩, hrest⟩ := List.forall_mem_cons.mp h
    obtain ⟨hself, hsender⟩ := List.forall_mem_cons.mp hsender
    have hto : sentTo owner (t :: rest) =
        (if owner = t.recipient then t.quantity.amount.toInt else 0) + sentTo owner rest := by
      simp only [sentTo, List.filter_cons, decide_eq_true_eq, eq_comm (a := owner)]
      split
      · rw [List.map_cons, List.sum_cons]
      · exact (Int.zero_add _).symm
    rw [List.map_cons, List.sum_cons, ih hrest hsender, hto, List.map_cons, List.sum_cons, net,
      if_pos hcode, Token.amountFor, Token.amountFor, hsymbol, hself]
    simp only [and_true]
    split <;> split <;> omega

theorem sum_net_other {transfers : List Transfer} {tokenContract : Name} {symbol : Symbol}
    (h : ∀ t ∈ transfers, t.code = tokenContract ∧ t.quantity.symbol = symbol)
    (hother : ¬ (tokenContract = code ∧ symCode = symbol.code)) (owner : Name) :
    (transfers.map (net code owner symCode)).sum = 0 := by
  refine List.sum_eq_zero (List.forall_mem_map.mpr fun t ht => ?_)
  obtain ⟨hcode, hsymbol⟩ := h t ht
  unfold net
  split
  · rename_i hsame
    have hsymCode : symCode ≠ t.quantity.symbol.code := by
      rw [hsymbol]
      exact fun hc => hother ⟨hcode.symm.trans hsame, hc⟩
    simp [Token.amountFor, hsymCode]
  · rfl

/-- A payout that goes through, with recipients that let the transfers pass and
do nothing, moves what the new row of the log accounts for from the contract to
the recipients of its transfers. Every other balance stays as it is, and so do
the supplies. -/
theorem payout_moves (env : Env) (requests : List Request) (ctx : Context) (args : DistributeArgs)
    (h : exec env (run env requests) (.contract ⟨ctx, .distribute args⟩ .quiet) = .ok (w, o)) :
    ∃ row, w.contract.rewardsrec.rows = (run env requests).contract.rewardsrec.rows ++ [row] ∧
      ∀ code symCode,
        (w.tokens code).stats symCode = ((run env requests).tokens code).stats symCode ∧
        ∀ owner, (w.tokens code).balanceOf owner symCode =
          ((run env requests).tokens code).balanceOf owner symCode +
            if args.tokenContract = code ∧ symCode = args.totalReward.symbol.code then
              sentTo owner o.transfers -
                if owner = env.self then row.totalReward.amount.toInt else 0
            else 0 := by
  obtain ⟨hexec, hpaid⟩ := exec_contract h
  obtain ⟨_, _, _, row, hd⟩ := (exec_effect hexec).of_distribute rfl
  refine ⟨row, hd.rewards_rows, fun code symCode => ?_⟩
  obtain ⟨hstats, hbalance⟩ := payOut_quiet_moves (run_sound env requests) hpaid code symCode
  refine ⟨hstats, fun owner => ?_⟩
  have hkind := Settlement.kind hd.settlement hd.total_pos
  rw [hbalance]
  split
  · rename_i hsame
    obtain ⟨rfl, rfl⟩ := hsame
    rw [sum_net hkind (Settlement.sender hd.settlement), Settlement.sum_sent hd.settlement]
  · rename_i hother
    rw [sum_net_other hkind hother]

theorem season_payout_moves :
    ∃ (w : System) (o : Output) (row : RewardsRecorded), w.contract.rewardsrec.rows =
        (run Sample.env Sample.season).contract.rewardsrec.rows ++ [row] ∧
      ∀ code symCode,
        (w.tokens code).stats symCode = ((run Sample.env Sample.season).tokens code).stats symCode ∧
        ∀ owner, (w.tokens code).balanceOf owner symCode =
          ((run Sample.env Sample.season).tokens code).balanceOf owner symCode +
            if (⟨6⟩ : Name) = code ∧ symCode = Sample.boid.code then
              sentTo owner o.transfers -
                if owner = ⟨1⟩ then row.totalReward.amount.toInt else 0
            else 0 :=
  ⟨_, _, payout_moves Sample.env Sample.season (Sample.context 1100) (Sample.payout 1 [60, 40]) rfl⟩

end GameRewards.System
