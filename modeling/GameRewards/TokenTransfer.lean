import GameRewards.Admission
import GameRewards.Memos

/-!
# Payouts at the token contract

The checks of the token contract's `transfer` that look at the transfer alone.
`distribute` sends sound amounts, and destinations were accounts when they were
configured. Nothing keeps the contract itself or a missing account from being
paid, or a memo from being too long.
-/

namespace GameRewards

/-- `transfer` of `eosio.token`, without what its tables and permissions decide. -/
def transferChecks (isAccount : Name → Bool) (t : Transfer) : Result Unit := do
  check (t.sender ≠ t.recipient) "cannot transfer to self"
  check (isAccount t.recipient) "to account does not exist"
  check t.quantity.isValid "invalid quantity"
  check (0 < t.quantity.amount) "must transfer positive quantity"
  check (t.memo.length ≤ 256) "memo has more than 256 bytes"

theorem transferChecks_ok : transferChecks isAccount t = .ok u ↔
    t.sender ≠ t.recipient ∧ isAccount t.recipient = true ∧ t.quantity.isValid = true ∧
      0 < t.quantity.amount ∧ t.memo.length ≤ 256 := by
  simp only [transferChecks, bind_ok, check_ok, exists_and_left, exists_const]

-- ---------------------------------------------------------------------------
-- Destinations
-- ---------------------------------------------------------------------------

theorem exec_destinations (h : exec env s a = .ok (s', out)) :
    ∀ d ∈ s'.rewarddist.rows,
      d ∈ s.rewarddist.rows ∨ a.ctx.isAccount d.destinationContract = true := by
  obtain ⟨ctx, call⟩ := a
  have hsame (hdists : s'.rewarddist = s.rewarddist) : ∀ d ∈ s'.rewarddist.rows,
      d ∈ s.rewarddist.rows ∨ ctx.isAccount d.destinationContract = true :=
    fun d hd => .inl (hdists ▸ hd)
  cases call with
  | initcontract args =>
    obtain ⟨-, rfl⟩ := initcontract_ok (silent_ok.mp h).1
    intro d hd
    cases hd
  | setdistconf args =>
    obtain ⟨dists, game, rfl, -, haccount, hrows⟩ := setdistconf_ok (silent_ok.mp h).1
    intro d hd
    rcases hrows d hd with hd | ⟨-, hdestination⟩
    · exact .inl hd
    · exact .inr (hdestination ▸ haccount)
  | rmdistconf gameId =>
    obtain ⟨dists, rfl, hrows⟩ := rmdistconf_ok (silent_ok.mp h).1
    exact fun d hd => .inl (hrows d hd)
  | setgame args =>
    obtain ⟨_, rfl, -⟩ := setgame_ok (silent_ok.mp h).1
    exact hsame rfl
  | removegame gameId =>
    obtain ⟨_, rfl, -⟩ := removegame_ok (silent_ok.mp h).1
    exact hsame rfl
  | recordgame records =>
    obtain ⟨_, -, rfl⟩ := recordgame_ok (silent_ok.mp h).1
    exact hsame rfl
  | clearrecord ids =>
    obtain ⟨_, -, rfl⟩ := clearrecord_ok (silent_ok.mp h).1
    exact hsame rfl
  | distribute args =>
    obtain ⟨_, _, _, _, hd⟩ := distribute_ok h
    exact hsame (by rw [hd.frame])
  | settoken args =>
    obtain ⟨_, rfl⟩ := settoken_ok (silent_ok.mp h).1
    exact hsame rfl
  | removetoken tokenSymbol =>
    obtain ⟨_, rfl⟩ := removetoken_ok (silent_ok.mp h).1
    exact hsame rfl

theorem run_destinations (env : Env) (actions : List Action) :
    ∀ d ∈ (run env actions).rewarddist.rows,
      ∃ a ∈ actions, a.ctx.isAccount d.destinationContract = true := by
  have hevents : ∀ d ∈ (run env actions).rewarddist.rows,
      ∃ e ∈ events env actions, e.request.ctx.isAccount d.destinationContract = true := by
    refine History.history_induction (P := fun (evs : List Event) (s : State) =>
      ∀ d ∈ s.rewarddist.rows,
        ∃ e ∈ evs, e.request.ctx.isAccount d.destinationContract = true) ?_ ?_ actions
    · intro d hd
      cases hd
    · intro evs s a s' out ih hx d hd
      rcases exec_destinations hx d hd with hd | haccount
      · obtain ⟨e, he, haccount⟩ := ih d hd
        exact ⟨e, List.mem_append_left _ he, haccount⟩
      · exact ⟨_, List.mem_append_right _ List.mem_cons_self, haccount⟩
  intro d hd
  obtain ⟨e, he, haccount⟩ := hevents d hd
  exact ⟨e.request, History.request_mem he, haccount⟩

-- ---------------------------------------------------------------------------
-- Memos
-- ---------------------------------------------------------------------------

theorem Name.digits_length_le (n : Nat) (v : UInt64) : (Name.digits n v).length ≤ n := by
  induction n generalizing v with
  | zero => exact Nat.le_refl 0
  | succ n ih =>
    unfold Name.digits
    split
    · exact Nat.zero_le _
    · exact Nat.succ_le_succ (ih _)

theorem Bytes.find_le {needle s : Bytes} (h : Bytes.find needle s = some pos) :
    pos + needle.length ≤ s.length := by
  induction s generalizing pos with
  | nil =>
    unfold Bytes.find at h
    split at h
    · rename_i hprefix
      cases h
      have hlen := (List.isPrefixOf_iff_prefix.mp hprefix).length_le
      omega
    · cases h
  | cons b rest ih =>
    unfold Bytes.find at h
    split at h
    · rename_i hprefix
      cases h
      have hlen := (List.isPrefixOf_iff_prefix.mp hprefix).length_le
      omega
    · rw [Option.map_eq_some_iff] at h
      obtain ⟨pos', hpos, rfl⟩ := h
      have hlen := ih hpos
      rw [List.length_cons]
      omega

/-- A name has at most three bytes more than the placeholder. -/
theorem memoFor_length_le (memoTemplate : Bytes) (player : Name) :
    (memoFor memoTemplate player).length ≤ memoTemplate.length + 3 := by
  unfold memoFor
  split
  · rename_i pos hpos
    have hfound := Bytes.find_le hpos
    have hname := Name.digits_length_le 13 player.value
    simp only [placeholder, List.length_cons, List.length_nil] at hfound
    simp only [Bytes.replace, Name.toBytes, List.length_append, List.length_take, List.length_drop]
    omega
  · omega

-- ---------------------------------------------------------------------------
-- Transfers
-- ---------------------------------------------------------------------------

theorem distribute_symbol_valid (h : distribute env ctx s args = .ok r) :
    args.totalReward.symbol.isValid = true := by
  simp only [distribute_eq, settle, distributeRewards, bind_ok] at h
  obtain ⟨_, -, _, -, _, ⟨zero, hzero, -⟩, -⟩ := h
  obtain ⟨-, -, hvalid⟩ := Asset.make_ok hzero
  exact hvalid

theorem TierPaid.isValid {total : Asset} (h : TierPaid total percentage reward)
    (ht : 0 < total.amount.toInt) (hvalid : total.symbol.isValid = true) :
    reward.isValid = true := by
  obtain ⟨-, hsymbol, hrange⟩ := tierReward_ok ht h.1
  simp only [Asset.isValid, hsymbol, hvalid, Bool.and_true, decide_eq_true_eq]
  exact hrange

theorem TierPaid.of_mem (h : List.Forall₂ (TierPaid total) percentages rewards)
    (hmem : reward ∈ rewards) : ∃ percentage, TierPaid total percentage reward := by
  induction h with
  | nil => cases hmem
  | cons hpaid _ ih =>
    rcases List.mem_cons.mp hmem with rfl | hmem
    · exact ⟨_, hpaid⟩
    · exact ih hmem

theorem Settlement.sent (h : Settlement env ctx args distConfig players row transfers)
    (ht : t ∈ transfers) : ∃ player ∈ row.rewardedPlayers, ∃ percentage reward,
      TierPaid args.totalReward percentage reward ∧
        t = transferTo env args.tokenContract distConfig player reward := by
  obtain ⟨i, hi⟩ := List.mem_iff_getElem?.mp ht
  rw [h.transfers_eq, List.getElem?_zipWith_eq_some] at hi
  obtain ⟨player, reward, hplayer, hreward, rfl⟩ := hi
  obtain ⟨percentage, hpaid⟩ := TierPaid.of_mem h.tiers (List.mem_of_getElem? hreward)
  exact ⟨player, List.mem_of_getElem? hplayer, percentage, reward, hpaid, rfl⟩

/-- A transfer for a winner under a configuration, and when the token contract
lets it pass. -/
structure Delivery (env : Env) (actions : List Action) (ctx : Context)
    (distConfig : RewardDistConfig) (player : Name) (t : Transfer) : Prop where
  recipient : t.recipient =
    if distConfig.useDirectTransfer then player else distConfig.destinationContract
  memo : t.memo = memoFor distConfig.memoTemplate player
  valid : t.quantity.isValid = true
  positive : 0 < t.quantity.amount
  /-- The destination exists, if accounts persist. -/
  destination : distConfig.useDirectTransfer = false →
    (∀ a ∈ actions, ∀ n, a.ctx.isAccount n = true → ctx.isAccount n = true) →
    ctx.isAccount t.recipient = true
  short : distConfig.memoTemplate.length ≤ 253 → t.memo.length ≤ 256
  passes_iff : transferChecks ctx.isAccount t = .ok () ↔
    t.recipient ≠ env.self ∧ ctx.isAccount t.recipient = true ∧ t.memo.length ≤ 256

/-- The transfers of a payout carry sound amounts, and go to accounts if they
go to the configured destination and accounts persist. The token contract lets
one pass exactly if its recipient is an account other than the contract and its
memo fits. -/
theorem payout_transfers_pass_iff (env : Env) (actions : List Action) (ctx : Context)
    (args : DistributeArgs) (h : distribute env ctx (run env actions) args = .ok (s', out)) :
    ∃ distConfig ∈ (run env actions).rewarddist.rows, distConfig.gameId = args.gameId ∧
      ∃ row, s'.rewardsrec.rows = (run env actions).rewardsrec.rows ++ [row] ∧
        ∀ t ∈ out, ∃ player ∈ row.rewardedPlayers,
          Delivery env actions ctx distConfig player t := by
  have hsymbol := distribute_symbol_valid h
  obtain ⟨_, _, distConfig, row, hd⟩ := distribute_ok h
  refine ⟨distConfig, hd.dist_mem, hd.dist_game, row, hd.rewards_rows, fun t ht => ?_⟩
  obtain ⟨player, hplayer, percentage, reward, hpaid, rfl⟩ := hd.settlement.sent ht
  have hvalid := hpaid.isValid hd.total_pos hsymbol
  refine ⟨player, hplayer, ?_⟩
  constructor
  · rfl
  · rfl
  · exact hvalid
  · exact hpaid.2
  · intro hdirect hpersist
    obtain ⟨a, ha, haccount⟩ := run_destinations env actions distConfig hd.dist_mem
    simp only [transferTo, hdirect, Bool.false_eq_true, ↓reduceIte]
    exact hpersist a ha _ haccount
  · intro hlen
    have hmemo := memoFor_length_le distConfig.memoTemplate player
    exact hmemo.trans (by omega)
  · rw [transferChecks_ok]
    constructor
    · rintro ⟨hself, haccount, -, -, hmemo⟩
      exact ⟨hself.symm, haccount, hmemo⟩
    · rintro ⟨hself, haccount, hmemo⟩
      exact ⟨hself.symm, haccount, hvalid, hpaid.2, hmemo⟩

theorem sample_payout_deliveries :
    ∃ (s' : State) (out : List Transfer),
      ∃ distConfig ∈ (run Sample.env (Sample.announced placeholder)).rewarddist.rows,
        distConfig.gameId = 1 ∧
        ∃ row, s'.rewardsrec.rows =
            (run Sample.env (Sample.announced placeholder)).rewardsrec.rows ++ [row] ∧
          ∀ t ∈ out, ∃ player ∈ row.rewardedPlayers,
            Delivery Sample.env (Sample.announced placeholder) (Sample.context 1100) distConfig
              player t :=
  ⟨_, _, payout_transfers_pass_iff Sample.env (Sample.announced placeholder) (Sample.context 1100)
    (Sample.payout 1 [60, 40]) rfl⟩

/-- Every transfer of every payout satisfies the condition, with the same
accounts throughout. -/
def PayoutsSatisfy (P : Env → Context → Transfer → Prop) : Prop :=
  ∀ (env : Env) (actions : List Action) (ctx : Context) (args : DistributeArgs) (s' : State)
    (out : List Transfer), (∀ a ∈ actions, a.ctx.isAccount = ctx.isAccount) →
    distribute env ctx (run env actions) args = .ok (s', out) → ∀ t ∈ out, P env ctx t

def Sample.withoutAccount (ctx : Context) : Context :=
  { ctx with isAccount := fun n => n ≠ ⟨10⟩ }

def Sample.winning (player : UInt64) : List Action :=
  Sample.setup 1000 1000 100 ++ [Sample.block 1050 (.recordgame [Sample.result player 50 1010])]

theorem Sample.announced_accounts (memoTemplate : Bytes) : ∀ a ∈ Sample.announced memoTemplate,
    a.ctx.isAccount = (Sample.context 1100).isAccount := by
  simp [Sample.announced, Sample.setup, Sample.block, Sample.context]

theorem payouts_blocked :
    ¬ PayoutsSatisfy (fun env _ t => t.recipient ≠ env.self) ∧
    ¬ PayoutsSatisfy (fun _ ctx t => ctx.isAccount t.recipient = true) ∧
    ¬ PayoutsSatisfy fun _ _ t => t.memo.length ≤ 256 := by
  refine ⟨fun h => ?_, fun h => ?_, fun h => ?_⟩
  · exact h Sample.env (Sample.winning 1) (Sample.context 1100) (Sample.payout 1 [100]) _ _
      (by simp [Sample.winning, Sample.setup, Sample.block, Sample.context]) rfl _ (.head _) rfl
  · have haccount := h Sample.env
      ((Sample.winning 10).map fun a => { a with ctx := Sample.withoutAccount a.ctx })
      (Sample.withoutAccount (Sample.context 1100)) (Sample.payout 1 [100]) _ _
      (by simp [Sample.winning, Sample.setup, Sample.block, Sample.context, Sample.withoutAccount])
      rfl _ (.head _)
    cases haccount
  · have hmemo := h Sample.env (Sample.announced (List.replicate 257 97)) (Sample.context 1100)
      (Sample.payout 1 [60, 40]) _ _ (Sample.announced_accounts _) rfl _ (.head _)
    exact absurd hmemo (by decide +kernel)

end GameRewards
