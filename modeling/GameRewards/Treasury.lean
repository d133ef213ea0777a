import GameRewards.System

/-!
# The treasury

The tokens the contract holds at a token contract are those it received less
those its log accounts for. A payout goes through exactly if it is funded and
its recipients can be paid, and then it moves what the log says and nothing
else.
-/

namespace GameRewards.System

-- ---------------------------------------------------------------------------
-- The contract's own balance
-- ---------------------------------------------------------------------------

def SoundTokens (l : Ledgers) : Prop := ∀ code, Token.Sound (l code)

theorem step_effect {l l' : Ledgers} (hs : SoundTokens l) (h : l.step r = .ok l') :
    ∃ s notified, Token.Effect r.code (l r.code) r.action s notified ∧
      l' = Function.update l r.code s := by
  obtain ⟨⟨s, notified⟩, hexec, rfl⟩ := map_ok.mp h
  exact ⟨s, notified, Token.exec_effect (hs r.code) hexec, rfl⟩

theorem step_sound {l l' : Ledgers} (hs : SoundTokens l) (h : l.step r = .ok l') :
    SoundTokens l' := by
  obtain ⟨s, notified, he, rfl⟩ := step_effect hs h
  intro code
  by_cases hcode : code = r.code
  · subst hcode
    rw [Function.update_self]
    exact (hs _).step he
  · rw [Function.update_of_ne hcode]
    exact hs code

theorem foldlM_sound {l l' : Ledgers} {requests : List TokenRequest} (hs : SoundTokens l)
    (h : requests.foldlM Ledgers.step l = .ok l') : SoundTokens l' :=
  foldlM_ok h hs fun _ _ _ => step_sound

theorem exec_sound (hs : SoundTokens w.tokens) (h : exec env w request = .ok (w', out)) :
    SoundTokens w'.tokens := foldlM_sound hs (exec_requests h)

theorem run_sound (env : Env) (requests : List Request) :
    SoundTokens (run env requests).tokens := by
  intro code
  rw [← (run_token env requests code).final]
  exact Token.run_sound code _

def TokenRequest.credit (code owner : Name) (symCode : UInt64) (r : TokenRequest) : Int :=
  if r.code = code then r.action.credit owner symCode else 0

def TokenRequest.debit (code owner : Name) (symCode : UInt64) (l : Ledgers) (r : TokenRequest) :
    Int :=
  if r.code = code then r.action.debit owner symCode (l code) else 0

theorem step_balanceOf {l l' : Ledgers} (hs : SoundTokens l) (h : l.step r = .ok l')
    (code owner : Name) (symCode : UInt64) :
    (l' code).balanceOf owner symCode = (l code).balanceOf owner symCode +
      TokenRequest.credit code owner symCode r - TokenRequest.debit code owner symCode l r := by
  obtain ⟨s, notified, he, rfl⟩ := step_effect hs h
  unfold TokenRequest.credit TokenRequest.debit
  by_cases hcode : r.code = code
  · subst hcode
    rw [Function.update_self, if_pos rfl, if_pos rfl]
    exact he.balanceOf owner symCode
  · rw [Function.update_of_ne (Ne.symm hcode), if_neg hcode, if_neg hcode]
    omega

theorem step_keeps {l l' : Ledgers} (hs : SoundTokens l) (h : l.step r = .ok l')
    (hauth : r.action.ctx.hasAuth owner = false) (code : Name) (symCode : UInt64) :
    (l' code).balanceOf owner symCode = (l code).balanceOf owner symCode +
      TokenRequest.credit code owner symCode r := by
  have hdebit : TokenRequest.debit code owner symCode l r = 0 := by
    obtain ⟨s, notified, he, -⟩ := step_effect hs h
    unfold TokenRequest.debit
    split
    · rename_i hcode
      subst hcode
      exact he.debit_eq_zero hauth symCode
    · rfl
  rw [step_balanceOf hs h, hdebit, sub_zero]

def received (code owner : Name) (symCode : UInt64) (rs : List TokenRequest) : Int :=
  (rs.map (TokenRequest.credit code owner symCode)).sum

theorem received_append (rs rs' : List TokenRequest) : received code owner symCode (rs ++ rs') =
    received code owner symCode rs + received code owner symCode rs' := by
  simp [received]

theorem received_cons (r : TokenRequest) (rs : List TokenRequest) :
    received code owner symCode (r :: rs) =
      TokenRequest.credit code owner symCode r + received code owner symCode rs := by
  simp [received]

theorem foldlM_keeps {l l' : Ledgers} {rs : List TokenRequest} (hs : SoundTokens l)
    (h : rs.foldlM Ledgers.step l = .ok l')
    (hauth : ∀ r ∈ rs, r.action.ctx.hasAuth owner = false) (code : Name) (symCode : UInt64) :
    (l' code).balanceOf owner symCode =
      (l code).balanceOf owner symCode + received code owner symCode rs := by
  induction rs generalizing l with
  | nil =>
    cases pure_ok.mp h
    exact (Int.add_zero _).symm
  | cons r rs ih =>
    rw [List.foldlM_cons, bind_ok] at h
    obtain ⟨l₁, hone, hrest⟩ := h
    obtain ⟨hr, hrs⟩ := List.forall_mem_cons.mp hauth
    rw [ih (step_sound hs hone) hrest hrs, step_keeps hs hone hr, received_cons]
    omega

def outOf (code : Name) (symCode : UInt64) (t : Transfer) : Int :=
  if t.code = code ∧ symCode = t.quantity.symbol.code then t.quantity.amount.toInt else 0

theorem step_pays {l l' : Ledgers} (hs : SoundTokens l) (h : l.step (t.request ctx) = .ok l')
    (code : Name) (symCode : UInt64) :
    TokenRequest.credit code t.sender symCode (t.request ctx) = 0 ∧
      (l' code).balanceOf t.sender symCode + outOf code symCode t =
        (l code).balanceOf t.sender symCode := by
  obtain ⟨s, notified, he, -⟩ := step_effect hs h
  have hdistinct : t.sender ≠ t.recipient := by
    cases he with
    | transferred ht => exact ht.distinct
  have hcredit : TokenRequest.credit code t.sender symCode (t.request ctx) = 0 := by
    simp [TokenRequest.credit, Transfer.request, Token.Action.credit, Token.amountFor, hdistinct]
  have hdebit : TokenRequest.debit code t.sender symCode l (t.request ctx) = outOf code symCode t := by
    simp only [TokenRequest.debit, Transfer.request, Token.Action.debit, Token.amountFor, outOf,
      true_and, ite_and]
  refine ⟨hcredit, ?_⟩
  rw [step_balanceOf hs h, hcredit, hdebit]
  omega

def Reply.KeepsOff (owner : Name) (reply : Reply) : Prop :=
  ∀ l t rs, reply l t = .ok rs → ∀ r ∈ rs, r.action.ctx.hasAuth owner = false

theorem payOut_pays {l l' : Ledgers} (hs : SoundTokens l)
    (h : payOut ctx reply l transfers = .ok (l', requests))
    (hsender : ∀ t ∈ transfers, t.sender = self) (hreply : Reply.KeepsOff self reply) (code : Name)
    (symCode : UInt64) :
    (l' code).balanceOf self symCode + (transfers.map (outOf code symCode)).sum =
      (l code).balanceOf self symCode + received code self symCode requests := by
  induction transfers generalizing l requests with
  | nil =>
    obtain ⟨rfl, rfl⟩ := Prod.mk.inj (pure_ok.mp h)
    rfl
  | cons t rest ih =>
    simp only [payOut, bind_ok, pure_ok, Prod.mk.injEq] at h
    obtain ⟨l₁, ht, replies, hreplies, l₂, hfold, ⟨_, requests'⟩, hrest, rfl, rfl⟩ := h
    obtain ⟨rfl, hsender⟩ := List.forall_mem_cons.mp hsender
    obtain ⟨hcredit, hpaid⟩ := step_pays hs ht code symCode
    have hsound := step_sound hs ht
    have hkept := foldlM_keeps hsound hfold (hreply _ _ _ hreplies) code symCode
    have hbalance := ih (foldlM_sound hsound hfold) hrest hsender
    rw [received_cons, received_append, hcredit, List.map_cons, List.sum_cons]
    simp only at hbalance ⊢
    omega

-- ---------------------------------------------------------------------------
-- The log
-- ---------------------------------------------------------------------------

def loggedRows (e : Event) : List RewardsRecorded :=
  e.post.contract.rewardsrec.rows.drop e.pre.contract.rewardsrec.rows.length

/-- What the log accounts for, of the token with this code at this token
contract. -/
def paidOut (code : Name) (symCode : UInt64) (e : Event) : Int :=
  match e.request with
  | .contract ⟨_, .distribute args⟩ _ =>
    if args.tokenContract = code ∧ symCode = args.totalReward.symbol.code then
      ((loggedRows e).map fun row => row.totalReward.amount.toInt).sum
    else 0
  | _ => 0

theorem Settlement.sender (h : Settlement env ctx args distConfig players row transfers) :
    ∀ t ∈ transfers, t.sender = env.self := by
  intro t ht
  obtain ⟨_, -, _, _, -, rfl⟩ := h.sent ht
  rfl

theorem sum_outOf {transfers : List Transfer} {tokenContract : Name} {symbol : Symbol}
    (h : ∀ t ∈ transfers, t.code = tokenContract ∧ t.quantity.symbol = symbol) (code : Name)
    (symCode : UInt64) :
    (transfers.map (outOf code symCode)).sum =
      if tokenContract = code ∧ symCode = symbol.code then
        (transfers.map fun t => t.quantity.amount.toInt).sum
      else 0 := by
  induction transfers with
  | nil => simp
  | cons t rest ih =>
    obtain ⟨⟨hcode, hsymbol⟩, hrest⟩ := List.forall_mem_cons.mp h
    rw [List.map_cons, List.sum_cons, ih hrest, List.map_cons, List.sum_cons, outOf, hcode, hsymbol]
    split <;> rfl

theorem Settlement.kind (h : Settlement env ctx args distConfig players row transfers)
    (ht : 0 < args.totalReward.amount.toInt) :
    ∀ t ∈ transfers, t.code = args.tokenContract ∧ t.quantity.symbol = args.totalReward.symbol := by
  intro t hmem
  obtain ⟨_, -, _, _, hpaid, rfl⟩ := h.sent hmem
  exact ⟨rfl, (tierReward_ok ht hpaid.1).2.1⟩

theorem Settlement.sum_sent (h : Settlement env ctx args distConfig players row transfers) :
    (transfers.map fun t => t.quantity.amount.toInt).sum = row.totalReward.amount.toInt := by
  have hamounts : (transfers.map fun t => t.quantity.amount.toInt) =
      ((row.rewardedPlayers.zip row.playerRewards).map Prod.snd).map fun r => r.amount.toInt := by
    rw [h.transfers_eq, List.map_zipWith, List.map_map, List.zip_eq_zipWith, List.map_zipWith]
    rfl
  rw [hamounts, List.map_snd_zip h.lengths.ge, h.total]

theorem Distribution.sum_outOf
    (h : Distribution env ctx s args s' out global token distConfig row) (code : Name)
    (symCode : UInt64) :
    (out.map (outOf code symCode)).sum =
      if args.tokenContract = code ∧ symCode = args.totalReward.symbol.code then
        row.totalReward.amount.toInt
      else 0 := by
  rw [System.sum_outOf (Settlement.kind h.settlement h.total_pos), Settlement.sum_sent h.settlement]

/-- Outside the payouts of the contract its authority is not used at the token
contracts. -/
def Request.KeepsOff (owner : Name) : Request → Prop
  | .contract _ reply => Reply.KeepsOff owner reply
  | .token r => r.action.ctx.hasAuth owner = false

theorem paidOut_other {a : Action} {reply : Reply} (h : a.call.isDistribute = false)
    (pre post : System) (out : Output) : paidOut code symCode ⟨pre, .contract a reply, out, post⟩ = 0 := by
  obtain ⟨ctx, call⟩ := a
  cases call with
  | distribute _ => cases h
  | _ => rfl

theorem paidOut_eq {w w' : System} {out : Output}
    (he : GameRewards.Effect env w.contract a w'.contract out.transfers) (reply : Reply)
    (code : Name) (symCode : UInt64) :
    paidOut code symCode ⟨w, .contract a reply, out, w'⟩ =
      (out.transfers.map (outOf code symCode)).sum := by
  cases hdist : a.call.isDistribute with
  | false => rw [paidOut_other hdist, he.silent hdist, List.map_nil, List.sum_nil]
  | true =>
    obtain ⟨ctx, call⟩ := a
    cases call with
    | distribute args =>
      obtain ⟨_, _, _, row, hd⟩ := he.of_distribute rfl
      have hrow : loggedRows ⟨w, .contract ⟨ctx, .distribute args⟩ reply, out, w'⟩ = [row] := by
        rw [loggedRows, hd.rewards_rows, List.drop_left]
      rw [Distribution.sum_outOf hd, paidOut, hrow, List.map_singleton, List.sum_singleton]
    | _ => cases hdist

theorem Effect.sender (he : GameRewards.Effect env s a s' out) : ∀ t ∈ out, t.sender = env.self := by
  intro t ht
  cases he with
  | distributed hd => exact Settlement.sender hd.settlement t ht
  | _ => cases ht

theorem exec_balance {w w' : System} {out : Output} (hs : SoundTokens w.tokens)
    (h : exec env w request = .ok (w', out)) (hoff : request.KeepsOff env.self) (code : Name)
    (symCode : UInt64) :
    (w'.tokens code).balanceOf env.self symCode + paidOut code symCode ⟨w, request, out, w'⟩ =
      (w.tokens code).balanceOf env.self symCode + received code env.self symCode out.requests := by
  cases request with
  | contract action reply =>
    obtain ⟨hexec, hpaid⟩ := exec_contract h
    have he := exec_effect hexec
    rw [paidOut_eq he]
    exact payOut_pays hs hpaid (Effect.sender he) hoff code symCode
  | token r =>
    have hfold := exec_requests h
    obtain ⟨-, rfl⟩ := exec_token h
    have hbalance := foldlM_keeps hs hfold (List.forall_mem_singleton.mpr hoff) code symCode
    exact (Int.add_zero _).trans hbalance

theorem run_balance (env : Env) (requests : List Request) (code : Name) (symCode : UInt64)
    (hoff : ∀ r ∈ requests, r.KeepsOff env.self) :
    ((run env requests).tokens code).balanceOf env.self symCode +
        ((events env requests).map (paidOut code symCode)).sum =
      received code env.self symCode (requestsOf (events env requests)) := by
  have hrun : SoundTokens (run env requests).tokens ∧
      ((∀ e ∈ events env requests, e.request.KeepsOff env.self) →
        ((run env requests).tokens code).balanceOf env.self symCode +
          ((events env requests).map (paidOut code symCode)).sum =
        received code env.self symCode (requestsOf (events env requests))) := by
    refine History.history_induction (P := fun (evs : List Event) (w : System) =>
      SoundTokens w.tokens ∧ ((∀ e ∈ evs, e.request.KeepsOff env.self) →
        (w.tokens code).balanceOf env.self symCode + (evs.map (paidOut code symCode)).sum =
          received code env.self symCode (requestsOf evs)))
      ⟨fun _ => .deployed, fun _ => rfl⟩ ?_ requests
    rintro evs w request w' out ⟨hsound, ih⟩ hx
    refine ⟨exec_sound hsound hx, fun hall => ?_⟩
    obtain ⟨hevs, hlast⟩ := List.forall_mem_append.mp hall
    have hbefore := ih hevs
    have hone := exec_balance hsound hx (hlast _ List.mem_cons_self) code symCode
    rw [List.map_append, List.sum_append, List.map_singleton, List.sum_singleton,
      requestsOf_append, received_append]
    dsimp only
    omega
  exact hrun.2 fun e he => hoff _ (History.request_mem he)

/-- As long as the contract's authority is used at the token contracts by its
payouts only, in every run what it holds of a token and what its log accounts
for add up to what it received. -/
theorem treasury_accounted (env : Env) (requests : List Request) (code : Name) (symCode : UInt64)
    (hoff : ∀ r ∈ requests, r.KeepsOff env.self) :
    ((run env requests).tokens code).balanceOf env.self symCode +
        ((events env requests).map (paidOut code symCode)).sum =
      received code env.self symCode (requestsOf (events env requests)) ∧
    ((events env requests).map (paidOut code symCode)).sum ≤
      received code env.self symCode (requestsOf (events env requests)) := by
  have hsum := run_balance env requests code symCode hoff
  have hbalance := (run_sound env requests code).balanceOf_nonneg env.self symCode
  exact ⟨hsum, by omega⟩

theorem sample_treasury_accounted :
    ((run Sample.env Sample.paidSeason).tokens ⟨6⟩).balanceOf ⟨1⟩ Sample.boid.code +
        ((events Sample.env Sample.paidSeason).map (paidOut ⟨6⟩ Sample.boid.code)).sum =
      received ⟨6⟩ ⟨1⟩ Sample.boid.code (requestsOf (events Sample.env Sample.paidSeason)) ∧
    ((events Sample.env Sample.paidSeason).map (paidOut ⟨6⟩ Sample.boid.code)).sum ≤
      received ⟨6⟩ ⟨1⟩ Sample.boid.code (requestsOf (events Sample.env Sample.paidSeason)) :=
  treasury_accounted Sample.env Sample.paidSeason ⟨6⟩ Sample.boid.code (by
    simp [Sample.paidSeason, Sample.season, Sample.deposits, Sample.setup, Request.KeepsOff,
      Reply.KeepsOff, Reply.quiet, Sample.issuing, Sample.env])

end GameRewards.System
