import GameRewards.TokenTransfer
import GameRewards.Token.Laws
import Mathlib.Logic.Function.Basic

/-!
# The contract and the token contracts

An action of the contract goes through only if the inline transfers it sends
go through at the token contracts, with everything the notified recipients do
in return; otherwise all of it is undone. Other parties use the token contracts
in between.

A run of this system is a run of the contract, and a run of each token
contract, on the actions that went through.
-/

namespace GameRewards

/-- The token contracts by account. Each runs the code of `eosio.token`. -/
abbrev Ledgers := Name → Token.State

structure TokenRequest where
  code : Name
  action : Token.Action

def Ledgers.step (l : Ledgers) (r : TokenRequest) : Result Ledgers :=
  (fun result => Function.update l r.code result.1) <$> Token.exec r.code (l r.code) r.action

/-- The inline action of a transfer carries the authority of its sender and no
other. -/
def Transfer.request (ctx : Context) (t : Transfer) : TokenRequest where
  code := t.code
  action :=
    { ctx := { ctx with hasAuth := fun n => decide (n = t.sender) }
      call := .transfer t.sender t.recipient t.quantity t.memo }

@[simp] theorem Transfer.request_code (ctx : Context) (t : Transfer) :
    (t.request ctx).code = t.code := rfl

/-- What the contracts notified of a transfer do: they stop it, or act at the
token contracts. -/
abbrev Reply := Ledgers → Transfer → Result (List TokenRequest)

def Reply.quiet : Reply := fun _ _ => .ok []

/-- The inline transfers of an action, each followed by the reply to it. The
second result lists what was done at the token contracts. -/
def payOut (ctx : Context) (reply : Reply) : Ledgers → List Transfer →
    Result (Ledgers × List TokenRequest)
  | l, [] => pure (l, [])
  | l, t :: rest => do
    let l ← l.step (t.request ctx)
    let replies ← reply l t
    let l ← replies.foldlM Ledgers.step l
    let (l, requests) ← payOut ctx reply l rest
    pure (l, t.request ctx :: (replies ++ requests))

structure System where
  contract : State
  tokens : Ledgers

namespace System

def deployed : System := ⟨State.deployed, fun _ => Token.State.deployed⟩

inductive Request
  | contract (action : Action) (reply : Reply)
  | token (request : TokenRequest)

structure Output where
  transfers : List Transfer
  requests : List TokenRequest

def exec (env : Env) (w : System) : Request → Result (System × Output)
  | .contract action reply => do
    let (s, transfers) ← GameRewards.exec env w.contract action
    let (tokens, requests) ← payOut action.ctx reply w.tokens transfers
    pure (⟨s, tokens⟩, ⟨transfers, requests⟩)
  | .token request => do
    let tokens ← w.tokens.step request
    pure ({ w with tokens := tokens }, ⟨[], [request]⟩)

def run (env : Env) (requests : List Request) : System :=
  History.run (exec env) deployed requests

abbrev Event := History.Event System Request Output

def events (env : Env) (requests : List Request) : List Event :=
  History.events (exec env) deployed requests

def Request.action? : Request → Option Action
  | .contract action _ => some action
  | .token _ => none

def actions (evs : List Event) : List Action := evs.filterMap fun e => e.request.action?

def tokenActions (code : Name) (requests : List TokenRequest) : List Token.Action :=
  (requests.filter fun r => r.code = code).map TokenRequest.action

def requestsOf (evs : List Event) : List TokenRequest := evs.flatMap fun e => e.output.requests

-- ---------------------------------------------------------------------------
-- The token contracts
-- ---------------------------------------------------------------------------

theorem payOut_requests (h : payOut ctx reply l transfers = .ok (l', requests)) :
    requests.foldlM Ledgers.step l = .ok l' := by
  induction transfers generalizing l requests with
  | nil =>
    obtain ⟨rfl, rfl⟩ := Prod.mk.inj (pure_ok.mp h)
    rfl
  | cons t rest ih =>
    simp only [payOut, bind_ok, pure_ok, Prod.mk.injEq] at h
    obtain ⟨l₁, ht, replies, -, l₂, hreplies, ⟨_, _⟩, hrest, rfl, rfl⟩ := h
    simp only [List.foldlM_cons, List.foldlM_append, bind_ok]
    exact ⟨l₁, ht, l₂, hreplies, ih hrest⟩

theorem served_of_foldlM (code : Name) (h : requests.foldlM Ledgers.step l = .ok l') :
    History.Served (Token.exec code) (l code) (tokenActions code requests) (l' code) := by
  induction requests generalizing l with
  | nil =>
    cases pure_ok.mp h
    exact .nil
  | cons r requests ih =>
    rw [List.foldlM_cons, bind_ok] at h
    obtain ⟨l₁, hone, hrest⟩ := h
    obtain ⟨⟨s₁, notified⟩, hexec, rfl⟩ := map_ok.mp hone
    have hserved := ih hrest
    by_cases hcode : r.code = code
    · subst hcode
      rw [Function.update_self] at hserved
      simpa [tokenActions] using hserved.cons hexec
    · rw [Function.update_of_ne (Ne.symm hcode)] at hserved
      simpa [tokenActions, hcode] using hserved

theorem exec_requests (h : exec env w request = .ok (w', out)) :
    out.requests.foldlM Ledgers.step w.tokens = .ok w'.tokens := by
  cases request with
  | contract action reply =>
    simp only [exec, bind_ok, pure_ok, Prod.mk.injEq] at h
    obtain ⟨⟨s, transfers⟩, -, ⟨tokens, requests⟩, hpaid, rfl, rfl⟩ := h
    exact payOut_requests hpaid
  | token request =>
    simp only [exec, bind_ok, pure_ok, Prod.mk.injEq] at h
    obtain ⟨tokens, hstep, rfl, rfl⟩ := h
    rw [List.foldlM_cons, hstep]
    rfl

theorem exec_contract (h : exec env w (.contract action reply) = .ok (w', out)) :
    GameRewards.exec env w.contract action = .ok (w'.contract, out.transfers) ∧
      payOut action.ctx reply w.tokens out.transfers = .ok (w'.tokens, out.requests) := by
  simp only [exec, bind_ok, pure_ok, Prod.mk.injEq] at h
  obtain ⟨⟨s, transfers⟩, hexec, ⟨tokens, requests⟩, hpaid, rfl, rfl⟩ := h
  exact ⟨hexec, hpaid⟩

theorem exec_token (h : exec env w (.token request) = .ok (w', out)) :
    w'.contract = w.contract ∧ out = ⟨[], [request]⟩ := by
  simp only [exec, bind_ok, pure_ok, Prod.mk.injEq] at h
  obtain ⟨_, -, rfl, rfl⟩ := h
  exact ⟨rfl, rfl⟩

-- ---------------------------------------------------------------------------
-- Every run
-- ---------------------------------------------------------------------------

theorem actions_append (evs : List Event) (e : Event) :
    actions (evs ++ [e]) = actions evs ++ e.request.action?.toList := by
  rw [actions, List.filterMap_append, actions]
  cases h : e.request.action? <;> simp [h]

theorem requestsOf_append (evs : List Event) (e : Event) :
    requestsOf (evs ++ [e]) = requestsOf evs ++ e.output.requests := by
  simp [requestsOf]

theorem tokenActions_append (code : Name) (rs rs' : List TokenRequest) :
    tokenActions code (rs ++ rs') = tokenActions code rs ++ tokenActions code rs' := by
  simp [tokenActions]

theorem exec_served (h : exec env w request = .ok (w', out)) :
    History.Served (GameRewards.exec env) w.contract request.action?.toList w'.contract := by
  cases request with
  | contract action reply => exact .cons (exec_contract h).1 .nil
  | token request => exact (exec_token h).1 ▸ .nil

theorem run_contract (env : Env) (requests : List Request) :
    History.Served (GameRewards.exec env) State.deployed (actions (events env requests))
      (run env requests).contract := by
  refine History.history_induction (P := fun (evs : List Event) (w : System) =>
    History.Served (GameRewards.exec env) State.deployed (actions evs) w.contract) .nil ?_ requests
  intro evs w request w' out hcontract hx
  rw [actions_append]
  exact hcontract.append (exec_served hx)

theorem run_token (env : Env) (requests : List Request) (code : Name) :
    History.Served (Token.exec code) Token.State.deployed
      (tokenActions code (requestsOf (events env requests))) ((run env requests).tokens code) := by
  refine History.history_induction (P := fun (evs : List Event) (w : System) =>
    History.Served (Token.exec code) Token.State.deployed (tokenActions code (requestsOf evs))
      (w.tokens code)) .nil ?_ requests
  intro evs w request w' out htoken hx
  rw [requestsOf_append, tokenActions_append]
  exact htoken.append (served_of_foldlM code (exec_requests hx))

end System

-- ---------------------------------------------------------------------------
-- A small system
-- ---------------------------------------------------------------------------

namespace Sample

open GameRewards.System (Request)

def issuing (now : TimePointSec) (n : Name) (call : Token.Call) : Request :=
  .token ⟨⟨6⟩, { context now with hasAuth := fun m => decide (m = n) }, call⟩

def deposits (now : TimePointSec) : List Request :=
  [issuing now ⟨6⟩ (.create ⟨8⟩ ⟨1000000000, boid⟩),
    issuing now ⟨8⟩ (.issue ⟨8⟩ ⟨2000000, boid⟩ []),
    issuing now ⟨8⟩ (.transfer ⟨8⟩ ⟨1⟩ ⟨2000000, boid⟩ [])]

def season : List Request :=
  deposits 900 ++ (setup 1000 1000 100).map (.contract · .quiet) ++
    [.contract (block 1050 (.recordgame [result 10 50 1010, result 11 40 1020])) .quiet]

def paidSeason : List Request :=
  season ++ [.contract (block 1100 (.distribute (payout 1 [60, 40]))) .quiet]

end Sample

end GameRewards
