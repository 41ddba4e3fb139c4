import Mathlib.Tactic

/-!
# Lockout of RPC sources

The RPC server counts the wrong passwords of each source address and refuses a source for a while
when there were too many. The map of all sources is shared, and each failure of any source takes the
entries out that have expired. The clock is read twice for a wrong password, before and after the
pause that deters guessing.
Lines without a file are those of `httprpc.cpp`.
-/

set_option autoImplicit false

namespace HempCore

variable {σ : Type} [DecidableEq σ]

/-- L29-31 -/
def DEFAULT_RPC_AUTH_FAILURE_WINDOW : Int := 300
def DEFAULT_RPC_AUTH_FAILURE_BAN : Int := 600

/-- `-rpcmaxauthfailures`, `-rpcauthfailurewindow` and `-rpcauthfailureban`, the last two in
seconds. -/
structure RPCAuthOptions where
  maxFailures : Int
  windowSeconds : Int
  banSeconds : Int

variable (o : RPCAuthOptions)

/-- L123-131 -/
def RPCAuthOptions.windowMs : Int :=
  (if o.windowSeconds ≤ 0 then DEFAULT_RPC_AUTH_FAILURE_WINDOW else o.windowSeconds) * 1000

def RPCAuthOptions.banMs : Int :=
  (if o.banSeconds ≤ 0 then DEFAULT_RPC_AUTH_FAILURE_BAN else o.banSeconds) * 1000

/-- L34-38 -/
structure RPCAuthFailureState where
  count : Int := 0
  windowStart : Int := 0
  banUntil : Int := 0
deriving DecidableEq

/-- `mapAuthFailures`. L41 -/
abbrev AuthFailures (σ : Type) := σ → Option RPCAuthFailureState

/-- The answer, and the map without an entry whose cooldown is over. L86-113 -/
def rpcAuthThrottled (mapAuthFailures : AuthFailures σ) (sourceIP : σ)
    (now : Int) : Bool × AuthFailures σ :=
  if o.maxFailures ≤ 0 then (false, mapAuthFailures)
  else
    match mapAuthFailures sourceIP with
    | none => (false, mapAuthFailures)
    | some state =>
      if 0 < state.banUntil ∧ now < state.banUntil then (true, mapAuthFailures)
      else if 0 < state.banUntil ∧ state.banUntil ≤ now then
        (false, Function.update mapAuthFailures sourceIP none)
      else (false, mapAuthFailures)

/-- The entries that the cleanup removes. L140-142 -/
def RPCAuthFailureState.isExpired (now : Int) (entry : RPCAuthFailureState) : Bool :=
  let expiredCooldown := decide (0 < entry.banUntil ∧ entry.banUntil ≤ now)
  let expiredWindow :=
    decide (entry.banUntil = 0 ∧ 0 < entry.windowStart ∧ o.windowMs ≤ now - entry.windowStart)
  expiredCooldown || expiredWindow

/-- L138-147 -/
def cleanup (now : Int) (mapAuthFailures : AuthFailures σ) : AuthFailures σ :=
  fun source => (mapAuthFailures source).filter fun entry => !entry.isExpired o now

/-- One failure more; a window that is over starts again. L149-165 -/
def RPCAuthFailureState.fail (now : Int) (state : RPCAuthFailureState) :
    RPCAuthFailureState :=
  let state :=
    if 0 < state.windowStart ∧ o.windowMs ≤ now - state.windowStart then
      { state with count := 0, windowStart := 0 }
    else state
  let state := if state.windowStart = 0 then { state with windowStart := now } else state
  let state := { state with count := state.count + 1 }
  if o.maxFailures ≤ state.count then { state with banUntil := now + o.banMs } else state

/-- Only its log message depends on the answer, which is left out. L117-168 -/
def rpcAuthRecordFailure (mapAuthFailures : AuthFailures σ) (sourceIP : σ)
    (now : Int) : AuthFailures σ :=
  if o.maxFailures ≤ 0 then mapAuthFailures
  else
    let mapAuthFailures := cleanup o now mapAuthFailures
    Function.update mapAuthFailures sourceIP
      (some (((mapAuthFailures sourceIP).getD {}).fail o now))

/-- L170-175 -/
def rpcAuthClearFailures (mapAuthFailures : AuthFailures σ) (sourceIP : σ) : AuthFailures σ :=
  Function.update mapAuthFailures sourceIP none

/-- What a request brings along; a wrong password is recorded when the pause is over. -/
inductive Credentials where
  | noHeader
  | right
  | wrong (recorded : Int)

structure RPCRequest (σ : Type) where
  source : σ
  time : Int
  credentials : Credentials

/-- The requests of `POST` up to the parsing of their body: whether the source was refused, and the
map after it. L255-304 -/
def httpReqJSONRPC (mapAuthFailures : AuthFailures σ) (req : RPCRequest σ) :
    Bool × AuthFailures σ :=
  let (throttled, mapAuthFailures) := rpcAuthThrottled o mapAuthFailures req.source req.time
  if throttled then (true, mapAuthFailures)
  else
    match req.credentials with
    | .noHeader => (false, mapAuthFailures)
    | .wrong recorded => (false, rpcAuthRecordFailure o mapAuthFailures req.source recorded)
    | .right => (false, rpcAuthClearFailures mapAuthFailures req.source)

/-- The map after the requests, which are handled one after another. -/
def handleRequests (reqs : List (RPCRequest σ)) : AuthFailures σ :=
  reqs.foldl (fun mapAuthFailures req => (httpReqJSONRPC o mapAuthFailures req).2) fun _ => none

end HempCore
