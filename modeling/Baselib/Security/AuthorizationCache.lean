/-
Baselib.Security.AuthorizationCache — the authorization cache of
`security/AuthorizationCacheImpl.h`.

Every member which looks at `m_cache` does so while it holds `m_lock`, so
an interleaving of callers is a sequence of lock sections, and `step` is
one section. `update` runs its authorization task between two sections:
the one which creates the task reads the cache, the one which stores the
principal is `updateInternal`, handed what the task has come to.

A token is hashed to its key; `key` is that hash. The clock is not a
function of anything here: each reading of `now()` is carried by the
label of the section that makes it. The sweep reads the clock once for
each entry. Times are microseconds.
-/
import Mathlib.Data.List.AList

namespace Baselib.Security.AuthorizationCache

/-- The entry of a token. -/
structure AuthorizationInfo (π : Type) where
  principal : π
  timestamp : Int
  deriving DecidableEq

structure State (κ π : Type) where
  freshnessInterval : Int
  maxEntries : Nat
  cache : AList fun _ : κ => AuthorizationInfo π
  cacheFullWasLogged : Bool

/-- What an executed authorization task has come to. -/
inductive AuthorizationTask (π : Type) where
  | notReady
  | failed
  | executed (principal : Option π)
  deriving DecidableEq

/-- The exceptions of an update. -/
inductive Failure where
  | unexpected (message : String)
  | security (message : String)
  deriving DecidableEq

def freshnessIntervalDefault : Int := 15 * 60 * 1000000

def maxEntriesDefault : Nat := 10000

section

variable {τ κ π : Type} [DecidableEq κ]

/-- An interval which is a special value stands for the default. -/
def intervalOf (freshnessInterval : Option Int) : Int :=
  freshnessInterval.getD freshnessIntervalDefault

def State.init (freshnessInterval : Option Int) (maxEntries : Nat) : State κ π where
  freshnessInterval := intervalOf freshnessInterval
  maxEntries := maxEntries
  cache := ∅
  cacheFullWasLogged := false

/-- `m_cache.size()`. -/
def State.size (s : State κ π) : Nat := s.cache.keys.length

/-- `isStale`, when the clock reads `currentTime`. -/
def isStale (freshnessInterval currentTime : Int) (info : AuthorizationInfo π) : Bool :=
  info.timestamp > currentTime || currentTime - info.timestamp > freshnessInterval

/-- The turn of the sweep at one entry. -/
def sweepEntry (freshnessInterval : Int) (now : κ → Int)
    (cache : AList fun _ : κ => AuthorizationInfo π) (k : κ) :
    AList fun _ : κ => AuthorizationInfo π :=
  match cache.lookup k with
  | some info => if isStale freshnessInterval (now k) info then cache.erase k else cache
  | none => cache

/-- `sweepStaleEntriesNoLock`; `now k` is the reading at the entry of `k`. -/
def sweepStaleEntriesNoLock (now : κ → Int) (s : State κ π) : State κ π :=
  { s with cache := s.cache.keys.foldl (sweepEntry s.freshnessInterval now) s.cache }

variable (key : τ → κ)

/-- The token which an authorization task is created for:
`createAuthorizationTaskImpl`. -/
def createAuthorizationTaskImpl (authenticationToken : π → Option τ) (token : τ)
    (s : State κ π) : τ :=
  match s.cache.lookup (key token) with
  | some info => (authenticationToken info.principal).getD token
  | none => token

/-- `tryGetRefreshedPrincipal` once the task has been executed. -/
def tryGetRefreshedPrincipal (task : AuthorizationTask π) (tryOnly : Bool) :
    Except Failure (Option π) :=
  match task with
  | .notReady =>
    .error (.unexpected
      "The provided authorization task is not ready as it has not been executed")
  | .failed =>
    if tryOnly then .ok none
    else .error (.security "Authorization request to the authorization service has failed")
  | .executed principal => .ok principal

/-- The lock section of `updateInternal` for a principal: `now` is the
reading which becomes the timestamp. -/
def store (token : τ) (principal : π) (sweepNow : κ → Int) (now : Int) (s : State κ π) :
    State κ π :=
  if s.size ≥ s.maxEntries ∧ (s.cache.lookup (key token)).isNone then
    let s := sweepStaleEntriesNoLock sweepNow s
    if s.size ≥ s.maxEntries then { s with cacheFullWasLogged := true }
    else { s with cache := s.cache.insert (key token) ⟨principal, now⟩ }
  else { s with cache := s.cache.insert (key token) ⟨principal, now⟩ }

def updateInternal (token : τ) (task : AuthorizationTask π) (tryOnly : Bool)
    (sweepNow : κ → Int) (now : Int) (s : State κ π) : Except Failure (Option π) × State κ π :=
  match tryGetRefreshedPrincipal task tryOnly with
  | .error failure => (.error failure, s)
  | .ok (some principal) => (.ok (some principal), store key token principal sweepNow now s)
  | .ok none =>
    if tryOnly then (.ok none, s)
    else (.error (.unexpected "Security principal cannot be nullptr"), s)

/-- `tryGetAuthorizedPrinciplal`. -/
def tryGetAuthorizedPrinciplal (token : τ) (now : Int) (s : State κ π) :
    Option π × State κ π :=
  match s.cache.lookup (key token) with
  | none => (none, s)
  | some info =>
    if isStale s.freshnessInterval now info then
      (none, { s with cache := s.cache.erase (key token) })
    else (some info.principal, s)

def configureFreshnessInterval (freshnessInterval : Option Int) (s : State κ π) : State κ π :=
  { s with freshnessInterval := intervalOf freshnessInterval }

def evict (token : τ) (s : State κ π) : State κ π :=
  { s with cache := s.cache.erase (key token) }

/-! ## Lock sections -/

inductive Label (τ κ π : Type) where
  | createAuthorizationTask (token : τ)
  | update (token : τ) (task : AuthorizationTask π) (tryOnly : Bool) (sweepNow : κ → Int)
      (now : Int)
  | tryGetAuthorizedPrinciplal (token : τ) (now : Int)
  | configureFreshnessInterval (freshnessInterval : Option Int)
  | evict (token : τ)

/-- The state after a lock section. -/
def step (s : State κ π) : Label τ κ π → State κ π
  | .createAuthorizationTask _ => s
  | .update token task tryOnly sweepNow now =>
    (updateInternal key token task tryOnly sweepNow now s).2
  | .tryGetAuthorizedPrinciplal token now => (tryGetAuthorizedPrinciplal key token now s).2
  | .configureFreshnessInterval freshnessInterval =>
    configureFreshnessInterval freshnessInterval s
  | .evict token => evict key token s

/-- The state after a sequence of lock sections. -/
def run (s : State κ π) (ls : List (Label τ κ π)) : State κ π := ls.foldl (step key) s

end

end Baselib.Security.AuthorizationCache
