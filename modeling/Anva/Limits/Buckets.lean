import Anva.Core.Inputs
import Anva.Lib.Table

/-! The rate limits of `core/services/operations.py`: one counter for each identity, channel
and window, and the purges of the counters that have expired. -/

namespace Anva.Limits

/-- The settings as `env_int` bounds them. -/
structure Settings where
  enabled : Bool
  windowSeconds : ℕ
  apiRequests : ℕ
  mcpRequests : ℕ
  webRequests : ℕ
  preauthRequests : ℕ
  window_bounds : 1 ≤ windowSeconds ∧ windowSeconds ≤ 3600
  api_bounds : 1 ≤ apiRequests ∧ apiRequests ≤ 100000
  mcp_bounds : 1 ≤ mcpRequests ∧ mcpRequests ≤ 100000
  web_bounds : 1 ≤ webRequests ∧ webRequests ≤ 100000
  preauth_bounds : 1 ≤ preauthRequests ∧ preauthRequests ≤ 100000

def preauth : Text := "preauth".toList

/-- `_rate_limit`. -/
def rateLimit (s : Settings) (channel : Text) : Result ℕ :=
  if channel = "api".toList then return s.apiRequests
  else if channel = "mcp".toList then return s.mcpRequests
  else if channel = "web".toList then return s.webRequests
  else if channel = preauth then return s.preauthRequests
  else throw (.valueError "Unknown rate-limit channel")

/-! ### Windows -/

def second : Time := 1000000

/-- `int(current.timestamp())`. -/
def epochSeconds (current : Time) : ℤ := current.tdiv second

def windowEpoch (s : Settings) (current : Time) : ℤ := epochSeconds current - epochSeconds current % s.windowSeconds

def windowStart (s : Settings) (current : Time) : Time := windowEpoch s current * second

def windowLength (s : Settings) : Time := s.windowSeconds * second

def retryAfter (s : Settings) (current : Time) : ℤ :=
  max 1 (s.windowSeconds - (epochSeconds current - windowEpoch s current))

/-! ### Counters -/

/-- The organization, the digest of the identity and the channel of a counter. -/
structure BucketKey where
  organizationId : Option Uuid
  identityHash : Text
  channel : Text
deriving DecidableEq, Repr

structure Bucket where
  id : Uuid
  key : BucketKey
  windowStartedAt : Time
  requestCount : ℕ
  deniedCount : ℕ
  expiresAt : Time
deriving DecidableEq, Repr

/-- The columns of `core_rate_bucket_window_unique`. -/
def Bucket.slot (b : Bucket) : BucketKey × Time := (b.key, b.windowStartedAt)

structure RateLimitDecision where
  limit : ℕ
  remaining : ℕ
  retryAfterSeconds : ℤ
deriving DecidableEq, Repr

/-- How a request ends: with a decision, with `RateLimitExceededError`, or with another error. -/
inductive Verdict where
  | allowed (decision : RateLimitDecision)
  | denied (retryAfterSeconds : ℤ)
  | failed (error : ServiceError)
deriving DecidableEq, Repr

/-- The largest value of a `PositiveIntegerField`. -/
def countMaximum : ℕ := 2147483647

/-- The row that `get_or_create` creates. -/
def freshBucket (s : Settings) (key : BucketKey) (id : Uuid) (current : Time) : Bucket where
  id := id
  key := key
  windowStartedAt := windowStart s current
  requestCount := 0
  deniedCount := 0
  expiresAt := windowStart s current + 2 * windowLength s

/-- One request more, denied beyond the limit. -/
def Bucket.counted (limit : ℕ) (b : Bucket) : Bucket :=
  { b with
    requestCount := b.requestCount + 1
    deniedCount := if limit < b.requestCount + 1 then b.deniedCount + 1 else b.deniedCount }

/-- The counter that `get_or_create` returns. -/
def bucketOf (s : Settings) (rows : List Bucket) (key : BucketKey) (id : Uuid) (current : Time) : Bucket :=
  (rows.find? (·.slot = (key, windowStart s current))).getD (freshBucket s key id current)

/-- The counters once a request has been counted. -/
def countedRows (s : Settings) (rows : List Bucket) (key : BucketKey) (id : Uuid) (current : Time) (limit : ℕ) :
    List Bucket :=
  Table.replace Bucket.slot (Table.getOrCreate Bucket.slot rows (freshBucket s key id current))
    ((bucketOf s rows key id current).counted limit)

/-- `_enforce_rate_limit`. The counters are saved before a denial is raised; a count beyond
the column undoes the transaction. -/
def enforceRateLimit (s : Settings) (rows : List Bucket) (key : BucketKey) (id : Uuid) (current : Time) :
    List Bucket × Verdict :=
  match rateLimit s key.channel with
  | .error e => (rows, .failed e)
  | .ok limit =>
    if s.enabled = false then (rows, .allowed ⟨limit, limit, retryAfter s current⟩)
    else
      let requestCount := (bucketOf s rows key id current).requestCount + 1
      if countMaximum < requestCount then (rows, .failed (.dataError "request_count"))
      else if limit < requestCount then
        (countedRows s rows key id current limit, .denied (retryAfter s current))
      else
        (countedRows s rows key id current limit,
          .allowed ⟨limit, limit - requestCount, retryAfter s current⟩)

/-! ### Purges -/

/-- `purge_expired_rate_buckets`. -/
def purgeExpired (rows : List Bucket) (organizationId : Uuid) (now : Time) : List Bucket :=
  rows.filter fun b => ¬ (b.key.organizationId = some organizationId ∧ b.expiresAt ≤ now)

def isExpiredPreAuth (now : Time) (b : Bucket) : Bool :=
  b.key.organizationId = none ∧ b.key.channel = preauth ∧ b.expiresAt ≤ now

/-- `purge_expired_pre_auth_rate_buckets`, while other transactions hold the rows `locked`. -/
def purgeExpiredPreAuth (rows : List Bucket) (limit : ℤ) (locked : List Uuid) (now : Time) : List Bucket :=
  if 1 ≤ limit ∧ limit ≤ 1000 then
    let candidates := (rows.filter fun b => isExpiredPreAuth now b ∧ b.id ∉ locked).insertionSort fun a b =>
      toLex (a.expiresAt, a.id) ≤ toLex (b.expiresAt, b.id)
    let ids := (candidates.map (·.id)).take limit.toNat
    rows.filter fun b => ¬ (b.id ∈ ids ∧ isExpiredPreAuth now b = true)
  else rows

/-! ### Runs -/

inductive Event where
  | request (key : BucketKey) (id : Uuid) (current : Time)
  | purge (organizationId : Uuid) (now : Time)
  | purgePreAuth (limit : ℤ) (locked : List Uuid) (now : Time)
deriving DecidableEq, Repr

def Event.time : Event → Time
  | .request _ _ current => current
  | .purge _ now => now
  | .purgePreAuth _ _ now => now

structure Entry where
  key : BucketKey
  current : Time
  verdict : Verdict
deriving DecidableEq, Repr

structure State where
  rows : List Bucket
  log : List Entry

def next (s : Settings) (st : State) : Event → State
  | .request key id current =>
    let result := enforceRateLimit s st.rows key id current
    ⟨result.1, st.log ++ [⟨key, current, result.2⟩]⟩
  | .purge organizationId now => ⟨purgeExpired st.rows organizationId now, st.log⟩
  | .purgePreAuth limit locked now => ⟨purgeExpiredPreAuth st.rows limit locked now, st.log⟩

def run (s : Settings) (events : List Event) : State := events.foldl (next s) ⟨[], []⟩

/-! ### Counts -/

def Verdict.isAllowed : Verdict → Bool
  | .allowed _ => true
  | _ => false

def Verdict.isDenied : Verdict → Bool
  | .denied _ => true
  | _ => false

def Verdict.isCounted (v : Verdict) : Bool := v.isAllowed || v.isDenied

def Verdict.isMade (_ : Verdict) : Bool := true

/-- The requests of a key in a window that ended in some way. -/
def countIn (s : Settings) (log : List Entry) (key : BucketKey) (start : Time) (ended : Verdict → Bool) : ℕ :=
  log.countP fun e => e.key = key ∧ windowStart s e.current = start ∧ ended e.verdict

/-- The requests of a key in an interval, without its end, that ended in some way. -/
def countBetween (log : List Entry) (key : BucketKey) (start stop : Time) (ended : Verdict → Bool) : ℕ :=
  log.countP fun e => e.key = key ∧ start ≤ e.current ∧ e.current < stop ∧ ended e.verdict

def Event.isPurge : Event → Bool
  | .request _ _ _ => false
  | _ => true

end Anva.Limits
