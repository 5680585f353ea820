import Anva.Github.Publication
import Anva.Lib.Transition

/-! Workers that claim and dispatch write intents. Claiming is one transaction and
dispatching, with the provider's call in it, another. In between time passes, a
worker may stop, and intents are queued, superseded and cancelled. -/

namespace Anva.Github

/-- What a worker holds between its two transactions. -/
structure Claim where
  intentId : ℕ
  attempt : ℕ
  claimedAt : Time
  expiresAt : Time
deriving DecidableEq, Repr

structure PerformedWrite (P : Type) where
  worker : ℕ
  at' : Time
  intent : WriteIntent P

/-- `performed` and `finished` are histories: the calls to the provider, and the
attempts whose second transaction has committed. -/
structure Dispatchers (P : Type) where
  now : Time
  env : Authority
  db : Writes P
  claims : ℕ → Option Claim
  performed : List (PerformedWrite P)
  finished : List (ℕ × ℕ)

inductive ProviderReply where
  | written (externalId : Text)
  | failed (error : ClientError) (retryAfterSeconds : Option ℤ)
deriving DecidableEq, Repr

inductive DispatchAction (P : Type) where
  | tick (now : Time)
  | govern (env : Authority)
  | queue (runId : ℕ) (rendered : Except PublicationFault (PublicationKind → P))
  | stopBinding (repositoryId : ℕ) (errorCode : String)
  | claim (worker intentId : ℕ)
  | dispatch (worker : ℕ) (reply : ProviderReply)
  /-- The provider was called, and nothing was committed. -/
  | lose (worker : ℕ)
  | crash (worker : ℕ)

namespace Dispatchers

variable {P : Type}

def start (now : Time) (env : Authority) : Dispatchers P := ⟨now, env, .empty, fun _ => none, [], []⟩

def setClaim (w : Dispatchers P) (worker : ℕ) (c : Option Claim) : Dispatchers P :=
  { w with claims := Function.update w.claims worker c }

/-- The first transaction: some eligible row that nobody has locked. -/
def claim (w : Dispatchers P) (worker intentId : ℕ) : Option (Dispatchers P) :=
  match w.claims worker, w.db.intent intentId with
  | none, some i =>
    if i.Eligible w.now then
      some { w.setClaim worker (some ⟨intentId, i.attemptCount + 1, w.now, w.now + seconds writeLeaseSeconds⟩) with
        db := w.db.saveIntent (i.claimed w.now worker) }
    else none
  | _, _ => none

/-- The second transaction after the provider has answered. -/
def record (db : Writes P) (now : Time) (i : WriteIntent P) : ProviderReply → Except PublicationFault (Writes P)
  | .written externalId => db.recordSuccess now i externalId
  | .failed error retryAfterSeconds => db.recordFailure now i error retryAfterSeconds

/-- The second transaction. It reads the row again, and calls the provider unless
there is a reason not to. What is raised rolls it back. -/
def dispatch (w : Dispatchers P) (worker : ℕ) (reply : ProviderReply) : Option (Dispatchers P) :=
  match w.claims worker with
  | none => none
  | some c =>
    match w.db.intent c.intentId with
    | none => none
    | some i =>
      match w.db.cancellationCode w.env i with
      | .error _ => some (w.setClaim worker none)
      | .ok code =>
        let performed := if code = "" then w.performed ++ [⟨worker, w.now, i⟩] else w.performed
        let committed := if code = "" then record w.db c.claimedAt i reply else w.db.cancelClaimed c.claimedAt i code
        match committed with
        | .ok db => some { w.setClaim worker none with
            db := db, performed := performed, finished := w.finished ++ [(c.intentId, c.attempt)] }
        | .error _ => some { w.setClaim worker none with performed := performed }

/-- The worker stops after the call and before the commit. -/
def lose (w : Dispatchers P) (worker : ℕ) : Option (Dispatchers P) :=
  match w.claims worker with
  | none => none
  | some c =>
    match w.db.intent c.intentId with
    | none => none
    | some i =>
      if w.db.cancellationCode w.env i = .ok "" then
        some { w.setClaim worker none with performed := w.performed ++ [⟨worker, w.now, i⟩] }
      else none

def next (contentHash : P → Text) (w : Dispatchers P) : DispatchAction P → Option (Dispatchers P)
  | .tick now => if w.now ≤ now then some { w with now := now } else none
  | .govern env => some { w with env := env }
  | .queue runId rendered =>
    match w.db.queue contentHash w.env w.now runId rendered with
    | .ok (db, _) => some { w with db := db }
    | .error _ => none
  | .stopBinding repositoryId errorCode => some { w with db := w.db.stopBinding w.now repositoryId errorCode }
  | .claim worker intentId => w.claim worker intentId
  | .dispatch worker reply => w.dispatch worker reply
  | .lose worker => w.lose worker
  | .crash worker => some (w.setClaim worker none)

end Dispatchers

section

variable {P : Type}

def DispatchStep (contentHash : P → Text) (w : Dispatchers P) (action : DispatchAction P) (w' : Dispatchers P) : Prop :=
  w.next contentHash action = some w'

/-- The claim of a worker that comes to its second transaction: its lease has not
run out, and where the intent was cancelled there still is a reason not to write. -/
def Claim.Holds (w : Dispatchers P) (c : Claim) : Prop :=
  w.now < c.expiresAt ∧ ∀ i ∈ w.db.intent c.intentId, i.state = .cancelled → w.db.cancellationCode w.env i ≠ .ok ""

/-- The condition on the steps. A last attempt has its outcome before its lease
runs out. -/
def DispatchAction.Meets (w : Dispatchers P) : DispatchAction P → Prop
  | .tick now => ∀ i ∈ w.db.intents, i.state = .running → i.attemptCount = i.maxAttempts →
      ∀ expiresAt ∈ i.leaseExpiresAt, now < expiresAt
  | .dispatch worker _ => ∀ c ∈ w.claims worker, c.Holds w
  | .lose worker => ∀ c ∈ w.claims worker, c.Holds w
  | _ => True

instance (w : Dispatchers P) (c : Claim) : Decidable (c.Holds w) :=
  inferInstanceAs (Decidable (_ ∧ ∀ i ∈ w.db.intent c.intentId, _))

instance (w : Dispatchers P) : (action : DispatchAction P) → Decidable (action.Meets w)
  | .tick now => inferInstanceAs (Decidable (∀ i ∈ w.db.intents, i.state = .running → i.attemptCount = i.maxAttempts →
      ∀ expiresAt ∈ i.leaseExpiresAt, now < expiresAt))
  | .dispatch worker _ | .lose worker => inferInstanceAs (Decidable (∀ c ∈ w.claims worker, c.Holds w))
  | .govern _ | .queue _ _ | .stopBinding _ _ | .claim _ _ | .crash _ => isTrue trivial

def WriteIntent.Due (now : Time) (i : WriteIntent P) : Prop :=
  ((i.state = .pending ∨ i.state = .retry) ∧ i.availableAt ≤ now) ∨
    (i.state = .running ∧ ∀ expiresAt ∈ i.leaseExpiresAt, expiresAt ≤ now)

/-- What holds of every state: each call to the provider was made by the worker
that held the lease of the running intent, each finished attempt has one row,
attempts are bounded, an intent that is due can be claimed, and the event of an
intent is published when the intent is over, and not before. -/
structure Accounted (w : Dispatchers P) : Prop where
  fenced : ∀ x ∈ w.performed, x.intent.state = .running ∧ x.intent.leaseOwner = some x.worker ∧
    ∃ expiresAt, x.intent.leaseExpiresAt = some expiresAt ∧ x.at' < expiresAt
  attempts : ∀ f ∈ w.finished, (w.db.attempts.filter fun a => a.key = f).length = 1
  bounded : ∀ i ∈ w.db.intents, i.attemptCount ≤ i.maxAttempts
  claimable : ∀ i ∈ w.db.intents, i.Due w.now → i.Eligible w.now
  events : ∀ i ∈ w.db.intents, ∃ e ∈ w.db.outbox, e.aggregateId = i.id
  published : ∀ i ∈ w.db.intents, ∀ e ∈ w.db.outbox, e.aggregateId = i.id → (e.publishedAt ≠ none ↔ i.state.Final)

end

end Anva.Github
