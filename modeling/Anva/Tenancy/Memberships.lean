import Anva.Access.Authorize
import Anva.Access.Events
import Anva.Core.Inputs
import Anva.Lib.Table

/-! `core/services/tenancy.py`: the administration of memberships, call by call, and
what the recorded events say of a membership when they are read again from the start. -/

namespace Anva.Tenancy

open Access

/-! ### Rows -/

structure User where
  id : Uuid
  email : Text
  displayName : Text
  isActive : Bool
deriving DecidableEq, Repr

structure Role where
  id : Uuid
  organizationId : Uuid
  code : RoleCode
deriving DecidableEq, Repr

structure Membership where
  id : Uuid
  organizationId : Uuid
  userId : Uuid
  role : Role
  isActive : Bool
  revision : ℕ
deriving DecidableEq, Repr

/-- The columns of `core_membership_org_user_unique`. -/
def Membership.place (m : Membership) : Uuid × Uuid := (m.organizationId, m.userId)

structure Tables where
  users : List User
  roles : List Role
  memberships : List Membership
  log : EventLog
deriving DecidableEq, Repr

/-- The constraints of the schema. -/
structure Tables.Sound (db : Tables) : Prop where
  email_unique : Table.UniqueBy User.email db.users
  membership_pk : Table.UniqueBy Membership.id db.memberships
  place_unique : Table.UniqueBy Membership.place db.memberships
  member_user : ∀ m ∈ db.memberships, m.userId ∈ db.users.map (·.id)

/-! ### The services -/

/-- `redact_text`, and `str.lower` of the address. -/
structure Env where
  redactText : Text → Text
  lower : Text → Text

/-- Who calls, and what `_authorize_membership_admin` makes of it. -/
structure Caller where
  actor : ActorContext
  request : RequestContext
  authority : Result Text
deriving DecidableEq, Repr

def normalizedEmail (env : Env) (email : Text) : Text := env.lower (strip email)

def membershipTarget : Text := "membership".toList

def activeState : Text := "ACTIVE".toList

def inactiveState : Text := "INACTIVE".toList

def roleText (code : RoleCode) : Text := code.value.toList

/-- The largest value of a `PositiveBigIntegerField`. -/
def revisionMaximum : ℕ := 9223372036854775807

def findRole (db : Tables) (organizationId : Uuid) (roleCode : Text) : Result Role :=
  orRaise (db.roles.find? fun r => r.organizationId = organizationId ∧ roleText r.code = roleCode) notFound

/-- `get_tenant_record_for_update`. -/
def findMembership (db : Tables) (membershipId organizationId : Uuid) : Result Membership :=
  orRaise (db.memberships.find? fun m => m.id = membershipId ∧ m.organizationId = organizationId) notFound

/-- `User.objects.get_or_create`, with the id of a new row. -/
def getOrCreateUser (db : Tables) (userId : Uuid) (email displayName : Text) : Result (List User × User) :=
  match db.users.find? fun u => u.email = email with
  | some user => return (db.users, user)
  | none => do
    raiseIf (userId ∈ db.users.map (·.id)) (.integrityError "core_user_pkey")
    raiseIf (¬ fitsColumn 320 email) (.dataError "email")
    raiseIf (¬ fitsColumn 200 displayName) (.dataError "display_name")
    let user : User := ⟨userId, email, displayName, true⟩
    return (db.users ++ [user], user)

def creation (m : Membership) : Transition where
  targetType := membershipTarget
  targetId := m.id
  fromState := []
  toState := activeState
  revision := m.revision
  metadata := [(.roleCode, roleText m.role.code)]

def change (m : Membership) (fromState toState : Text) : Transition where
  targetType := membershipTarget
  targetId := m.id
  fromState := fromState
  toState := toState
  revision := m.revision
  metadata := []

/-- `add_membership`, with the ids of the rows it may create. -/
def addMembership (env : Env) (db : Tables) (caller : Caller) (organizationId : Uuid)
    (email displayName roleCode : Text) (userId membershipId : Uuid) : Result (Tables × Membership) := do
  raiseIf (organizationId ≠ caller.actor.organizationId) notFound
  raiseIf (isBlank email ∨ isBlank displayName) (.valueError "email and display_name are required")
  let path ← caller.authority
  let role ← findRole db organizationId roleCode
  let (users, user) ← getOrCreateUser db userId (normalizedEmail env email) displayName
  raiseIf (¬ user.isActive) notFound
  match db.memberships.find? fun m => m.organizationId = organizationId ∧ m.userId = user.id with
  | some membership => return ({ db with users := users }, membership)
  | none => do
    let membership : Membership := ⟨membershipId, organizationId, user.id, role, true, 1⟩
    raiseIf (membershipId ∈ db.memberships.map (·.id)) (.integrityError "core_membership_pkey")
    let log ← recordTransition env.redactText db.log organizationId
      (eventActor caller.actor caller.request path) (creation membership)
    return ({ db with users := users, memberships := db.memberships ++ [membership], log := log }, membership)

/-- The end of both changes: the row is saved and the transition recorded. -/
def save (env : Env) (db : Tables) (caller : Caller) (path : Text) (membership : Membership)
    (fromState toState : Text) : Result (Tables × Membership) := do
  raiseIf (revisionMaximum < membership.revision) (.dataError "revision")
  let log ← recordTransition env.redactText db.log membership.organizationId
    (eventActor caller.actor caller.request path) (change membership fromState toState)
  return ({ db with memberships := Table.replace Membership.id db.memberships membership, log := log }, membership)

def updateMembership (env : Env) (db : Tables) (caller : Caller) (membershipId : Uuid) (roleCode : Text)
    (expectedRevision : ℤ) : Result (Tables × Membership) := do
  let membership ← findMembership db membershipId caller.actor.organizationId
  let path ← caller.authority
  let role ← findRole db caller.actor.organizationId roleCode
  if membership.role.id = role.id then return (db, membership)
  raiseIf ((membership.revision : ℤ) ≠ expectedRevision) (.optimisticConcurrency "Expected revision")
  save env db caller path { membership with role := role, revision := membership.revision + 1 }
    (roleText membership.role.code) (roleText role.code)

def deactivateMembership (env : Env) (db : Tables) (caller : Caller) (membershipId : Uuid)
    (expectedRevision : ℤ) : Result (Tables × Membership) := do
  let membership ← findMembership db membershipId caller.actor.organizationId
  let path ← caller.authority
  if membership.isActive = false then return (db, membership)
  raiseIf ((membership.revision : ℤ) ≠ expectedRevision) (.optimisticConcurrency "Expected revision")
  save env db caller path { membership with isActive := false, revision := membership.revision + 1 }
    activeState inactiveState

/-! ### Histories -/

inductive Request where
  | add (organizationId : Uuid) (email displayName roleCode : Text) (userId membershipId : Uuid)
  | update (membershipId : Uuid) (roleCode : Text) (expectedRevision : ℤ)
  | deactivate (membershipId : Uuid) (expectedRevision : ℤ)
deriving DecidableEq, Repr

structure Call where
  caller : Caller
  body : Request
deriving DecidableEq, Repr

def perform (env : Env) (db : Tables) (call : Call) : Result (Tables × Membership) :=
  match call.body with
  | .add organizationId email displayName roleCode userId membershipId =>
    addMembership env db call.caller organizationId email displayName roleCode userId membershipId
  | .update membershipId roleCode expectedRevision =>
    updateMembership env db call.caller membershipId roleCode expectedRevision
  | .deactivate membershipId expectedRevision =>
    deactivateMembership env db call.caller membershipId expectedRevision

/-- The tables after a call; one that raises is rolled back. -/
def after (env : Env) (db : Tables) (call : Call) : Tables :=
  match perform env db call with
  | .ok result => result.1
  | .error _ => db

def run (env : Env) (db : Tables) (calls : List Call) : Tables := calls.foldl (after env) db

/-! ### Reading the events again -/

/-- What the events say of a membership: its role and whether it is active. -/
structure Replayed where
  role : Text
  isActive : Bool
deriving DecidableEq, Repr

def replayEvent (state : Option Replayed) (e : OutboxEvent) : Option Replayed :=
  if e.fromState = [] then some ⟨(e.metadata.lookup .roleCode).getD [], true⟩
  else if e.toState = inactiveState then state.map fun r => { r with isActive := false }
  else state.map fun r => { r with role := e.toState }

/-- The events of a membership that a history has left, in their order. -/
def eventsOf (start db : Tables) (id : Uuid) : List OutboxEvent :=
  (db.log.outboxEvents.drop start.log.outboxEvents.length).filter fun e =>
    e.aggregateType = membershipTarget ∧ e.aggregateId = id

def Membership.replayed (m : Membership) : Replayed := ⟨roleText m.role.code, m.isActive⟩

/-- What a membership was when the history began; nothing, if it is of the history. -/
def initially (start : Tables) (id : Uuid) : Option Replayed :=
  (start.memberships.find? fun m => m.id = id).map (·.replayed)

def replay (start db : Tables) (id : Uuid) : Option Replayed :=
  (eventsOf start db id).foldl replayEvent (initially start id)

end Anva.Tenancy
