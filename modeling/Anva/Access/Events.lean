import Anva.Access.Authorize

/-! `record_transition` of `core/services/events.py`: the audit row and the
outbox row that a transition leaves, in the caller's transaction. The metadata
keys are the allowlisted ones that the modelled services pass. -/

namespace Anva

/-- The last `width` hexadecimal digits of a number, in lower case. -/
def hexDigits (width n : ℕ) : List Char :=
  (List.range width).reverse.map fun i =>
    ['0', '1', '2', '3', '4', '5', '6', '7', '8', '9', 'a', 'b', 'c', 'd', 'e', 'f'].getD
      (n / 16 ^ i % 16) '0'

/-- `str` of a UUID. -/
def uuidText (id : Uuid) : List Char :=
  hexDigits 8 (id / 2 ^ 96) ++ '-' :: hexDigits 4 (id / 2 ^ 80) ++ '-' :: hexDigits 4 (id / 2 ^ 64) ++
    '-' :: hexDigits 4 (id / 2 ^ 48) ++ '-' :: hexDigits 12 id

/-- A text column holds at most `maxLength` characters, and no NUL. -/
def fitsColumn (maxLength : ℕ) (value : Text) : Bool :=
  value.length ≤ maxLength ∧ Char.ofNat 0 ∉ value

namespace Access

def RoleCode.value : RoleCode → String
  | .orgAdmin => "ORG_ADMIN"
  | .knowledgeAdmin => "KNOWLEDGE_ADMIN"
  | .technicalOwner => "TECHNICAL_OWNER"
  | .productOwner => "PRODUCT_OWNER"
  | .developer => "DEVELOPER"
  | .reviewer => "REVIEWER"
  | .securityReviewer => "SECURITY_REVIEWER"
  | .viewer => "VIEWER"

def PathPart.text : PathPart → Text
  | .credential id => "credential:".toList ++ uuidText id
  | .role code => "role:".toList ++ code.value.toList
  | .activeGrant => "grant:active".toList
  | .scope id => "scope:".toList ++ uuidText id
  | .repository id => "repository:".toList ++ uuidText id
  | .source id => "source:".toList ++ uuidText id

def AuthorizationDecision.path (d : AuthorizationDecision) : Text :=
  ['>'].intercalate (d.authorizationPath.map PathPart.text)

def ActorType.value : ActorType → Text
  | .user => "USER".toList
  | .service => "SERVICE".toList
  | .other name => name

inductive AuditKey where
  | contentHash | repositoryId | kind | errorCode | leaseOwner | viewType | layoutVersion | canvasViewId
  | canvasViewRevisionId | failureCode | roleCode
deriving DecidableEq, Repr

structure EventActor where
  actorType : ActorType
  actorId : Text
  credentialId : Option Uuid
  authorizationPath : Text
  requestId : Uuid
  sourceIpHash : Text
deriving DecidableEq, Repr

structure Transition where
  targetType : Text
  targetId : Uuid
  fromState : Text
  toState : Text
  revision : ℕ
  metadata : List (AuditKey × Text)
deriving DecidableEq, Repr

structure AuditEvent where
  organizationId : Uuid
  actor : EventActor
  action : Text
  targetType : Text
  targetId : Uuid
  fromState : Text
  toState : Text
  metadata : List (AuditKey × Text)
deriving DecidableEq, Repr

structure OutboxEvent where
  organizationId : Uuid
  aggregateType : Text
  aggregateId : Uuid
  eventType : Text
  fromState : Text
  toState : Text
  revision : ℕ
  metadata : List (AuditKey × Text)
  idempotencyKey : Text
deriving DecidableEq, Repr

structure EventLog where
  auditEvents : List AuditEvent
  outboxEvents : List OutboxEvent
deriving DecidableEq, Repr

def EventLog.empty : EventLog := ⟨[], []⟩

namespace Transition

def eventType (t : Transition) : Text := t.targetType ++ ".transitioned".toList

def idempotencyKey (t : Transition) : Text :=
  "transition:".toList ++ t.targetType ++ ':' :: uuidText t.targetId ++
    ':' :: Nat.toDigits 10 t.revision ++ ':' :: t.fromState ++ ':' :: t.toState

def auditEvent (t : Transition) (organizationId : Uuid) (actor : EventActor) : AuditEvent where
  organizationId := organizationId
  actor := actor
  action := t.eventType
  targetType := t.targetType
  targetId := t.targetId
  fromState := t.fromState
  toState := t.toState
  metadata := t.metadata

def outboxEvent (t : Transition) (organizationId : Uuid) : OutboxEvent where
  organizationId := organizationId
  aggregateType := t.targetType
  aggregateId := t.targetId
  eventType := t.eventType
  fromState := t.fromState
  toState := t.toState
  revision := t.revision
  metadata := t.metadata
  idempotencyKey := t.idempotencyKey

@[simp] theorem outboxEvent_idempotencyKey (t : Transition) (organizationId : Uuid) :
    (t.outboxEvent organizationId).idempotencyKey = t.idempotencyKey := by
  delta outboxEvent
  with_reducible rfl

end Transition

/-- The columns of `core_audit_request_transition_unique`. -/
def AuditEvent.transitionKey (e : AuditEvent) : Uuid × Uuid × Text × Uuid × Text × Text :=
  (e.organizationId, e.actor.requestId, e.targetType, e.targetId, e.fromState, e.toState)

/-- The columns of `core_outbox_org_idempotency_unique`. -/
def OutboxEvent.key (e : OutboxEvent) : Uuid × Text := (e.organizationId, e.idempotencyKey)

/-- Persist audit truth and an idempotent external effect together. -/
def recordTransition (redactText : Text → Text) (log : EventLog) (organizationId : Uuid)
    (actor : EventActor) (t : Transition) : Result EventLog := do
  raiseIf (∃ e ∈ t.metadata, redactText e.2 ≠ e.2)
    (.valueError "Audit metadata contains credential material")
  raiseIf (redactText actor.actorId ≠ actor.actorId)
    (.valueError "Audit metadata contains credential material")
  raiseIf (redactText actor.authorizationPath ≠ actor.authorizationPath)
    (.valueError "Audit metadata contains credential material")
  raiseIf (¬ fitsColumn 50 actor.actorType.value) (.dataError "actor_type")
  raiseIf (¬ fitsColumn 200 actor.actorId) (.dataError "actor_id")
  raiseIf (¬ fitsColumn 500 actor.authorizationPath) (.dataError "authorization_path")
  raiseIf (¬ fitsColumn 64 actor.sourceIpHash) (.dataError "source_ip_hash")
  raiseIf (∃ e ∈ t.metadata, Char.ofNat 0 ∈ e.2) (.dataError "metadata")
  let audit := t.auditEvent organizationId actor
  raiseIf (audit.transitionKey ∈ log.auditEvents.map (·.transitionKey))
    (.integrityError "core_audit_request_transition_unique")
  let outbox := t.outboxEvent organizationId
  raiseIf (outbox.key ∈ log.outboxEvents.map (·.key))
    (.integrityError "core_outbox_org_idempotency_unique")
  return ⟨log.auditEvents ++ [audit], log.outboxEvents ++ [outbox]⟩

theorem recordTransition_outbox {redactText : Text → Text} {log log' : EventLog}
    {organizationId : Uuid} {actor : EventActor} {t : Transition}
    (h : recordTransition redactText log organizationId actor t = .ok log') :
    log'.outboxEvents = log.outboxEvents ++ [t.outboxEvent organizationId] ∧
      (t.outboxEvent organizationId).key ∉ log.outboxEvents.map (·.key) := by
  simp only [recordTransition, bind_eq_ok, raiseIf_eq_ok, exists_and_left, exists_const,
    pure_eq_ok] at h
  obtain ⟨-, -, -, -, -, -, -, -, -, hkey, rfl⟩ := h
  exact ⟨rfl, hkey⟩

/-- An actor that a transition can be recorded for. -/
structure EventActor.Recordable (redactText : Text → Text) (actor : EventActor) : Prop where
  cleanId : redactText actor.actorId = actor.actorId
  cleanPath : redactText actor.authorizationPath = actor.authorizationPath
  fitsType : fitsColumn 50 actor.actorType.value = true
  fitsId : fitsColumn 200 actor.actorId = true
  fitsPath : fitsColumn 500 actor.authorizationPath = true
  fitsAddress : fitsColumn 64 actor.sourceIpHash = true

theorem recordTransition_succeeds {redactText : Text → Text} {log : EventLog} {organizationId : Uuid}
    {actor : EventActor} {t : Transition} (hactor : actor.Recordable redactText)
    (hmetadata : ∀ e ∈ t.metadata, redactText e.2 = e.2 ∧ Char.ofNat 0 ∉ e.2)
    (haudit : (t.auditEvent organizationId actor).transitionKey ∉ log.auditEvents.map (·.transitionKey))
    (houtbox : (t.outboxEvent organizationId).key ∉ log.outboxEvents.map (·.key)) :
    recordTransition redactText log organizationId actor t =
      .ok ⟨log.auditEvents ++ [t.auditEvent organizationId actor],
        log.outboxEvents ++ [t.outboxEvent organizationId]⟩ := by
  simp only [recordTransition, bind_eq_ok, raiseIf_eq_ok, exists_const, pure_eq_ok, not_exists, not_and,
    not_not, Bool.not_eq_true]
  exact ⟨fun e he => (hmetadata e he).1, hactor.cleanId, hactor.cleanPath, by simp [hactor.fitsType],
    by simp [hactor.fitsId], by simp [hactor.fitsPath], by simp [hactor.fitsAddress],
    fun e he => (hmetadata e he).2, haudit, houtbox, trivial⟩

/-- The request half of an `ActorContext`, which no decision reads. -/
structure RequestContext where
  requestId : Uuid
  sourceIpHash : Text
deriving DecidableEq, Repr

/-- `replace(actor, authorization_path=...)`, as the transition reads it. -/
def eventActor (actor : ActorContext) (request : RequestContext) (authorizationPath : Text) :
    EventActor where
  actorType := actor.actorType
  actorId := actor.actorId
  credentialId := actor.credentialId
  authorizationPath := authorizationPath
  requestId := request.requestId
  sourceIpHash := request.sourceIpHash

end Access

end Anva
