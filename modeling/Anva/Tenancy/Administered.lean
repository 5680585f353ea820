import Anva.Tenancy.Memberships

/-! What a history of membership calls keeps: each call leaves the memberships alone,
adds one or changes one, and its one event says what it did. Whether an added address
ends with an active membership of the role is decided by the membership it already has. -/

namespace Anva.Tenancy

open Access

/-! ### What the administration owes -/

/-- The organization has an active membership with a role for an address. -/
def Tables.HasActive (db : Tables) (organizationId : Uuid) (email roleCode : Text) : Prop :=
  ∃ user ∈ db.users, user.email = email ∧ ∃ m ∈ db.memberships, m.organizationId = organizationId ∧
    m.userId = user.id ∧ m.isActive = true ∧ roleText m.role.code = roleCode

/-- No membership of the address stands in the way of adding one: there is none, or it is
active and has the role. -/
def Tables.Free (db : Tables) (organizationId : Uuid) (email roleCode : Text) : Prop :=
  ∀ user ∈ db.users, user.email = email → ∀ m ∈ db.memberships, m.organizationId = organizationId →
    m.userId = user.id → m.isActive = true ∧ roleText m.role.code = roleCode

/-- The revision that a call names, where it names one. -/
def Request.expected : Request → Option (Uuid × ℤ)
  | .add _ _ _ _ _ _ => none
  | .update membershipId _ expectedRevision => some (membershipId, expectedRevision)
  | .deactivate membershipId expectedRevision => some (membershipId, expectedRevision)

/-- A call names a revision that the membership does not have. -/
def Stale (db : Tables) (call : Call) : Prop :=
  ∃ target ∈ call.body.expected, ∀ m ∈ db.memberships, m.id = target.1 → (m.revision : ℤ) ≠ target.2

/-- One membership changed or came into being: its revision went up by one, from 0 if it is
new, and one event was written, of the membership and with that revision. -/
def Accepted (db later : Tables) : Prop :=
  ∃ m ∈ later.memberships, (∃ e, later.log.outboxEvents = db.log.outboxEvents ++ [e] ∧
      e.aggregateType = membershipTarget ∧ e.aggregateId = m.id ∧ e.revision = m.revision) ∧
    m.revision = ((db.memberships.find? fun r => r.id = m.id).map (·.revision)).getD 0 + 1 ∧
    ∀ r, r.id ≠ m.id → (r ∈ later.memberships ↔ r ∈ db.memberships)

structure Administered (env : Env) (start : Tables) (calls : List Call) : Prop where
  effective : ∀ before call rest, calls = before ++ call :: rest →
    ∀ organizationId email displayName roleCode userId membershipId,
      call.body = .add organizationId email displayName roleCode userId membershipId →
      (∃ result, perform env (run env start before) call = .ok result) →
      (after env (run env start before) call).HasActive organizationId (normalizedEmail env email) roleCode
  stale : ∀ before call rest, calls = before ++ call :: rest → Stale (run env start before) call →
    after env (run env start before) call = run env start before
  accepted : ∀ before call rest, calls = before ++ call :: rest →
    ((after env (run env start before) call).memberships = (run env start before).memberships ∧
      (after env (run env start before) call).log = (run env start before).log) ∨
    Accepted (run env start before) (after env (run env start before) call)
  replays : ∀ before, before <+: calls → ∀ m ∈ (run env start before).memberships,
    replay start (run env start before) m.id = some m.replayed

/-! ### One call -/

variable {env : Env} {db later start : Tables} {call : Call} {calls : List Call} {result : Tables × Membership}
  {users : List User} {user : User} {email displayName : Text} {userId : Uuid}

inductive Step (db : Tables) : Tables → Prop
  | kept (users : List User) (hgrown : db.users <+: users) (hemails : Table.UniqueBy User.email users) :
      Step db { db with users := users }
  | created (users : List User) (m : Membership) (log : EventLog) (hgrown : db.users <+: users)
      (hemails : Table.UniqueBy User.email users) (hid : ∀ r ∈ db.memberships, r.id ≠ m.id)
      (hplace : ∀ r ∈ db.memberships, r.place ≠ m.place) (huser : m.userId ∈ users.map (·.id))
      (hrevision : m.revision = 1) (hactive : m.isActive = true)
      (hlog : log.outboxEvents = db.log.outboxEvents ++ [(creation m).outboxEvent m.organizationId]) :
      Step db { db with users := users, memberships := db.memberships ++ [m], log := log }
  | changed (old m : Membership) (fromState toState : Text) (log : EventLog) (hold : old ∈ db.memberships)
      (hid : old.id = m.id) (hplace : old.place = m.place) (hrevision : m.revision = old.revision + 1)
      (hlog : log.outboxEvents = db.log.outboxEvents ++ [(change m fromState toState).outboxEvent m.organizationId])
      (hreplay : replayEvent (some old.replayed) ((change m fromState toState).outboxEvent m.organizationId) =
        some m.replayed) :
      Step db { db with memberships := Table.replace Membership.id db.memberships m, log := log }

theorem roleText_ne_nil (code : RoleCode) : roleText code ≠ [] := by
  cases code <;> decide

theorem roleText_ne_inactive (code : RoleCode) : roleText code ≠ inactiveState := by
  cases code <;> decide

theorem replayEvent_creation (m : Membership) (hactive : m.isActive = true) (state : Option Replayed) :
    replayEvent state ((creation m).outboxEvent m.organizationId) = some m.replayed := by
  change some _ = some (Replayed.mk (roleText m.role.code) m.isActive)
  rw [hactive]
  rfl

theorem replayEvent_role (old : Membership) (role : Role) (revision : ℕ) :
    replayEvent (some old.replayed)
        ((change { old with role := role, revision := revision } (roleText old.role.code)
          (roleText role.code)).outboxEvent old.organizationId) =
      some { old with role := role, revision := revision }.replayed := by
  change (if roleText old.role.code = [] then _ else if roleText role.code = inactiveState then _ else _) = _
  rw [if_neg (roleText_ne_nil _), if_neg (roleText_ne_inactive _)]
  rfl

theorem replayEvent_inactive (old : Membership) (revision : ℕ) :
    replayEvent (some old.replayed)
        ((change { old with isActive := false, revision := revision } activeState inactiveState).outboxEvent
          old.organizationId) =
      some { old with isActive := false, revision := revision }.replayed := rfl

theorem getOrCreateUser_cases (h : getOrCreateUser db userId email displayName = .ok (users, user)) :
    user.email = email ∧ user ∈ users ∧
      (users = db.users ∨ (users = db.users ++ [user] ∧ (∀ u ∈ db.users, u.email ≠ email) ∧
        user.id ∉ db.users.map (·.id))) := by
  unfold getOrCreateUser at h
  split at h
  next u hu =>
    obtain ⟨rfl, rfl⟩ := Prod.mk.inj (pure_eq_ok.mp h)
    exact ⟨by simpa using List.find?_some hu, List.mem_of_find?_eq_some hu, .inl rfl⟩
  next hnone =>
    simp only [bind_eq_ok, raiseIf_eq_ok, exists_and_left, exists_const, pure_eq_ok, Prod.mk.injEq] at h
    obtain ⟨hid, -, -, rfl, rfl⟩ := h
    refine ⟨rfl, by simp, .inr ⟨rfl, fun u hu => ?_, hid⟩⟩
    simpa using List.find?_eq_none.mp hnone u hu

theorem getOrCreateUser_emails (hsound : db.Sound)
    (h : getOrCreateUser db userId email displayName = .ok (users, user)) :
    db.users <+: users ∧ Table.UniqueBy User.email users := by
  obtain ⟨hemail, -, rfl | ⟨rfl, hnew, -⟩⟩ := getOrCreateUser_cases h
  · exact ⟨List.prefix_rfl, hsound.email_unique⟩
  · refine ⟨List.prefix_append _ _, hsound.email_unique.append_singleton fun u hu => ?_⟩
    rw [hemail]
    exact hnew u hu

section

variable {caller : Caller} {organizationId membershipId : Uuid} {roleCode : Text} {m : Membership}

theorem addMembership_cases
    (h : addMembership env db caller organizationId email displayName roleCode userId membershipId = .ok (later, m)) :
    ∃ users user role, getOrCreateUser db userId (normalizedEmail env email) displayName = .ok (users, user) ∧
      roleText role.code = roleCode ∧
      ((m ∈ db.memberships ∧ m.organizationId = organizationId ∧ m.userId = user.id ∧
          later = { db with users := users }) ∨
        ((∀ r ∈ db.memberships, r.organizationId = organizationId → r.userId ≠ user.id) ∧
          m = ⟨membershipId, organizationId, user.id, role, true, 1⟩ ∧ (∀ r ∈ db.memberships, r.id ≠ m.id) ∧
          ∃ log, log.outboxEvents = db.log.outboxEvents ++ [(creation m).outboxEvent organizationId] ∧
            later = { db with users := users, memberships := db.memberships ++ [m], log := log })) := by
  unfold addMembership at h
  simp only [bind_eq_ok, raiseIf_eq_ok, exists_and_left, exists_const] at h
  obtain ⟨-, -, path, -, role, hrole, ⟨users, user⟩, huser, -, h⟩ := h
  refine ⟨users, user, role, huser, ?_, ?_⟩
  · have hfound := List.find?_some (orRaise_eq_ok.mp hrole)
    simp only [decide_eq_true_eq] at hfound
    exact hfound.2
  · split at h
    next found hfound =>
      obtain ⟨rfl, rfl⟩ := Prod.mk.inj (pure_eq_ok.mp h)
      have hplace := List.find?_some hfound
      simp only [decide_eq_true_eq] at hplace
      exact .inl ⟨List.mem_of_find?_eq_some hfound, hplace.1, hplace.2, rfl⟩
    next hnone =>
      simp only [bind_eq_ok, raiseIf_eq_ok, exists_and_left, exists_const, pure_eq_ok, Prod.mk.injEq] at h
      obtain ⟨hid, log, hlog, rfl, rfl⟩ := h
      refine .inr ⟨fun r hr horg huid => ?_, rfl, fun r hr he => hid ?_, log, (recordTransition_outbox hlog).1, rfl⟩
      · exact List.find?_eq_none.mp hnone r hr (by simp [horg, huid])
      · exact List.mem_map.mpr ⟨r, hr, he⟩

theorem addMembership_step (hsound : db.Sound)
    (h : addMembership env db caller organizationId email displayName roleCode userId membershipId = .ok (later, m)) :
    Step db later := by
  obtain ⟨users, user, role, huser, -, ⟨-, -, -, rfl⟩ | ⟨hnone, rfl, hid, log, hlog, rfl⟩⟩ := addMembership_cases h
  · obtain ⟨hgrown, hemails⟩ := getOrCreateUser_emails hsound huser
    exact .kept users hgrown hemails
  · obtain ⟨hgrown, hemails⟩ := getOrCreateUser_emails hsound huser
    refine .created users _ log hgrown hemails hid (fun r hr he => ?_) ?_ rfl rfl hlog
    · exact hnone r hr (congrArg Prod.fst he) (congrArg Prod.snd he)
    · exact List.mem_map_of_mem (getOrCreateUser_cases huser).2.1

theorem findMembership_ok (h : findMembership db membershipId organizationId = .ok m) :
    m ∈ db.memberships ∧ m.id = membershipId := by
  have hfound := orRaise_eq_ok.mp h
  have hp := List.find?_some hfound
  simp only [decide_eq_true_eq] at hp
  exact ⟨List.mem_of_find?_eq_some hfound, hp.1⟩

theorem save_step {old : Membership} {path fromState toState : Text} {result : Tables × Membership} (hold : old ∈ db.memberships)
    (hid : old.id = m.id) (hplace : old.place = m.place) (hrevision : m.revision = old.revision + 1)
    (hreplay : replayEvent (some old.replayed) ((change m fromState toState).outboxEvent m.organizationId) =
      some m.replayed)
    (h : save env db caller path m fromState toState = .ok result) : Step db result.1 := by
  simp only [save, bind_eq_ok, raiseIf_eq_ok, exists_and_left, exists_const, pure_eq_ok] at h
  obtain ⟨-, log, hlog, rfl⟩ := h
  exact .changed old m fromState toState log hold hid hplace hrevision (recordTransition_outbox hlog).1 hreplay

theorem updateMembership_cases {expectedRevision : ℤ} {result : Tables × Membership}
    (h : updateMembership env db caller membershipId roleCode expectedRevision = .ok result) :
    result.1 = db ∨ (Step db result.1 ∧ ∃ m ∈ db.memberships, m.id = membershipId ∧ m.revision = expectedRevision) := by
  simp only [updateMembership, bind_eq_ok] at h
  obtain ⟨old, hold, path, -, role, -, h⟩ := h
  obtain ⟨hmem, hid⟩ := findMembership_ok hold
  split_ifs at h
  · exact .inl (congrArg Prod.fst (pure_eq_ok.mp h)).symm
  · simp only [bind_eq_ok, raiseIf_eq_ok, exists_and_left, exists_const] at h
    obtain ⟨hrevision, h⟩ := h
    have hstep : Step db result.1 := save_step (m := { old with role := role, revision := old.revision + 1 })
      hmem rfl rfl rfl (replayEvent_role old role _) h
    exact .inr ⟨hstep, old, hmem, hid, not_not.mp hrevision⟩

theorem deactivateMembership_cases {expectedRevision : ℤ} {result : Tables × Membership}
    (h : deactivateMembership env db caller membershipId expectedRevision = .ok result) :
    result.1 = db ∨ (Step db result.1 ∧ ∃ m ∈ db.memberships, m.id = membershipId ∧ m.revision = expectedRevision) := by
  simp only [deactivateMembership, bind_eq_ok] at h
  obtain ⟨old, hold, path, -, h⟩ := h
  obtain ⟨hmem, hid⟩ := findMembership_ok hold
  split_ifs at h
  · exact .inl (congrArg Prod.fst (pure_eq_ok.mp h)).symm
  · simp only [bind_eq_ok, raiseIf_eq_ok, exists_and_left, exists_const] at h
    obtain ⟨hrevision, h⟩ := h
    have hstep : Step db result.1 := save_step (m := { old with isActive := false, revision := old.revision + 1 })
      hmem rfl rfl rfl (replayEvent_inactive old _) h
    exact .inr ⟨hstep, old, hmem, hid, not_not.mp hrevision⟩

end

theorem Step.refl (hsound : db.Sound) : Step db db :=
  .kept db.users List.prefix_rfl hsound.email_unique

theorem perform_step (hsound : db.Sound) (h : perform env db call = .ok result) : Step db result.1 := by
  unfold perform at h
  split at h
  · exact addMembership_step hsound h
  · rcases updateMembership_cases h with he | hstep
    · rw [he]
      exact Step.refl hsound
    · exact hstep.1
  · rcases deactivateMembership_cases h with he | hstep
    · rw [he]
      exact Step.refl hsound
    · exact hstep.1

theorem after_eq (h : perform env db call = .ok result) : after env db call = result.1 := by
  rw [after, h]

theorem after_cases (env : Env) (db : Tables) (call : Call) :
    after env db call = db ∨ ∃ result, perform env db call = .ok result ∧ after env db call = result.1 := by
  cases h : perform env db call with
  | error e => exact .inl (by rw [after, h])
  | ok result => exact .inr ⟨result, rfl, after_eq h⟩

theorem after_step (hsound : db.Sound) (env : Env) (call : Call) : Step db (after env db call) := by
  rcases after_cases env db call with he | ⟨result, h, he⟩
  · rw [he]
    exact Step.refl hsound
  · rw [he]
    exact perform_step hsound h

theorem after_stale (h : Stale db call) : after env db call = db := by
  obtain ⟨target, htarget, hstale⟩ := h
  rcases after_cases env db call with he | ⟨result, h, he⟩
  · exact he
  · rw [he]
    have hnot : ¬ ∃ m ∈ db.memberships, m.id = target.1 ∧ (m.revision : ℤ) = target.2 :=
      fun ⟨m, hm, hid, hrevision⟩ => hstale m hm hid hrevision
    unfold perform at h
    cases hbody : call.body with
    | add =>
      rw [hbody] at htarget
      cases htarget
    | update membershipId roleCode expectedRevision =>
      rw [hbody] at htarget h
      cases htarget
      exact (updateMembership_cases h).resolve_right fun hstep => hnot hstep.2
    | deactivate membershipId expectedRevision =>
      rw [hbody] at htarget h
      cases htarget
      exact (deactivateMembership_cases h).resolve_right fun hstep => hnot hstep.2

/-! ### What a step keeps -/

theorem Step.sound (h : Step db later) (hsound : db.Sound) : later.Sound := by
  have hgrows {users : List User} (hgrown : db.users <+: users) {id : Uuid} (hid : id ∈ db.users.map (·.id)) :
      id ∈ users.map (·.id) := (hgrown.map _).subset hid
  cases h with
  | kept users hgrown hemails =>
    exact ⟨hemails, hsound.membership_pk, hsound.place_unique, fun m hm => hgrows hgrown (hsound.member_user m hm)⟩
  | created users m log hgrown hemails hid hplace huser =>
    refine ⟨hemails, hsound.membership_pk.append_singleton hid, hsound.place_unique.append_singleton hplace, ?_⟩
    intro r hr
    rcases List.mem_append.mp hr with hr | hr
    · exact hgrows hgrown (hsound.member_user r hr)
    · obtain rfl := List.mem_singleton.mp hr
      exact huser
  | changed old m fromState toState log hold hid hplace =>
    have hplaces : (Table.replace Membership.id db.memberships m).map Membership.place =
        db.memberships.map Membership.place := by
      rw [Table.replace, List.map_map]
      refine List.map_congr_left fun r hr => ?_
      change (if r.id = m.id then m else r).place = r.place
      split_ifs with he
      · rw [← hplace, hsound.membership_pk.eq_of_key_eq hr hold (he.trans hid.symm)]
      · rfl
    refine ⟨hsound.email_unique, hsound.membership_pk.replace, ?_, fun r hr => ?_⟩
    · rw [Table.UniqueBy, hplaces]
      exact hsound.place_unique
    · rcases Table.mem_replace.mp hr with ⟨rfl, -⟩ | ⟨hr, -⟩
      · rw [show r.userId = old.userId from (congrArg Prod.snd hplace).symm]
        exact hsound.member_user old hold
      · exact hsound.member_user r hr

theorem Step.accepted (h : Step db later) (hsound : db.Sound) :
    (later.memberships = db.memberships ∧ later.log = db.log) ∨ Accepted db later := by
  cases h with
  | kept users => exact .inl ⟨rfl, rfl⟩
  | created users m log hgrown hemails hid hplace huser hrevision hactive hlog =>
    refine .inr ⟨m, by simp, ⟨_, hlog, rfl, rfl, rfl⟩, ?_, fun r hr => ?_⟩
    · rw [List.find?_eq_none.mpr fun r hr => by simpa using hid r hr, hrevision]
      rfl
    · simp only [List.mem_append, List.mem_singleton, or_iff_left_iff_imp]
      rintro rfl
      exact absurd rfl hr
  | changed old m fromState toState log hold hid hplace hrevision hlog hreplay =>
    refine .inr ⟨m, Table.mem_replace.mpr (.inl ⟨rfl, old, hold, hid⟩), ⟨_, hlog, rfl, rfl, rfl⟩, ?_, fun r hr => ?_⟩
    · rw [← hid, hsound.membership_pk.find?_eq_some hold, hrevision]
      rfl
    · rw [Table.mem_replace]
      refine ⟨fun h => h.elim (fun h => absurd (congrArg Membership.id h.1) hr) And.left, fun h => .inr ⟨h, hr⟩⟩

/-- What the events since the start say of each membership. -/
structure Recounted (start db : Tables) : Prop where
  known : ∀ m ∈ start.memberships, m.id ∈ db.memberships.map (·.id)
  log : ∃ events, db.log.outboxEvents = start.log.outboxEvents ++ events ∧
    (∀ e ∈ events, e.aggregateId ∈ db.memberships.map (·.id)) ∧
    ∀ m ∈ db.memberships, (events.filter fun e => e.aggregateType = membershipTarget ∧ e.aggregateId = m.id).foldl
      replayEvent (initially start m.id) = some m.replayed

theorem recounted_start (hsound : start.Sound) : Recounted start start := by
  refine ⟨fun m hm => List.mem_map_of_mem hm, [], (List.append_nil _).symm, by simp, fun m hm => ?_⟩
  rw [List.filter_nil, List.foldl_nil, initially, hsound.membership_pk.find?_eq_some hm]
  rfl

theorem Recounted.replay (h : Recounted start db) {m : Membership} (hm : m ∈ db.memberships) :
    replay start db m.id = some m.replayed := by
  obtain ⟨events, hlog, -, hreplay⟩ := h.log
  rw [Tenancy.replay, eventsOf, hlog, List.drop_left]
  exact hreplay m hm

theorem foldl_replay_other {events : List OutboxEvent} {e : OutboxEvent} {id : Uuid} (state : Option Replayed)
    (h : e.aggregateId ≠ id) :
    ((events ++ [e]).filter fun e => e.aggregateType = membershipTarget ∧ e.aggregateId = id).foldl replayEvent state =
      (events.filter fun e => e.aggregateType = membershipTarget ∧ e.aggregateId = id).foldl replayEvent state := by
  rw [List.filter_append, List.filter_cons_of_neg (by simp [h]), List.filter_nil, List.append_nil]

theorem foldl_replay_own {events : List OutboxEvent} {e : OutboxEvent} (state : Option Replayed)
    (htype : e.aggregateType = membershipTarget) :
    ((events ++ [e]).filter fun r => r.aggregateType = membershipTarget ∧ r.aggregateId = e.aggregateId).foldl
        replayEvent state =
      replayEvent ((events.filter fun r => r.aggregateType = membershipTarget ∧ r.aggregateId = e.aggregateId).foldl
        replayEvent state) e := by
  rw [List.filter_append, List.filter_cons_of_pos (by simp [htype]), List.filter_nil, List.foldl_append]
  rfl

theorem Step.recounted (h : Step db later) (hrecounted : Recounted start db) :
    Recounted start later := by
  obtain ⟨hknown, events, hevents, hids, hreplay⟩ := hrecounted
  cases h with
  | kept users => exact ⟨hknown, events, hevents, hids, hreplay⟩
  | created users m log hgrown hemails hid hplace huser hrevision hactive hlog =>
    have hgrows {id : Uuid} (h : id ∈ db.memberships.map (·.id)) : id ∈ (db.memberships ++ [m]).map (·.id) := by
      rw [List.map_append]
      exact List.mem_append_left _ h
    refine ⟨fun r hr => hgrows (hknown r hr), events ++ [(creation m).outboxEvent m.organizationId], ?_, ?_, ?_⟩
    · rw [← List.append_assoc, ← hevents]
      exact hlog
    · intro e he
      rcases List.mem_append.mp he with he | he
      · exact hgrows (hids e he)
      · obtain rfl := List.mem_singleton.mp he
        simp [creation, Transition.outboxEvent]
    · intro r hr
      rcases List.mem_append.mp hr with hr | hr
      · rw [foldl_replay_other _ fun he => hid r hr he.symm]
        exact hreplay r hr
      · obtain rfl := List.mem_singleton.mp hr
        rw [show r.id = ((creation r).outboxEvent r.organizationId).aggregateId from rfl, foldl_replay_own _ rfl]
        exact replayEvent_creation r hactive _
  | changed old m fromState toState log hold hid hplace hrevision hlog hevent =>
    have hsame : (Table.replace Membership.id db.memberships m).map (·.id) = db.memberships.map (·.id) :=
      Table.map_key_replace
    refine ⟨fun r hr => ?_, events ++ [(change m fromState toState).outboxEvent m.organizationId], ?_, ?_, ?_⟩
    · rw [hsame]
      exact hknown r hr
    · rw [← List.append_assoc, ← hevents]
      exact hlog
    · intro e he
      rw [hsame]
      rcases List.mem_append.mp he with he | he
      · exact hids e he
      · obtain rfl := List.mem_singleton.mp he
        rw [show ((change m fromState toState).outboxEvent m.organizationId).aggregateId = old.id from hid.symm]
        exact List.mem_map_of_mem hold
    · intro r hr
      rcases Table.mem_replace.mp hr with ⟨rfl, -⟩ | ⟨hr, hne⟩
      · rw [show r.id = ((change r fromState toState).outboxEvent r.organizationId).aggregateId from rfl,
          foldl_replay_own _ rfl]
        rw [show ((change r fromState toState).outboxEvent r.organizationId).aggregateId = old.id from hid.symm,
          hreplay old hold]
        exact hevent
      · rw [foldl_replay_other _ fun he => hne he.symm]
        exact hreplay r hr

/-! ### Histories -/

theorem run_sound (hsound : start.Sound) (env : Env) (calls : List Call) :
    (run env start calls).Sound ∧ Recounted start (run env start calls) := by
  induction calls using List.reverseRecOn with
  | nil => exact ⟨hsound, recounted_start hsound⟩
  | append_singleton calls call ih =>
    rw [run, List.foldl_append]
    have hstep := after_step ih.1 env call
    exact ⟨hstep.sound ih.1, hstep.recounted ih.2⟩

/-! ### An added address -/

/-- After an addition the address has an active membership of the role exactly if nothing stood in the way. -/
theorem hasActive_iff_free (hsound : db.Sound) {organizationId membershipId : Uuid} {roleCode : Text}
    (hbody : call.body = .add organizationId email displayName roleCode userId membershipId)
    (h : perform env db call = .ok result) :
    result.1.HasActive organizationId (normalizedEmail env email) roleCode ↔
      db.Free organizationId (normalizedEmail env email) roleCode := by
  have hstep := perform_step hsound h
  have hlater := hstep.sound hsound
  unfold perform at h
  rw [hbody] at h
  obtain ⟨users, user, role, huser, hrole, hcase⟩ := addMembership_cases h
  obtain ⟨hemail, hmem, husers⟩ := getOrCreateUser_cases huser
  have hgrown := (getOrCreateUser_emails hsound huser).1
  have hone {u : User} (hu : u ∈ users) (he : u.email = normalizedEmail env email) : u = user :=
    (getOrCreateUser_emails hsound huser).2.eq_of_key_eq hu hmem (he.trans hemail.symm)
  rcases hcase with ⟨hfound, horg, huid, hresult⟩ | ⟨hnone, hnew, -, log, -, hresult⟩
  · have hsame {r : Membership} (hr : r ∈ db.memberships) (ho : r.organizationId = organizationId)
        (hu : r.userId = user.id) : r = result.2 :=
      hsound.place_unique.eq_of_key_eq hr hfound (Prod.ext (ho.trans horg.symm) (hu.trans huid.symm))
    have hhad : user ∈ db.users := by
      rcases husers with rfl | ⟨rfl, -, hfresh⟩
      · exact hmem
      · rw [← huid] at hfresh
        exact absurd (hsound.member_user _ hfound) hfresh
    rw [hresult]
    constructor
    · rintro ⟨u, hu, he, r, hr, ho, hru, hactive, hcode⟩ u' hu' he' r' hr' ho' hru'
      obtain rfl := hone hu he
      obtain rfl := hone (hgrown.subset hu') he'
      rw [hsame hr' ho' hru', ← hsame hr ho hru]
      exact ⟨hactive, hcode⟩
    · intro hfree
      obtain ⟨hactive, hcode⟩ := hfree user hhad hemail result.2 hfound horg huid
      exact ⟨user, hmem, hemail, result.2, hfound, horg, huid, hactive, hcode⟩
  · rw [hresult]
    refine iff_of_true ⟨user, hmem, hemail, result.2, by simp, ?_⟩ fun u hu he r hr ho hru => ?_
    · rw [hnew]
      exact ⟨rfl, rfl, rfl, hrole⟩
    · obtain rfl := hone (hgrown.subset hu) he
      exact absurd hru (hnone r hr ho)

/-- The laws of membership administration hold of a history exactly if every addition that returns
met no membership of the address that was inactive or of another role. -/
theorem administered_iff (env : Env) (hsound : start.Sound) (calls : List Call) :
    Administered env start calls ↔ ∀ before call rest, calls = before ++ call :: rest →
      ∀ organizationId email displayName roleCode userId membershipId,
        call.body = .add organizationId email displayName roleCode userId membershipId →
        (∃ result, perform env (run env start before) call = .ok result) →
        (run env start before).Free organizationId (normalizedEmail env email) roleCode := by
  constructor
  · intro h before call rest hcalls organizationId email displayName roleCode userId membershipId hbody ⟨result, hok⟩
    rw [← hasActive_iff_free (run_sound hsound env before).1 hbody hok, ← after_eq hok]
    exact h.effective before call rest hcalls _ _ _ _ _ _ hbody ⟨result, hok⟩
  · intro h
    refine ⟨?_, fun before call rest _ => after_stale, fun before call rest _ => ?_, fun before _ m hm => ?_⟩
    · intro before call rest hcalls organizationId email displayName roleCode userId membershipId hbody ⟨result, hok⟩
      rw [after_eq hok, hasActive_iff_free (run_sound hsound env before).1 hbody hok]
      exact h before call rest hcalls _ _ _ _ _ _ hbody ⟨result, hok⟩
    · have hbefore := (run_sound hsound env before).1
      exact (after_step hbefore env call).accepted hbefore
    · exact (run_sound hsound env before).2.replay hm

/-! ### A history -/

def sampleEnv : Env := ⟨id, fun s => s.map Char.toLower⟩

def sampleCaller : Caller where
  actor := ⟨1, .user, "admin".toList, none, none, []⟩
  request := ⟨7, "hash".toList⟩
  authority := .ok "membership".toList

def sampleStart : Tables := ⟨[], [⟨2, 1, .developer⟩, ⟨3, 1, .viewer⟩], [], .empty⟩

theorem sampleStart_sound : sampleStart.Sound :=
  ⟨List.nodup_nil, List.nodup_nil, List.nodup_nil, fun _ h => nomatch h⟩

def sampleAdd : Call := ⟨sampleCaller, .add 1 " Dev@Example ".toList "Dev".toList "DEVELOPER".toList 10 20⟩

def sampleDeactivate : Call := ⟨{ sampleCaller with request := ⟨8, "hash".toList⟩ }, .deactivate 20 1⟩

theorem administered_iff_added : Administered sampleEnv sampleStart [sampleAdd] := by
  refine (administered_iff sampleEnv sampleStart_sound [sampleAdd]).mpr fun before call rest hcalls => ?_
  intro organizationId email displayName roleCode userId membershipId _ _ user huser
  obtain rfl : before = [] := by
    cases before with
    | nil => rfl
    | cons first before =>
      have hlength := congrArg List.length hcalls
      simp only [List.length_cons, List.length_append, List.length_nil] at hlength
      omega
  cases huser

/-- A deactivated member that is added again is returned as it is, without a membership that is active. -/
theorem added_again_inactive : ¬ Administered sampleEnv sampleStart [sampleAdd, sampleDeactivate, sampleAdd] := by
  intro h
  have hreturns : Succeeds (perform sampleEnv (run sampleEnv sampleStart [sampleAdd, sampleDeactivate]) sampleAdd) := by
    decide +kernel
  obtain ⟨user, -, -, m, hm, -, -, hactive, -⟩ :=
    h.effective [sampleAdd, sampleDeactivate] sampleAdd [] rfl 1 _ _ _ 10 20 rfl hreturns
  have hinactive : ∀ m ∈ (after sampleEnv (run sampleEnv sampleStart [sampleAdd, sampleDeactivate])
      sampleAdd).memberships, m.isActive = false := by
    decide +kernel
  rw [hinactive m hm] at hactive
  cases hactive

end Anva.Tenancy
