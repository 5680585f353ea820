import Anva.Github.Moves

/-! Write dispatch is fenced and accounted in the runs whose steps meet the
condition: the invariant of the tables, of the claims that workers hold and of the
histories, and what one step does to it. -/

namespace Anva.Github

variable {P : Type}

namespace Writes

/-- The end of an attempt: its row, the row of the intent and its event. -/
structure Settles (db : Writes P) (i i' : WriteIntent P) (db' : Writes P) : Prop where
  intents : db'.intents = (db.saveIntent i').intents
  attempts : ∃ outcome code, db'.attempts = db.attempts ++ [⟨i.id, i.attemptCount, outcome, code⟩]
  outbox : ∃ now, db'.outbox = if i'.state.Final then (db.publishEvents now [i.id]).outbox else db.outbox
  same : i'.id = i.id ∧ i'.attemptCount = i.attemptCount ∧ i'.maxAttempts = i.maxAttempts
  next : i'.state.Final ∨ (i'.state = .retry ∧ i.attemptCount < i.maxAttempts)

section

variable {db db' : Writes P} {now now' : Time} {i i' j : WriteIntent P}

theorem recordAttempt_ok {outcome : WriteOutcome} {code : String} (h : db.recordAttempt i outcome code = .ok db') :
    db' = { db with attempts := db.attempts ++ [⟨i.id, i.attemptCount, outcome, code⟩] } ∧
      (i.id, i.attemptCount) ∉ db.attempts.map (·.key) := by
  unfold recordAttempt at h
  dsimp only at h
  split_ifs at h with hmem
  exact ⟨(Raises.pure_eq_ok.mp h).symm, hmem⟩

theorem recordSuccess_settles {externalId : Text} (h : db.recordSuccess now i externalId = .ok db') :
    ∃ i', Settles db i i' db' := by
  unfold recordSuccess at h
  split at h
  · cases h
  · obtain ⟨recorded, hrecorded, h⟩ := Raises.bind_eq_ok.mp h
    obtain ⟨rfl, -⟩ := recordAttempt_ok hrecorded
    rw [← Raises.pure_eq_ok.mp h]
    refine ⟨_, rfl, ⟨_, _, rfl⟩, ⟨now, ?_⟩, ⟨rfl, rfl, rfl⟩, Or.inl ?_⟩
    · exact (if_pos (show WriteState.succeeded.Final by decide)).symm
    · exact show WriteState.succeeded.Final by decide

theorem recordFailure_settles {error : ClientError} {retryAfterSeconds : Option ℤ}
    (h : db.recordFailure now i error retryAfterSeconds = .ok db') : ∃ i', Settles db i i' db' := by
  unfold recordFailure at h
  dsimp only at h
  split_ifs at h with hretry
  · obtain ⟨recorded, hrecorded, h⟩ := Raises.bind_eq_ok.mp h
    obtain ⟨rfl, -⟩ := recordAttempt_ok hrecorded
    rw [← Raises.pure_eq_ok.mp h]
    refine ⟨_, rfl, ⟨_, _, rfl⟩, ⟨now, ?_⟩, ⟨rfl, rfl, rfl⟩, Or.inr ⟨rfl, hretry.2⟩⟩
    exact (if_neg (show ¬ WriteState.retry.Final by decide)).symm
  · obtain ⟨recorded, hrecorded, h⟩ := Raises.bind_eq_ok.mp h
    obtain ⟨rfl, -⟩ := recordAttempt_ok hrecorded
    rw [← Raises.pure_eq_ok.mp h]
    refine ⟨_, rfl, ⟨_, _, rfl⟩, ⟨now, ?_⟩, ⟨rfl, rfl, rfl⟩, Or.inl ?_⟩
    · exact (if_pos (show WriteState.failed.Final by decide)).symm
    · exact show WriteState.failed.Final by decide

theorem cancelClaimed_settles {code : String} (h : db.cancelClaimed now i code = .ok db') :
    Settles db i (cancelled now (some code) i) db' := by
  obtain ⟨recorded, hrecorded, h⟩ := Raises.bind_eq_ok.mp h
  obtain ⟨rfl, -⟩ := recordAttempt_ok hrecorded
  rw [← Raises.pure_eq_ok.mp h]
  refine ⟨rfl, ⟨_, _, rfl⟩, ⟨now, ?_⟩, ⟨rfl, rfl, rfl⟩, Or.inl (cancelled_final _ _ _)⟩
  exact (if_pos (cancelled_final _ _ _)).symm

theorem Settles.mem (h : Settles db i i' db') (hi : i ∈ db.intents) :
    j ∈ db'.intents ↔ j = i' ∨ (j ∈ db.intents ∧ j.id ≠ i.id) := by
  rw [h.intents]
  exact mem_saveIntent hi h.same.1

theorem Settles.length (h : Settles db i i' db') : db'.intents.length = db.intents.length := by
  rw [h.intents]
  exact List.length_map _

theorem Settles.ok (h : Settles db i i' db') (hi : i.Ok now) : i'.Ok now := by
  obtain ⟨-, hcount, hmax⟩ := h.same
  refine ⟨hcount ▸ hmax ▸ hi.bounded, fun hwaiting => ?_, fun hrunning => ?_⟩
  · rw [hcount, hmax]
    rcases h.next with hfinal | hretry
    · rcases hwaiting with hstate | hstate <;> rw [hstate] at hfinal <;> exact absurd hfinal (by decide)
    · exact hretry.2
  · rcases h.next with hfinal | hretry
    · rw [hrunning] at hfinal
      exact absurd hfinal (by decide)
    · rw [hrunning] at hretry
      cases hretry.1

theorem Settles.event (h : Settles db i i' db') {e : OutboxEvent} (he : e ∈ db'.outbox) :
    ∃ old ∈ db.outbox, e.aggregateId = old.aggregateId ∧
      (e.publishedAt ≠ none ↔ old.publishedAt ≠ none ∨ (old.aggregateId = i.id ∧ i'.state.Final)) := by
  obtain ⟨now, houtbox⟩ := h.outbox
  rw [houtbox] at he
  split_ifs at he with hfinal
  · obtain ⟨old, hold, hid, hpublished⟩ := mem_publishEvents he
    refine ⟨old, hold, hid, ?_⟩
    rw [hpublished, List.mem_singleton]
    exact or_congr_right (and_iff_left hfinal).symm
  · exact ⟨e, he, rfl, (or_iff_left fun hboth => hfinal hboth.2).symm⟩

theorem Settles.sound (h : Settles db i i' db') (hdb : db.Sound now) (hi : i ∈ db.intents)
    (hkey : (i.id, i.attemptCount) ∉ db.attempts.map (·.key)) (hkeeps : i.state.Final → i'.state.Final) :
    db'.Sound now where
  ids := by
    rw [h.length, ← hdb.ids, h.intents]
    exact Table.map_key_replace
  rows := by
    intro j hj
    rcases (h.mem hi).mp hj with rfl | ⟨hj, -⟩
    · exact h.ok (hdb.rows i hi)
    · exact hdb.rows j hj
  keys := by
    obtain ⟨outcome, code, hattempts⟩ := h.attempts
    rw [hattempts, List.map_append, List.map_singleton]
    refine List.nodup_append'.mpr ⟨hdb.keys, List.nodup_singleton _, fun k hk hk' => hkey ?_⟩
    rw [List.mem_singleton.mp hk'] at hk
    exact hk
  attempted := by
    obtain ⟨outcome, code, hattempts⟩ := h.attempts
    rw [hattempts]
    intro a ha
    rcases List.mem_append.mp ha with ha | ha
    · obtain ⟨j, hj, hid, hle⟩ := hdb.attempted a ha
      by_cases hsame : j.id = i.id
      · obtain rfl := hdb.unique.eq_of_key_eq hj hi hsame
        exact ⟨i', (h.mem hi).mpr (Or.inl rfl), h.same.1.trans hid, h.same.2.1 ▸ hle⟩
      · exact ⟨j, (h.mem hi).mpr (Or.inr ⟨hj, hsame⟩), hid, hle⟩
    · rw [List.mem_singleton.mp ha]
      exact ⟨i', (h.mem hi).mpr (Or.inl rfl), h.same.1, h.same.2.1.ge⟩
  known := by
    intro e he
    obtain ⟨old, hold, hid, -⟩ := h.event he
    rw [h.length, hid]
    exact hdb.known old hold
  events := by
    intro j hj
    obtain ⟨now, houtbox⟩ := h.outbox
    have hold : ∃ e ∈ db.outbox, e.aggregateId = j.id := by
      rcases (h.mem hi).mp hj with rfl | ⟨hj, -⟩
      · rw [h.same.1]
        exact hdb.events i hi
      · exact hdb.events j hj
    obtain ⟨e, he, hid⟩ := hold
    rw [houtbox]
    split_ifs
    · obtain ⟨e', he', hid'⟩ : ∃ e' ∈ (db.publishEvents now [i.id]).outbox, e'.aggregateId = e.aggregateId :=
        exists_publishEvents he
      exact ⟨e', he', hid'.trans hid⟩
    · exact ⟨e, he, hid⟩
  published := by
    intro j hj e he hid
    obtain ⟨old, hold, hid', hpublished⟩ := h.event he
    rw [hid'] at hid
    rw [hpublished]
    rcases (h.mem hi).mp hj with rfl | ⟨hj, hother⟩
    · rw [h.same.1] at hid
      rw [hdb.published i hi old hold hid]
      exact ⟨fun hor => hor.elim hkeeps And.right, fun hfinal => Or.inr ⟨hid, hfinal⟩⟩
    · rw [hdb.published j hj old hold hid]
      exact or_iff_left fun hboth => hother (hid.symm.trans hboth.1)

theorem claimed_sound {worker : ℕ} (hdb : db.Sound now) (hi : i ∈ db.intents) (heligible : i.Eligible now) :
    (db.saveIntent (i.claimed now worker)).Sound now := by
  have hmem {j : WriteIntent P} : j ∈ (db.saveIntent (i.claimed now worker)).intents ↔
      j = i.claimed now worker ∨ (j ∈ db.intents ∧ j.id ≠ i.id) := mem_saveIntent hi rfl
  have hopen : ¬ i.state.Final := by
    rcases heligible.1 with ⟨h | h, -⟩ | ⟨h, -⟩ <;> rw [h] <;> decide
  refine ⟨?_, fun j hj => ?_, hdb.keys, fun a ha => ?_, ?_, fun j hj => ?_, fun j hj e he hid => ?_⟩
  · change (Table.replace (·.id) db.intents _).map (·.id) = List.range (List.length (List.map _ _))
    rw [Table.map_key_replace, List.length_map, hdb.ids]
  · rcases hmem.mp hj with rfl | ⟨hj, -⟩
    · refine ⟨heligible.2, fun h => h.elim (fun h => nomatch h) (fun h => nomatch h), fun _ => ⟨_, rfl, fun _ => ?_⟩⟩
      exact lt_add_of_pos_right now (by decide)
    · exact hdb.rows j hj
  · obtain ⟨j, hj, hid, hle⟩ := hdb.attempted a ha
    by_cases hsame : j.id = i.id
    · obtain rfl := hdb.unique.eq_of_key_eq hj hi hsame
      exact ⟨_, hmem.mpr (Or.inl rfl), hid, hle.trans (Nat.le_succ _)⟩
    · exact ⟨j, hmem.mpr (Or.inr ⟨hj, hsame⟩), hid, hle⟩
  · change ∀ e ∈ db.outbox, e.aggregateId < List.length (List.map _ _)
    rw [List.length_map]
    exact hdb.known
  · rcases hmem.mp hj with rfl | ⟨hj, -⟩
    · exact hdb.events i hi
    · exact hdb.events j hj
  · rcases hmem.mp hj with rfl | ⟨hj, -⟩
    · rw [hdb.published i hi e he hid]
      exact iff_of_false hopen (show ¬ WriteState.running.Final by decide)
    · exact hdb.published j hj e he hid

end

end Writes

/-! ### The invariant -/

/-- The claim of a worker: the row is as it left it, or was cancelled since, or its
lease has run out and the row was claimed again. -/
structure Claim.Ok (w : Dispatchers P) (worker : ℕ) (c : Claim) : Prop where
  unrecorded : (c.intentId, c.attempt) ∉ w.db.attempts.map (·.key)
  row : ∃ i ∈ w.db.intents, i.id = c.intentId ∧
    ((i.attemptCount = c.attempt ∧ ((i.state = .running ∧ i.leaseOwner = some worker ∧
        i.leaseExpiresAt = some c.expiresAt) ∨ i.state = .cancelled)) ∨
      (c.attempt < i.attemptCount ∧ c.expiresAt ≤ w.now))

structure Dispatchers.Inv (w : Dispatchers P) : Prop where
  sound : w.db.Sound w.now
  claims : ∀ worker c, w.claims worker = some c → c.Ok w worker
  distinct : ∀ worker worker' c c', w.claims worker = some c → w.claims worker' = some c' →
    c.intentId = c'.intentId → c.attempt = c'.attempt → worker = worker'
  finished : ∀ f ∈ w.finished, f ∈ w.db.attempts.map (·.key)
  fenced : ∀ x ∈ w.performed, x.intent.state = .running ∧ x.intent.leaseOwner = some x.worker ∧
    ∃ expiresAt, x.intent.leaseExpiresAt = some expiresAt ∧ x.at' < expiresAt

section

variable {contentHash : P → Text} {w w' : Dispatchers P} {action : DispatchAction P} {worker : ℕ} {c : Claim}
  {db : Writes P} {i j : WriteIntent P}

theorem Dispatchers.Inv.accounted (h : w.Inv) : Accounted w where
  fenced := h.fenced
  attempts := by
    intro f hf
    obtain ⟨a, ha, rfl⟩ := List.mem_map.mp (h.finished f hf)
    have hcount := List.count_eq_one_of_mem h.sound.keys (List.mem_map_of_mem (f := fun a => a.key) ha)
    rw [List.count_eq_countP, List.countP_map, List.countP_eq_length_filter] at hcount
    rw [← hcount]
    congr 1
    exact List.filter_congr fun b _ => (beq_eq_decide _ _).symm
  bounded := fun i hi => (h.sound.rows i hi).bounded
  claimable := by
    intro i hi hdue
    have hrow := h.sound.rows i hi
    rcases hdue with ⟨hwaiting, hle⟩ | ⟨hrunning, hle⟩
    · exact ⟨Or.inl ⟨hwaiting, hle⟩, hrow.waiting hwaiting⟩
    · obtain ⟨expiresAt, hlease, hlast⟩ := hrow.leased hrunning
      have hpast := hle expiresAt hlease
      refine ⟨Or.inr ⟨hrunning, expiresAt, hlease, hpast⟩, lt_of_le_of_ne hrow.bounded fun heq => ?_⟩
      exact absurd (hlast heq) (not_lt.mpr hpast)
  events := h.sound.events
  published := h.sound.published

theorem Claim.Ok.moves (h : c.Ok w worker) (hmoves : w.db.Moves db) : c.Ok { w with db := db } worker := by
  obtain ⟨i, hi, hid, hrow⟩ := h.row
  obtain ⟨j, hj, hceases⟩ := hmoves.ceases hi
  refine ⟨hmoves.attempts ▸ h.unrecorded, j, hj, hceases.id.trans hid, ?_⟩
  rw [hceases.attemptCount]
  refine hrow.imp_left (And.imp_right fun hstate => ?_)
  rcases hceases with rfl | ⟨-, _, _, rfl⟩
  · exact hstate
  · exact Or.inr rfl

theorem Dispatchers.Inv.moves (h : w.Inv) (hmoves : w.db.Moves db) : ({ w with db := db } : Dispatchers P).Inv where
  sound := hmoves.sound h.sound
  claims := fun worker c hc => (h.claims worker c hc).moves hmoves
  distinct := h.distinct
  finished := fun f hf => hmoves.attempts ▸ h.finished f hf
  fenced := h.fenced

theorem Dispatchers.Inv.release (h : w.Inv) (worker : ℕ) : (w.setClaim worker none).Inv := by
  have hold {worker' : ℕ} {c : Claim} (hc : Function.update w.claims worker none worker' = some c) :
      w.claims worker' = some c := by
    by_cases hsame : worker' = worker
    · rw [hsame, Function.update_self] at hc
      cases hc
    · rwa [Function.update_of_ne hsame] at hc
  refine ⟨h.sound, fun worker' c hc => ?_, fun _ _ c c' hc hc' => h.distinct _ _ c c' (hold hc) (hold hc'),
    h.finished, h.fenced⟩
  obtain ⟨hunrecorded, hrow⟩ := h.claims worker' c (hold hc)
  exact ⟨hunrecorded, hrow⟩

theorem Dispatchers.Inv.perform (h : w.Inv) (x : PerformedWrite P) (hx : x.intent.state = .running ∧
    x.intent.leaseOwner = some x.worker ∧ ∃ expiresAt, x.intent.leaseExpiresAt = some expiresAt ∧ x.at' < expiresAt) :
    ({ w with performed := w.performed ++ [x] } : Dispatchers P).Inv where
  sound := h.sound
  claims := fun worker c hc => ⟨(h.claims worker c hc).unrecorded, (h.claims worker c hc).row⟩
  distinct := h.distinct
  finished := h.finished
  fenced := by
    intro y hy
    rcases List.mem_append.mp hy with hy | hy
    · exact h.fenced y hy
    · rw [List.mem_singleton.mp hy]
      exact hx

theorem Dispatchers.Inv.tick {now : Time} (h : w.Inv) (hle : w.now ≤ now)
    (hmeets : DispatchAction.Meets w (.tick now)) : ({ w with now := now } : Dispatchers P).Inv where
  sound := { h.sound with
    rows := by
      intro i hi
      have hrow := h.sound.rows i hi
      refine ⟨hrow.bounded, hrow.waiting, fun hrunning => ?_⟩
      obtain ⟨expiresAt, hlease, -⟩ := hrow.leased hrunning
      exact ⟨expiresAt, hlease, fun hlast => hmeets i hi hrunning hlast expiresAt hlease⟩ }
  claims := by
    intro worker c hc
    obtain ⟨hunrecorded, i, hi, hid, hrow⟩ := h.claims worker c hc
    exact ⟨hunrecorded, i, hi, hid, hrow.imp_right (And.imp_right fun hpast => hpast.trans hle)⟩
  distinct := h.distinct
  finished := h.finished
  fenced := h.fenced

theorem Dispatchers.Inv.claim {intentId : ℕ} (h : w.Inv) (hstep : w.claim worker intentId = some w') :
    w'.Inv ∧ w.db.intent intentId ≠ none := by
  unfold Dispatchers.claim at hstep
  split at hstep
  · rename_i i hnone hfind
    split_ifs at hstep with heligible
    obtain ⟨hi, hid⟩ := h.sound.intent_eq.mp hfind
    rw [← Option.some.inj hstep]
    have hmem {j : WriteIntent P} : j ∈ (w.db.saveIntent (i.claimed w.now worker)).intents ↔
        j = i.claimed w.now worker ∨ (j ∈ w.db.intents ∧ j.id ≠ i.id) := Writes.mem_saveIntent hi rfl
    have hbelow {worker' : ℕ} {c : Claim} (hc : w.claims worker' = some c) (hsame : c.intentId = i.id) :
        c.attempt ≤ i.attemptCount ∧ c.expiresAt ≤ w.now := by
      obtain ⟨-, j, hj, hjd, hrow⟩ := h.claims worker' c hc
      obtain rfl := h.sound.unique.eq_of_key_eq hj hi (hjd.trans hsame)
      rcases hrow with ⟨hcount, ⟨hrunning, -, hlease⟩ | hcancelled⟩ | ⟨hlt, hpast⟩
      · refine ⟨hcount.ge, ?_⟩
        rcases heligible.1 with ⟨hstate | hstate, -⟩ | ⟨-, expiresAt, hlease', hpast⟩
        · rw [hrunning] at hstate; cases hstate
        · rw [hrunning] at hstate; cases hstate
        · rw [hlease] at hlease'
          rw [Option.some.inj hlease']
          exact hpast
      · rcases heligible.1 with ⟨hstate | hstate, -⟩ | ⟨hstate, -⟩ <;> rw [hcancelled] at hstate <;> cases hstate
      · exact ⟨hlt.le, hpast⟩
    have hold {worker' : ℕ} {c : Claim}
        (hc : Function.update w.claims worker (some ⟨intentId, i.attemptCount + 1, w.now,
          w.now + seconds writeLeaseSeconds⟩) worker' = some c) :
        (worker' = worker ∧ c = ⟨intentId, i.attemptCount + 1, w.now, w.now + seconds writeLeaseSeconds⟩) ∨
          w.claims worker' = some c := by
      by_cases hsame : worker' = worker
      · rw [hsame, Function.update_self] at hc
        exact Or.inl ⟨hsame, (Option.some.inj hc).symm⟩
      · rw [Function.update_of_ne hsame] at hc
        exact Or.inr hc
    refine ⟨⟨Writes.claimed_sound h.sound hi heligible, fun worker' c hc => ?_, fun worker₁ worker₂ c₁ c₂ hc₁ hc₂ hintent
      hattempt => ?_, h.finished, h.fenced⟩, fun hnot => nomatch hfind.symm.trans hnot⟩
    · rcases hold hc with ⟨rfl, rfl⟩ | hc
      · refine ⟨fun hkey => ?_, _, hmem.mpr (Or.inl rfl), hid, Or.inl ⟨rfl, Or.inl ⟨rfl, rfl, rfl⟩⟩⟩
        obtain ⟨a, ha, hkey⟩ := List.mem_map.mp hkey
        obtain ⟨j, hj, hjd, hle⟩ := h.sound.attempted a ha
        have hja : j.id = i.id := hjd.trans ((congrArg Prod.fst hkey).trans hid.symm)
        obtain rfl := h.sound.unique.eq_of_key_eq hj hi hja
        have hcount : a.attempt = j.attemptCount + 1 := congrArg Prod.snd hkey
        omega
      · obtain ⟨hunrecorded, j, hj, hjd, hrow⟩ := h.claims worker' c hc
        refine ⟨hunrecorded, ?_⟩
        by_cases hsame : j.id = i.id
        · obtain ⟨hle, hpast⟩ := hbelow hc (hjd.symm.trans hsame)
          refine ⟨_, hmem.mpr (Or.inl rfl), hsame.symm.trans hjd, Or.inr ⟨?_, hpast⟩⟩
          exact Nat.lt_succ_of_le hle
        · exact ⟨j, hmem.mpr (Or.inr ⟨hj, hsame⟩), hjd, hrow⟩
    · rcases hold hc₁ with ⟨hworker₁, heq₁⟩ | hold₁
      · rcases hold hc₂ with ⟨hworker₂, -⟩ | hold₂
        · exact hworker₁.trans hworker₂.symm
        · rw [heq₁] at hintent hattempt
          have hle := (hbelow hold₂ (hintent.symm.trans hid.symm)).1
          dsimp only at hattempt
          omega
      · rcases hold hc₂ with ⟨-, heq₂⟩ | hold₂
        · rw [heq₂] at hintent hattempt
          have hle := (hbelow hold₁ (hintent.trans hid.symm)).1
          dsimp only at hattempt
          omega
        · exact h.distinct worker₁ worker₂ c₁ c₂ hold₁ hold₂ hintent hattempt
  · cases hstep

/-- A claim that still holds is of a running intent, or of one that was cancelled
and is not written. -/
theorem Dispatchers.Inv.holds (h : w.Inv) (hc : w.claims worker = some c) (hholds : c.Holds w)
    (hfind : w.db.intent c.intentId = some i) : i.attemptCount = c.attempt ∧
      ((i.state = .running ∧ i.leaseOwner = some worker ∧ i.leaseExpiresAt = some c.expiresAt) ∨
        (i.state = .cancelled ∧ w.db.cancellationCode w.env i ≠ .ok "")) := by
  obtain ⟨hi, hid⟩ := h.sound.intent_eq.mp hfind
  obtain ⟨-, j, hj, hjd, hrow⟩ := h.claims worker c hc
  obtain rfl := h.sound.unique.eq_of_key_eq hj hi (hjd.trans hid.symm)
  rcases hrow with ⟨hcount, hrunning | hcancelled⟩ | ⟨-, hpast⟩
  · exact ⟨hcount, Or.inl hrunning⟩
  · exact ⟨hcount, Or.inr ⟨hcancelled, hholds.2 j hfind hcancelled⟩⟩
  · exact absurd hholds.1 (not_lt.mpr hpast)

theorem Dispatchers.Inv.settle {i' : WriteIntent P} (h : w.Inv) (hc : w.claims worker = some c)
    (hfind : w.db.intent c.intentId = some i) (hcount : i.attemptCount = c.attempt)
    (hsettles : w.db.Settles i i' db) (hkeeps : i.state.Final → i'.state.Final) :
    ({ w.setClaim worker none with
        db := db, finished := w.finished ++ [(c.intentId, c.attempt)] } : Dispatchers P).Inv := by
  obtain ⟨hi, hid⟩ := h.sound.intent_eq.mp hfind
  have hkey : (i.id, i.attemptCount) = (c.intentId, c.attempt) := by rw [hid, hcount]
  have hold {worker' : ℕ} {c' : Claim} (hc' : Function.update w.claims worker none worker' = some c') :
      worker' ≠ worker ∧ w.claims worker' = some c' := by
    by_cases hsame : worker' = worker
    · rw [hsame, Function.update_self] at hc'
      cases hc'
    · rw [Function.update_of_ne hsame] at hc'
      exact ⟨hsame, hc'⟩
  have hapart {worker' : ℕ} {c' : Claim} (hc' : Function.update w.claims worker none worker' = some c')
      (hintent : c'.intentId = c.intentId) : c'.attempt ≠ c.attempt := fun hattempt =>
    (hold hc').1 (h.distinct worker' worker c' c (hold hc').2 hc hintent hattempt)
  obtain ⟨outcome, code, hattempts⟩ := hsettles.attempts
  refine ⟨hsettles.sound h.sound hi (hkey ▸ (h.claims worker c hc).unrecorded) hkeeps, fun worker' c' hc' => ?_,
    fun _ _ c₁ c₂ hc₁ hc₂ => h.distinct _ _ c₁ c₂ (hold hc₁).2 (hold hc₂).2, fun f hf => ?_, h.fenced⟩
  · obtain ⟨hunrecorded, j, hj, hjd, hrow⟩ := h.claims worker' c' (hold hc').2
    refine ⟨fun hmem => ?_, ?_⟩
    · dsimp only at hmem
      rw [hattempts, List.map_append, List.map_singleton] at hmem
      rcases List.mem_append.mp hmem with hmem | hmem
      · exact hunrecorded hmem
      · have hsame := (List.mem_singleton.mp hmem).trans hkey
        exact hapart hc' (congrArg Prod.fst hsame) (congrArg Prod.snd hsame)
    · by_cases hsame : j.id = i.id
      · obtain rfl := h.sound.unique.eq_of_key_eq hj hi hsame
        refine ⟨i', (hsettles.mem hi).mpr (Or.inl rfl), hsettles.same.1.trans hjd, ?_⟩
        rcases hrow with ⟨hattempt, -⟩ | hpast
        · exact absurd (hattempt.symm.trans hcount) (hapart hc' (hjd.symm.trans hid))
        · rw [hsettles.same.2.1]
          exact Or.inr hpast
      · exact ⟨j, (hsettles.mem hi).mpr (Or.inr ⟨hj, hsame⟩), hjd, hrow⟩
  · dsimp only
    rw [hattempts, List.map_append, List.map_singleton]
    rcases List.mem_append.mp hf with hf | hf
    · exact List.mem_append_left _ (h.finished f hf)
    · rw [List.mem_singleton.mp hf, ← hkey]
      exact List.mem_append_right _ (List.mem_singleton_self _)

/-- Intents that are over stay as they are. -/
def KeepsFinal (db db' : Writes P) : Prop :=
  ∀ i ∈ db.intents, i.state.Final → ∃ j ∈ db'.intents, j.id = i.id ∧ j.state = i.state

theorem KeepsFinal.refl (db : Writes P) : KeepsFinal db db := fun i hi _ => ⟨i, hi, rfl, rfl⟩

theorem KeepsFinal.trans {db' db'' : Writes P} (h : KeepsFinal db db') (h' : KeepsFinal db' db'') :
    KeepsFinal db db'' := by
  intro i hi hfinal
  obtain ⟨j, hj, hid, hstate⟩ := h i hi hfinal
  obtain ⟨k, hk, hid', hstate'⟩ := h' j hj (hstate ▸ hfinal)
  exact ⟨k, hk, hid'.trans hid, hstate'.trans hstate⟩

theorem Writes.Moves.keepsFinal {db' : Writes P} (h : db.Moves db') : KeepsFinal db db' := by
  intro i hi hfinal
  obtain ⟨j, hj, hceases⟩ := h.ceases hi
  refine ⟨j, hj, hceases.id, ?_⟩
  rcases hceases with rfl | ⟨hopen, -⟩
  · rfl
  · exact absurd hfinal hopen

theorem keepsFinal_save {i' : WriteIntent P} {db' : Writes P}
    (hmem : ∀ j, j ∈ db'.intents ↔ j = i' ∨ (j ∈ db.intents ∧ j.id ≠ i.id)) (hid : i'.id = i.id)
    (hunique : Table.UniqueBy (·.id) db.intents) (hi : i ∈ db.intents) (hstate : i.state.Final → i'.state = i.state) :
    KeepsFinal db db' := by
  intro j hj hfinal
  by_cases hsame : j.id = i.id
  · obtain rfl := hunique.eq_of_key_eq hj hi hsame
    exact ⟨i', (hmem i').mpr (Or.inl rfl), hid, hstate hfinal⟩
  · exact ⟨j, (hmem j).mpr (Or.inr ⟨hj, hsame⟩), rfl, rfl⟩

theorem Dispatchers.Inv.dispatch {reply : ProviderReply} (h : w.Inv)
    (hmeets : DispatchAction.Meets w (.dispatch worker reply)) (hstep : w.dispatch worker reply = some w') :
    w'.Inv ∧ KeepsFinal w.db w'.db := by
  unfold Dispatchers.dispatch at hstep
  split at hstep
  · cases hstep
  rename_i c hc
  split at hstep
  · cases hstep
  rename_i i hfind
  obtain ⟨hi, hid⟩ := h.sound.intent_eq.mp hfind
  obtain ⟨hcount, hstate⟩ := h.holds hc (hmeets c hc) hfind
  split at hstep
  · rw [← Option.some.inj hstep]
    exact ⟨h.release worker, .refl _⟩
  rename_i code hcode
  dsimp only at hstep
  by_cases hwrite : code = ""
  · -- the provider is called for a running intent whose lease has not run out
    rw [if_pos hwrite, if_pos hwrite] at hstep
    obtain ⟨hrunning, howner, hlease⟩ := hstate.resolve_right fun hcancelled => hcancelled.2 (hwrite ▸ hcode)
    have hopen : ¬ i.state.Final := by
      rw [hrunning]
      decide
    have hfenced := h.perform ⟨worker, w.now, i⟩ ⟨hrunning, howner, c.expiresAt, hlease, (hmeets c hc).1⟩
    split at hstep
    · rename_i db hrecord
      obtain ⟨i', hsettles⟩ : ∃ i', w.db.Settles i i' db := by
        cases reply with
        | written externalId => exact Writes.recordSuccess_settles hrecord
        | failed error retryAfterSeconds => exact Writes.recordFailure_settles hrecord
      rw [← Option.some.inj hstep]
      refine ⟨hfenced.settle hc hfind hcount hsettles fun hfinal => absurd hfinal hopen, ?_⟩
      exact keepsFinal_save (fun _ => hsettles.mem hi) hsettles.same.1 h.sound.unique hi fun hfinal => absurd hfinal hopen
    · rw [← Option.some.inj hstep]
      exact ⟨hfenced.release worker, .refl _⟩
  · rw [if_neg hwrite, if_neg hwrite] at hstep
    split at hstep
    · rename_i db hcancel
      have hsettles := Writes.cancelClaimed_settles hcancel
      rw [← Option.some.inj hstep]
      refine ⟨h.settle hc hfind hcount hsettles fun _ => Writes.cancelled_final _ _ _, ?_⟩
      refine keepsFinal_save (fun _ => hsettles.mem hi) hsettles.same.1 h.sound.unique hi fun hfinal => ?_
      rcases hstate with ⟨hrunning, -⟩ | ⟨hcancelled, -⟩
      · rw [hrunning] at hfinal
        exact absurd hfinal (by decide)
      · exact hcancelled.symm
    · rw [← Option.some.inj hstep]
      exact ⟨h.release worker, .refl _⟩

theorem Dispatchers.Inv.lose (h : w.Inv) (hmeets : DispatchAction.Meets w (.lose worker))
    (hstep : w.lose worker = some w') : w'.Inv ∧ KeepsFinal w.db w'.db := by
  unfold Dispatchers.lose at hstep
  split at hstep
  · cases hstep
  rename_i c hc
  split at hstep
  · cases hstep
  rename_i i hfind
  split_ifs at hstep with hcode
  obtain ⟨-, hstate⟩ := h.holds hc (hmeets c hc) hfind
  obtain ⟨hrunning, howner, hlease⟩ := hstate.resolve_right fun hcancelled => hcancelled.2 hcode
  have hfenced := h.perform ⟨worker, w.now, i⟩ ⟨hrunning, howner, c.expiresAt, hlease, (hmeets c hc).1⟩
  rw [← Option.some.inj hstep]
  exact ⟨hfenced.release worker, .refl _⟩

theorem DispatchStep.inv (h : w.Inv) (hstep : DispatchStep contentHash w action w') (hmeets : action.Meets w) :
    w'.Inv ∧ KeepsFinal w.db w'.db := by
  cases action with
  | tick now =>
    unfold DispatchStep Dispatchers.next at hstep
    dsimp only at hstep
    split_ifs at hstep with hle
    rw [← Option.some.inj hstep]
    exact ⟨h.tick hle hmeets, .refl _⟩
  | govern env =>
    rw [← Option.some.inj hstep]
    refine ⟨⟨h.sound, fun worker c hc => ?_, h.distinct, h.finished, h.fenced⟩, .refl _⟩
    exact ⟨(h.claims worker c hc).unrecorded, (h.claims worker c hc).row⟩
  | queue runId rendered =>
    unfold DispatchStep Dispatchers.next at hstep
    dsimp only at hstep
    split at hstep
    · rename_i hqueue
      rw [← Option.some.inj hstep]
      have hmoves := Writes.queue_moves hqueue
      exact ⟨h.moves hmoves, hmoves.keepsFinal⟩
    · cases hstep
  | stopBinding repositoryId errorCode =>
    rw [← Option.some.inj hstep]
    have hmoves := Writes.stopBinding_moves w.db w.now repositoryId errorCode
    exact ⟨h.moves hmoves, hmoves.keepsFinal⟩
  | claim worker intentId =>
    have hclaim : w.claim worker intentId = some w' := hstep
    refine ⟨(h.claim hclaim).1, ?_⟩
    unfold Dispatchers.claim at hclaim
    split at hclaim
    · rename_i i hnone hfind
      split_ifs at hclaim with heligible
      obtain ⟨hi, -⟩ := h.sound.intent_eq.mp hfind
      rw [← Option.some.inj hclaim]
      refine keepsFinal_save (fun _ => Writes.mem_saveIntent hi rfl) rfl h.sound.unique hi fun hfinal => ?_
      rcases heligible.1 with ⟨hstate | hstate, -⟩ | ⟨hstate, -⟩ <;> rw [hstate] at hfinal <;>
        exact absurd hfinal (by decide)
    · cases hclaim
  | dispatch worker reply => exact h.dispatch hmeets hstep
  | lose worker => exact h.lose hmeets hstep
  | crash worker =>
    rw [← Option.some.inj hstep]
    exact ⟨h.release worker, .refl _⟩

def MeetingStep (contentHash : P → Text) (w : Dispatchers P) (action : DispatchAction P) (w' : Dispatchers P) : Prop :=
  DispatchStep contentHash w action w' ∧ action.Meets w

theorem start_inv (now : Time) (env : Authority) : (Dispatchers.start now env : Dispatchers P).Inv where
  sound := ⟨rfl, fun _ h => absurd h List.not_mem_nil, List.nodup_nil, fun _ h => absurd h List.not_mem_nil,
    fun _ h => absurd h List.not_mem_nil, fun _ h => absurd h List.not_mem_nil, fun _ h => absurd h List.not_mem_nil⟩
  claims := fun _ _ h => Option.noConfusion rfl (heq_of_eq h)
  distinct := fun _ _ _ _ h => Option.noConfusion rfl (heq_of_eq h)
  finished := fun _ h => absurd h List.not_mem_nil
  fenced := fun _ h => absurd h List.not_mem_nil

/-- Dispatch is fenced and accounted in every state of a run whose steps meet the
condition, and what is over by then stays as it is. -/
theorem dispatch_accounted {now : Time} {env : Authority} {actions later : List (DispatchAction P)}
    (h : Transition.Run (MeetingStep contentHash) (.start now env) actions w)
    (hlater : Transition.Run (MeetingStep contentHash) w later w') : Accounted w ∧ KeepsFinal w.db w'.db := by
  have hinv := h.invariant (fun _ _ _ hs hstep => (hstep.1.inv hs hstep.2).1) (start_inv now env)
  refine ⟨hinv.accounted, ?_⟩
  have htrans (a b c : Dispatchers P) (hab : KeepsFinal a.db b.db) (hbc : KeepsFinal b.db c.db) :
      KeepsFinal a.db c.db := hab.trans hbc
  exact hlater.preorder (R := fun s t => KeepsFinal s.db t.db) (fun _ _ _ hs hstep => (hstep.1.inv hs hstep.2).1)
    (fun s => .refl s.db) htrans (fun _ _ _ hs hstep => (hstep.1.inv hs hstep.2).2) hinv

end

namespace Sample

/-- A completed run with a report, on a binding that may be written for. -/
def authority : Authority where
  installations := [⟨1, .active, true⟩]
  bindings := [⟨1, 1, true, false⟩]
  activeRepositories := [1]
  pullRequests := [⟨⟨1, 7⟩, ['a']⟩]
  runs := [⟨1, some ⟨1, 7⟩, ['a'], ['a'], ['a'], .completed, some 0, 0⟩]
  reports := [1]
  suspensions := []

def idle : Dispatchers Text := .start 1 authority

/-- One worker queues the check and the comment, and writes the first. -/
def written : List (DispatchAction Text) :=
  [.queue 1 (.ok fun _ => ['p']), .claim 1 0, .dispatch 1 (.written ['7'])]

/-- The lease of the first worker runs out, a second one writes, and then the first. -/
def overtaken : List (DispatchAction Text) :=
  [.queue 1 (.ok fun _ => ['p']), .claim 1 0, .tick (seconds 200), .claim 2 0, .dispatch 2 (.written ['7']),
    .dispatch 1 (.written ['8'])]

def meetingNext (w : Dispatchers Text) (action : DispatchAction Text) : Option (Dispatchers Text) :=
  if action.Meets w then w.next id action else none

def writtenOnce : Dispatchers Text := (Transition.replay meetingNext idle written).getD idle

def writtenTwice : Dispatchers Text := (Transition.replay (Dispatchers.next id) idle overtaken).getD idle

theorem written_runs : Transition.Run (MeetingStep id) idle written writtenOnce := by
  refine (Transition.run_of_replay_isSome (by decide +kernel) idle).mono fun s action t h => ?_
  unfold meetingNext at h
  split_ifs at h with hmeets
  exact ⟨h, hmeets⟩

theorem overtaken_runs : Transition.Run (DispatchStep id) idle overtaken writtenTwice :=
  Transition.run_of_replay_isSome (by decide +kernel) idle

end Sample

theorem dispatch_accounted_written : Accounted Sample.writtenOnce ∧ KeepsFinal Sample.writtenOnce.db Sample.writtenOnce.db :=
  dispatch_accounted Sample.written_runs (.nil _)

/-- A worker whose lease has run out writes once more, and the intent was over. -/
theorem dispatch_unfenced : Transition.Run (DispatchStep id) Sample.idle Sample.overtaken Sample.writtenTwice ∧
    ¬ Accounted Sample.writtenTwice := by
  refine ⟨Sample.overtaken_runs, fun h => ?_⟩
  have hany : Sample.writtenTwice.performed.any (fun x => x.intent.state ≠ .running) = true := by decide +kernel
  obtain ⟨x, hx, hstate⟩ := List.any_eq_true.mp hany
  exact of_decide_eq_true hstate (h.fenced x hx).1

end Anva.Github
