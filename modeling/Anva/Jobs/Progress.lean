import Anva.Jobs.Invariant

/-! No job is stranded: a claim by a worker in good order succeeds in every
reachable queue, takes a candidate when there is one, and takes a hundred off the
jobs whose last lease has run out until none of them is left. -/

namespace Anva.Jobs

open Access

section

variable {env : Env} {s s' : Store} {w w' : World} {j j' : BackgroundJob} {now : Time}

/-! ### A claim that goes through -/

/-- A claim whose worker can be recorded, with fresh request identifiers. -/
structure ValidClaim (env : Env) (s : Store) (request : ClaimRequest) (scan : Scan) : Prop where
  worker : isBlank request.workerId = false
  lease : 1 ≤ request.leaseSeconds
  inRange : env.now + 1000000 * request.leaseSeconds ≤ maxTime
  fits : fitsColumn 200 request.workerId = true
  clean : ∀ text ∈ [request.workerId, "internal:job-claim".toList, leaseExpiredError],
    env.redactText text = text
  reapFresh : ∀ e ∈ s.events.auditEvents, ∀ id, e.actor.requestId ≠ scan.reapRequestId id
  claimFresh : ∀ e ∈ s.events.auditEvents, e.actor.requestId ≠ scan.claimRequestId

theorem ValidClaim.recordable {request : ClaimRequest} {scan : Scan} (h : ValidClaim env s request scan)
    (requestId : Uuid) : (claimActor request.workerId requestId).Recordable env.redactText where
  cleanId := h.clean request.workerId (by simp)
  cleanPath := h.clean "internal:job-claim".toList (by simp)
  fitsType := (by decide : fitsColumn 50 ActorType.service.value = true)
  fitsId := h.fits
  fitsPath := (by decide : fitsColumn 500 "internal:job-claim".toList = true)
  fitsAddress := (by decide : fitsColumn 64 [] = true)

/-- No transition of the job was recorded under the request. -/
def Unused (log : EventLog) (requestId jobId : Uuid) : Prop :=
  ∀ e ∈ log.auditEvents, e.targetId = jobId → e.actor.requestId ≠ requestId

theorem saveTransition_succeeds (hs : Valid s) (hj : j ∈ s.jobs) (hchange : Change now j j')
    (hcheck : checkJob j' = .ok ()) {actor : EventActor} (hactor : actor.Recordable env.redactText)
    {metadata : List (AuditKey × Text)}
    (hmetadata : ∀ e ∈ metadata, env.redactText e.2 = e.2 ∧ Char.ofNat 0 ∉ e.2)
    (hunused : Unused s.events actor.requestId j.id) {fromState : JobState} (hfrom : fromState = j.state) :
    ∃ s', saveTransition env s actor j' fromState metadata = .ok s' ∧
      ∃ event, event.targetId = j.id ∧ s'.events.auditEvents = s.events.auditEvents ++ [event] := by
  subst hfrom
  have haudit : ((jobTransition j' j.state.value metadata).auditEvent j'.organizationId
      actor).transitionKey ∉ s.events.auditEvents.map (·.transitionKey) := by
    intro hmem
    obtain ⟨e, he, hkey⟩ := List.mem_map.mp hmem
    simp only [AuditEvent.transitionKey, Prod.mk.injEq] at hkey
    obtain ⟨-, hrequest, -, htarget, -⟩ := hkey
    exact hunused e he (htarget.trans hchange.id_eq) hrequest
  have hrecord := recordTransition_succeeds hactor
    (t := jobTransition j' j.state.value metadata) hmetadata haudit
    (hchange.key_free hs hj metadata j'.organizationId)
  refine ⟨_, by simp only [saveTransition, saveJob, hcheck, ok_bind, pure_bind, hrecord]; rfl, ?_⟩
  exact ⟨_, hchange.id_eq, rfl⟩

theorem checkJob_reaped (h : checkJob j = .ok ()) : checkJob (j.reaped now) = .ok () := by
  simp only [checkJob, bind_eq_ok, raiseIf_eq_ok, exists_const, not_not] at h ⊢
  obtain ⟨hkind, hpayload, hpriority, hmax, -, -, hkey, hone, hattempts, -⟩ := h
  exact ⟨hkind, hpayload, hpriority, hmax, by simp [BackgroundJob.reaped],
    (by decide : Char.ofNat 0 ∉ leaseExpiredError), hkey, hone, hattempts, by simp [BackgroundJob.reaped]⟩

theorem checkJob_claimed (h : checkJob j = .ok ()) (hattempt : j.attemptCount < j.maxAttempts)
    {workerId : Text} (hfits : fitsColumn 200 workerId = true) (expiresAt : Time) :
    checkJob (j.claimed workerId expiresAt) = .ok () := by
  simp only [checkJob, bind_eq_ok, raiseIf_eq_ok, exists_const, not_not] at h ⊢
  obtain ⟨hkind, hpayload, hpriority, hmax, -, herror, hkey, hone, -, -⟩ := h
  exact ⟨hkind, hpayload, hpriority, hmax, by simp [BackgroundJob.claimed, hfits], herror, hkey, hone,
    by simpa [BackgroundJob.claimed] using hattempt, by simp [BackgroundJob.claimed]⟩

theorem reapJobs_succeeds {request : ClaimRequest} {scan : Scan} {s₀ : Store}
    (hclaim : ValidClaim env s₀ request scan) {exhausted : List BackgroundJob} (hs : Valid s)
    (hids : Table.UniqueBy (·.id) exhausted) (hmem : ∀ j ∈ exhausted, j ∈ s.jobs ∧ isExhausted env.now j)
    (hunused : ∀ j ∈ exhausted, Unused s.events (scan.reapRequestId j.id) j.id) :
    ∃ t, exhausted.foldlM (reapJob env scan request.workerId) s = .ok t ∧
      ∀ id, id ∉ exhausted.map (·.id) → ∀ requestId, Unused s.events requestId id →
        Unused t.events requestId id := by
  induction exhausted generalizing s with
  | nil => exact ⟨s, rfl, fun _ _ _ h => h⟩
  | cons j rest ih =>
    obtain ⟨hj, hexhausted⟩ := hmem j (by simp)
    have hrunning := (leaseExpired_iff.mp (isExhausted_iff.mp hexhausted).1).1
    have hmetadata : ∀ e ∈ [(AuditKey.errorCode, leaseExpiredError)],
        env.redactText e.2 = e.2 ∧ Char.ofNat 0 ∉ e.2 := by
      intro e he
      rw [List.mem_singleton.mp he]
      exact ⟨hclaim.clean _ (by simp), by decide⟩
    obtain ⟨t, hsave, event, htarget, haudit⟩ := saveTransition_succeeds hs hj (.reap hexhausted)
      (checkJob_reaped (hs.jobs j hj).checked) (hclaim.recordable (scan.reapRequestId j.id)) hmetadata
      (hunused j (by simp)) hrunning.symm
    have hsaved := saves_of_saveTransition hj (.reap hexhausted) hrunning.symm hsave
    have hjid : j.id ∉ rest.map (·.id) := (List.nodup_cons.mp hids).1
    have hne : ∀ k ∈ rest, k.id ≠ j.id := fun k hk he => hjid (List.mem_map.mpr ⟨k, hk, he⟩)
    -- the new event is about the row just reaped
    have hstays (id : Uuid) (hid : id ≠ j.id) (requestId : Uuid) (h : Unused s.events requestId id) :
        Unused t.events requestId id := by
      intro e he heid
      rw [haudit] at he
      rcases List.mem_append.mp he with he | he
      · exact h e he heid
      · rw [List.mem_singleton.mp he, htarget] at heid
        exact absurd heid.symm hid
    obtain ⟨-, events, -, rfl⟩ := saveTransition_eq_ok hsave
    obtain ⟨u, hfold, hothers⟩ := ih (hsaved.valid hs) (List.nodup_cons.mp hids).2
      (fun k hk => ⟨Table.mem_replace.mpr (Or.inr ⟨(hmem k (by simp [hk])).1, hne k hk⟩),
        (hmem k (by simp [hk])).2⟩)
      (fun k hk => hstays k.id (hne k hk) _ (hunused k (by simp [hk])))
    refine ⟨u, ?_, fun id hid requestId h => ?_⟩
    · rw [List.foldlM_cons, bind_eq_ok]
      exact ⟨_, hsave, hfold⟩
    · simp only [List.map_cons, List.mem_cons, not_or] at hid
      exact hothers id hid.2 requestId (hstays id hid.1 requestId h)

instance (scan : Scan) : IsTrans BackgroundJob (claimLe scan) where
  trans a b c := by
    unfold claimLe
    grind

instance (scan : Scan) : Std.Total (claimLe scan) where
  total a b := by
    unfold claimLe
    grind

instance (scan : Scan) : IsTrans BackgroundJob (expiryLe scan) where
  trans a b c := by
    unfold expiryLe
    grind

instance (scan : Scan) : Std.Total (expiryLe scan) where
  total a b := by
    unfold expiryLe
    grind

theorem head_le {r : BackgroundJob → BackgroundJob → Prop} [DecidableRel r] [IsTrans BackgroundJob r]
    [Std.Total r] {l : List BackgroundJob} {first : BackgroundJob} {rest : List BackgroundJob}
    (h : l.insertionSort r = first :: rest) (hj : j ∈ l) : r first j := by
  have hsorted := List.pairwise_insertionSort r l
  rw [h] at hsorted
  have hmem : j ∈ first :: rest := by
    rw [← h, List.mem_insertionSort]
    exact hj
  rcases List.mem_cons.mp hmem with rfl | hmem
  · exact (Std.Total.total (r := r) j j).elim id id
  · exact (List.pairwise_cons.mp hsorted).1 j hmem

/-- A claim in good order succeeds, and where there is a candidate it takes one
that no candidate comes before. -/
theorem claimNextJob_succeeds (hs : Valid s) {request : ClaimRequest} {scan : Scan}
    (hclaim : ValidClaim env s request scan) :
    Succeeds (claimNextJob env s request scan) ∧
      ∀ j ∈ candidates env.now scan request.allowedKinds s.jobs, ∃ s' first expiresAt,
        claimNextJob env s request scan = .ok (s', some (first.claimed request.workerId expiresAt)) ∧
        first ∈ s.jobs ∧ claimLe scan first j := by
  have hunique : Table.UniqueBy (·.id) (exhaustedJobs env.now scan s.jobs) :=
    exhaustedJobs_unique hs.ids
  obtain ⟨t, hfold, hothers⟩ := reapJobs_succeeds hclaim hs hunique (fun _ => mem_exhaustedJobs)
    (fun j _ e he _ => hclaim.reapFresh e he j.id)
  obtain ⟨hsaves, hreaped, hkept, hback⟩ := reapJobs_saves hunique (fun _ => mem_exhaustedJobs) hfold
  have ht := SavesMany.valid hsaves hs
  -- reaping neither adds nor takes a candidate
  have hsame (j : BackgroundJob) : j ∈ candidates env.now scan request.allowedKinds t.jobs ↔
      j ∈ candidates env.now scan request.allowedKinds s.jobs := by
    rw [mem_candidates, mem_candidates]
    refine and_congr_left fun ⟨_, heligible, _⟩ => ?_
    constructor
    · intro hj
      refine (hback j hj).resolve_right fun hfailed => ?_
      rcases (isEligible_iff.mp heligible).1 with ⟨hpending, -⟩ | hexpired
      · rw [hfailed] at hpending
        cases hpending
      · have hrunning := (leaseExpired_iff.mp hexpired).1
        rw [hfailed] at hrunning
        cases hrunning
    · intro hj
      refine hkept j hj fun hmem => ?_
      obtain ⟨k, hk, hkid⟩ := List.mem_map.mp hmem
      obtain ⟨hk, hexhausted⟩ := mem_exhaustedJobs hk
      obtain rfl := hs.ids.eq_of_key_eq hk hj hkid
      exact absurd (isExhausted_iff.mp hexhausted).2 (not_le.mpr (isEligible_iff.mp heligible).2)
  have hlease : ¬ request.leaseSeconds < 1 := not_lt.mpr hclaim.lease
  have hworker : ¬ isBlank request.workerId = true := by simp [hclaim.worker]
  cases hhead : candidates env.now scan request.allowedKinds t.jobs with
  | nil =>
    have hok : claimNextJob env s request scan = .ok (t, none) := by
      simp [claimNextJob, raiseIf_of_not _ hworker, raiseIf_of_not _ hlease, hfold, hhead]
    refine ⟨⟨_, hok⟩, fun j hj => ?_⟩
    have hnone := (hsame j).mpr hj
    rw [hhead] at hnone
    cases hnone
  | cons first rest =>
    have hfirst : first ∈ candidates env.now scan request.allowedKinds t.jobs := by
      rw [hhead]
      exact List.mem_cons_self
    obtain ⟨hmem, -, heligible, -⟩ := mem_candidates.mp hfirst
    have hstored := (mem_candidates.mp ((hsame first).mp hfirst)).1
    have hpositive : (0 : ℤ) < 1000000 * request.leaseSeconds := by
      have := hclaim.lease
      omega
    have hmetadata : ∀ e ∈ [(AuditKey.leaseOwner, request.workerId)],
        env.redactText e.2 = e.2 ∧ Char.ofNat 0 ∉ e.2 := by
      intro e he
      rw [List.mem_singleton.mp he]
      have hfits := hclaim.fits
      rw [fitsColumn, decide_eq_true_eq] at hfits
      exact ⟨hclaim.clean _ (by simp), hfits.2⟩
    have hunused : Unused t.events scan.claimRequestId first.id := by
      refine hothers first.id (fun hmem' => ?_) _ fun e he _ => hclaim.claimFresh e he
      obtain ⟨k, hk, hkid⟩ := List.mem_map.mp hmem'
      obtain ⟨hk, hexhausted⟩ := mem_exhaustedJobs hk
      obtain rfl := hs.ids.eq_of_key_eq hk hstored hkid
      exact absurd (isExhausted_iff.mp hexhausted).2 (not_le.mpr (isEligible_iff.mp heligible).2)
    obtain ⟨u, hsave, -⟩ := saveTransition_succeeds ht hmem
      (.claim request.workerId (env.now + 1000000 * request.leaseSeconds) heligible
        (lt_add_of_pos_right env.now hpositive))
      (checkJob_claimed (ht.jobs first hmem).checked (isEligible_iff.mp heligible).2 hclaim.fits _)
      (hclaim.recordable scan.claimRequestId) hmetadata hunused rfl
    have hexpires : addSeconds env.now request.leaseSeconds =
        .ok (env.now + 1000000 * request.leaseSeconds) := by
      rw [addSeconds, raiseIf_of_not _ (not_lt.mpr hclaim.inRange)]
      rfl
    have hok : claimNextJob env s request scan = .ok (u, some
        (first.claimed request.workerId (env.now + 1000000 * request.leaseSeconds))) := by
      simp [claimNextJob, raiseIf_of_not _ hworker, raiseIf_of_not _ hlease, hfold, hhead, hexpires, hsave]
    refine ⟨⟨_, hok⟩, fun j hj => ⟨u, first, _, hok, hstored, ?_⟩⟩
    have hj' := (hsame j).mpr hj
    rw [candidates, List.mem_insertionSort] at hj'
    exact head_le hhead hj'

/-! ### Exhausted jobs wear off -/

/-- How many running jobs had used their last lease by an instant. -/
def exhaustedBy (e : Time) (s : Store) : ℕ := s.jobs.countP (isExhausted e)

theorem Saves.exhaustedBy_le {e : Time} (h : Saves now s s') (hs : Valid s) (he : e ≤ now) :
    exhaustedBy e s' ≤ exhaustedBy e s := by
  cases h with
  | change j j' metadata events hj hchange hcheck houtbox =>
    have hcount := hs.ids.countP_replace hj hchange.id_eq.symm (isExhausted e)
    have hnot : isExhausted e j' = false := by
      rw [Bool.eq_false_iff, ne_eq, isExhausted_iff, leaseExpired_iff]
      rintro ⟨⟨hrunning, x, hx, hxe⟩, -⟩
      cases hchange with
      | claim workerId leaseExpiresAt h hexpires =>
        obtain rfl := Option.some.inj hx
        exact absurd (hxe.trans he) (not_le.mpr hexpires)
      | reap => cases hrunning
      | finish => cases hx
      | retry => cases hx
    simp only [hnot, Bool.false_eq_true, if_false, add_zero] at hcount
    change (Table.replace _ _ _).countP _ ≤ s.jobs.countP _
    omega
  | enqueue j metadata events hfresh hbound hpending hattempts hcompleted hcheck houtbox =>
    have hnot : isExhausted e j = false := by
      rw [Bool.eq_false_iff, ne_eq, isExhausted_iff, leaseExpired_iff, hpending]
      rintro ⟨⟨hrunning, -⟩, -⟩
      cases hrunning
    change (s.jobs ++ [j]).countP _ ≤ s.jobs.countP _
    rw [List.countP_append, List.countP_singleton, hnot]
    simp

theorem SavesMany.exhaustedBy_le {e : Time} (h : SavesMany now s s') (hs : Valid s) (he : e ≤ now) :
    exhaustedBy e s' ≤ exhaustedBy e s := by
  induction h with
  | refl => exact le_rfl
  | tail hsaves hsave ih => exact (hsave.exhaustedBy_le (SavesMany.valid hsaves hs) he).trans ih

theorem Saves.exhausted {e : Time} (h : Saves now s s') (hs : Valid s) (he : e ≤ now) (hj : j ∈ s.jobs)
    (hexhausted : isExhausted e j = true) : j ∈ s'.jobs ∨ j.reaped now ∈ s'.jobs := by
  cases h with
  | change k k' metadata events hk hchange hcheck houtbox =>
    by_cases hid : j.id = k.id
    · obtain rfl := hs.ids.eq_of_key_eq hj hk hid
      obtain ⟨hexpired, hattempts⟩ := isExhausted_iff.mp hexhausted
      obtain ⟨-, x, hx, hxe⟩ := leaseExpired_iff.mp hexpired
      have hdead (hlive : ∃ t ∈ j.leaseExpiresAt, now < t) : False := by
        obtain ⟨t, ht, hlt⟩ := hlive
        obtain rfl : t = x := Option.mem_unique ht hx
        exact absurd (hxe.trans he) (not_le.mpr hlt)
      cases hchange with
      | claim workerId leaseExpiresAt h hexpires =>
        exact absurd hattempts (not_le.mpr (isEligible_iff.mp h).2)
      | reap h => exact Or.inr (Table.mem_replace.mpr (Or.inl ⟨rfl, j, hj, rfl⟩))
      | finish state lastError availableAt hrunning hlive hterminal => exact (hdead hlive).elim
      | retry lastError availableAt hrunning hlive hattempts => exact (hdead hlive).elim
    · exact Or.inl (Table.mem_replace.mpr (Or.inr ⟨hj, fun he => hid (he.trans hchange.id_eq)⟩))
  | enqueue => exact Or.inl (List.mem_append_left _ hj)

theorem SavesMany.exhausted {e : Time} (h : SavesMany now s s') (hs : Valid s) (he : e ≤ now)
    (hj : j ∈ s.jobs) (hexhausted : isExhausted e j = true) :
    j ∈ s'.jobs ∨ j.reaped now ∈ s'.jobs := by
  induction h with
  | refl => exact Or.inl hj
  | tail hsaves hsave ih =>
    have ht := SavesMany.valid hsaves hs
    rcases ih with hj | hj
    · exact hsave.exhausted ht he hj hexhausted
    · exact Or.inr (hsave.terminal ht hj rfl)

theorem exhaustedBy_reapJobs {scan : Scan} {workerId : Text} {e : Time} {exhausted : List BackgroundJob}
    (hs : Valid s) (hids : Table.UniqueBy (·.id) exhausted)
    (hmem : ∀ j ∈ exhausted, j ∈ s.jobs ∧ isExhausted env.now j)
    (h : exhausted.foldlM (reapJob env scan workerId) s = .ok s') :
    exhaustedBy e s' + exhausted.countP (isExhausted e) = exhaustedBy e s := by
  induction exhausted generalizing s with
  | nil =>
    obtain rfl := pure_eq_ok.mp h
    simp
  | cons j rest ih =>
    rw [List.foldlM_cons, bind_eq_ok] at h
    obtain ⟨t, hreap, h⟩ := h
    obtain ⟨hj, hexhausted⟩ := hmem j (by simp)
    have hrunning := (leaseExpired_iff.mp (isExhausted_iff.mp hexhausted).1).1
    have hsave := saves_of_saveTransition hj (.reap hexhausted) hrunning.symm hreap
    obtain ⟨-, events, -, rfl⟩ := saveTransition_eq_ok hreap
    have hjid : j.id ∉ rest.map (·.id) := (List.nodup_cons.mp hids).1
    have htail := ih (hsave.valid hs) (List.nodup_cons.mp hids).2 (fun k hk =>
      ⟨Table.mem_replace.mpr (Or.inr ⟨(hmem k (by simp [hk])).1,
        fun he => hjid (List.mem_map.mpr ⟨k, hk, he⟩)⟩), (hmem k (by simp [hk])).2⟩) h
    have hkey : j.id = (j.reaped env.now).id := rfl
    have hcount := hs.ids.countP_replace hj hkey (isExhausted e)
    have hnot : isExhausted e (j.reaped env.now) = false := by
      simp [isExhausted, leaseExpired, BackgroundJob.reaped]
    simp only [hnot, Bool.false_eq_true, if_false, add_zero] at hcount
    rw [List.countP_cons]
    simp only [exhaustedBy] at htail ⊢
    omega

/-- A claim that meets no locked row reaps an exhausted job or a hundred others
whose leases ran out before. -/
theorem claimNextJob_reaps {request : ClaimRequest} {scan : Scan} {claimed : Option BackgroundJob}
    {e : Time} (hs : Valid s) (he : e ≤ env.now) (hj : j ∈ s.jobs) (hexhausted : isExhausted e j = true)
    (hlocked : scan.locked = []) (h : claimNextJob env s request scan = .ok (s', claimed)) :
    j.reaped env.now ∈ s'.jobs ∨ exhaustedBy e s' + reapLimit ≤ exhaustedBy e s := by
  obtain ⟨t, hfold, hclaim⟩ := claimNextJob_eq_ok h
  have hunique : Table.UniqueBy (·.id) (exhaustedJobs env.now scan s.jobs) :=
    exhaustedJobs_unique hs.ids
  obtain ⟨hsaves, hreaped, -, -⟩ := reapJobs_saves hunique (fun _ => mem_exhaustedJobs) hfold
  have ht := SavesMany.valid hsaves hs
  have hafter : SavesMany env.now t s' := by
    rcases hclaim with ⟨-, -, rfl⟩ | ⟨job, rest, expiresAt, hcandidates, hlt, -, hsave⟩
    · exact .refl
    · have hmem : job ∈ candidates env.now scan request.allowedKinds t.jobs := by
        rw [hcandidates]
        exact List.mem_cons_self
      obtain ⟨hjob, -, heligible, -⟩ := mem_candidates.mp hmem
      exact .single (saves_of_saveTransition hjob (.claim _ _ heligible hlt) rfl hsave)
  by_cases hmem : j ∈ exhaustedJobs env.now scan s.jobs
  · exact Or.inl (SavesMany.terminal hafter ht (hreaped j hmem) rfl)
  · -- the hundred that were reaped come before the job that was not
    right
    obtain ⟨hexpired, hattempts⟩ := isExhausted_iff.mp hexhausted
    obtain ⟨hrunning, x, hx, hxe⟩ := leaseExpired_iff.mp hexpired
    have hnow : isExhausted env.now j = true :=
      isExhausted_iff.mpr ⟨leaseExpired_iff.mpr ⟨hrunning, x, hx, hxe.trans he⟩, hattempts⟩
    set sorted := (s.jobs.filter fun j => j.id ∉ scan.locked ∧ isExhausted env.now j).insertionSort
      (expiryLe scan) with hsorted
    have hin : j ∈ sorted := by
      rw [hsorted, List.mem_insertionSort, List.mem_filter]
      exact ⟨hj, by simp [hlocked, hnow]⟩
    have hpairwise : sorted.Pairwise (expiryLe scan) := List.pairwise_insertionSort _ _
    rw [← List.take_append_drop reapLimit sorted, List.mem_append] at hin
    have hdrop : j ∈ sorted.drop reapLimit := hin.resolve_left hmem
    rw [← List.take_append_drop reapLimit sorted, List.pairwise_append] at hpairwise
    have hall : ∀ k ∈ exhaustedJobs env.now scan s.jobs, isExhausted e k = true := by
      intro k hk
      obtain ⟨-, hkexhausted⟩ := mem_exhaustedJobs hk
      obtain ⟨hkexpired, hkattempts⟩ := isExhausted_iff.mp hkexhausted
      obtain ⟨hkrunning, y, hy, -⟩ := leaseExpired_iff.mp hkexpired
      refine isExhausted_iff.mpr ⟨leaseExpired_iff.mpr ⟨hkrunning, y, hy, ?_⟩, hkattempts⟩
      have hle := hpairwise.2.2 k hk j hdrop
      rw [Option.mem_def] at hx hy
      rw [expiryLe, hx, hy, Option.getD_some, Option.getD_some] at hle
      rcases hle with hlt | ⟨heq, -⟩
      · exact hlt.le.trans hxe
      · exact heq.le.trans hxe
    have hlength : (exhaustedJobs env.now scan s.jobs).length = reapLimit := by
      have hlong : reapLimit < sorted.length := by
        by_contra hshort
        rw [List.drop_eq_nil_of_le (not_lt.mp hshort)] at hdrop
        cases hdrop
      exact List.length_take_of_le hlong.le
    have hcount := exhaustedBy_reapJobs (e := e) hs hunique (fun _ => mem_exhaustedJobs) hfold
    rw [List.countP_eq_length.mpr hall, hlength] at hcount
    have hle := SavesMany.exhaustedBy_le hafter ht he
    omega

/-- A claim that meets no row locked by another transaction. -/
def isUnlockedClaim (label : Time × Call) : Bool :=
  match label.2 with
  | .claimNextJob _ scan => scan.locked.isEmpty
  | _ => false

theorem Run.reaps {calls : List (Time × Call)} (h : Run env w calls w') (hs : Valid w.store)
    (hj : j ∈ w.store.jobs) (hexhausted : isExhausted w.clock j = true)
    (hclaims : exhaustedBy w.clock w.store ≤ reapLimit * calls.countP isUnlockedClaim) :
    ∃ t, j.reaped t ∈ w'.store.jobs := by
  have hprogress := Transition.Run.progress
    (P := fun v => Valid v.store ∧ w.clock ≤ v.clock ∧ j ∈ v.store.jobs)
    (Q := fun v => Valid v.store ∧ ∃ t, j.reaped t ∈ v.store.jobs)
    (r := fun v => exhaustedBy w.clock v.store) (g := isUnlockedClaim) (d := reapLimit)
    (fun v label u hv hstep => by
      obtain ⟨hvalid, t, ht⟩ := hv
      exact ⟨Step.valid hstep hvalid, t, (Step.saves hvalid.ids hstep).terminal hvalid ht rfl⟩)
    (fun v label u hv hstep => by
      obtain ⟨hvalid, hclock, hmem⟩ := hv
      have hsaves := Step.saves hvalid.ids hstep
      have hvalid' := Step.valid hstep hvalid
      obtain ⟨now, call⟩ := label
      obtain ⟨hle, -, hrun, hclock'⟩ := hstep
      have hnow : w.clock ≤ now := hclock.trans hle
      rcases SavesMany.exhausted hsaves hvalid hnow hmem hexhausted with hstay | hreaped
      swap
      · exact Or.inl ⟨hvalid', now, hreaped⟩
      have hstays : Valid u.store ∧ w.clock ≤ u.clock ∧ j ∈ u.store.jobs :=
        ⟨hvalid', hclock'.symm ▸ hnow, hstay⟩
      have hrank := SavesMany.exhaustedBy_le hsaves hvalid hnow
      by_cases hgood : isUnlockedClaim (now, call) = true
      · cases call with
        | claimNextJob request scan =>
          obtain ⟨⟨t, claimed⟩, hcall, ht⟩ := map_eq_ok.mp hrun
          have hlocked : scan.locked = [] := List.isEmpty_iff.mp hgood
          rcases claimNextJob_reaps (e := w.clock) hvalid hnow hmem hexhausted hlocked hcall with hr | hr
          · exact Or.inl ⟨hvalid', now, ht ▸ hr⟩
          · rw [if_pos hgood]
            exact Or.inr ⟨hstays, ht ▸ hr⟩
        | enqueueJob => cases hgood
        | completeJob => cases hgood
        | failJob => cases hgood
        | cancelJob => cases hgood
        | wait => cases hgood
      · rw [if_neg hgood]
        exact Or.inr ⟨hstays, hrank⟩) h ⟨hs, le_rfl, hj⟩
  rcases hprogress with ⟨-, hreaped⟩ | ⟨⟨-, -, hmem⟩, hrank⟩
  · exact hreaped
  · have hpositive : 0 < exhaustedBy w.clock w'.store := List.countP_pos_iff.mpr ⟨j, hmem, hexhausted⟩
    omega

/-! ### The queue is safe -/

/-- The time at which a job waits for a claim has come. -/
def IsDue (now : Time) (j : BackgroundJob) : Prop :=
  (j.state = .pending → j.availableAt ≤ now) ∧ (j.state = .running → ∃ t ∈ j.leaseExpiresAt, t ≤ now)

theorem due_cases (hj : JobOk j) (hopen : j.state.isTerminal = false) (hdue : IsDue now j) :
    isEligible now j = true ∨ isExhausted now j = true := by
  rw [isEligible_iff, isExhausted_iff, leaseExpired_iff]
  cases hstate : j.state with
  | pending => exact Or.inl ⟨Or.inl ⟨rfl, hdue.1 hstate⟩, hj.pending hstate⟩
  | running =>
    have hexpired := hdue.2 hstate
    rcases Nat.lt_or_ge j.attemptCount j.maxAttempts with hlt | hge
    · exact Or.inl ⟨Or.inr ⟨rfl, hexpired⟩, hlt⟩
    · exact Or.inr ⟨⟨rfl, hexpired⟩, hge⟩
  | succeeded => rw [hstate] at hopen; cases hopen
  | failed => rw [hstate] at hopen; cases hopen
  | cancelled => rw [hstate] at hopen; cases hopen

/-- In every reachable queue the fields of a job agree with its state, a terminal
row stays as it is in every run, and a job that is due is taken by the next claims
or, when its attempts are used up, failed by them, a hundred to a claim. -/
theorem job_queue_safe (env : Env) (w : World) (h : Reachable env w) :
    (∀ j ∈ w.store.jobs, j.attemptCount ≤ j.maxAttempts ∧
      (j.state = .running ↔ j.leaseOwner.isSome = true ∧ j.leaseExpiresAt.isSome = true) ∧
      (j.state = .pending → j.attemptCount < j.maxAttempts) ∧
      (j.completedAt.isSome = true ↔ j.state.isTerminal = true)) ∧
    (∀ calls w', Run env w calls w' → ∀ j ∈ w.store.jobs, j.state.isTerminal = true →
      j ∈ w'.store.jobs) ∧
    (∀ now request scan, w.clock ≤ now → ValidClaim (env.at now) w.store request scan →
      Succeeds (claimNextJob (env.at now) w.store request scan)) ∧
    ∀ j ∈ w.store.jobs, j.state.isTerminal = false → ∀ now, w.clock ≤ now → IsDue now j →
      (isEligible now j = true ∧ ∀ request scan, ValidClaim (env.at now) w.store request scan →
        j ∈ candidates now scan request.allowedKinds w.store.jobs → ∃ s' first expiresAt,
          claimNextJob (env.at now) w.store request scan =
            .ok (s', some (first.claimed request.workerId expiresAt)) ∧
          first ∈ w.store.jobs ∧ claimLe scan first j) ∨
      (isExhausted now j = true ∧ ∀ calls w', Run env ⟨w.store, now⟩ calls w' →
        exhaustedBy now w.store ≤ reapLimit * calls.countP isUnlockedClaim →
        ∃ t, j.reaped t ∈ w'.store.jobs) := by
  have hs := h.valid
  refine ⟨fun j hj => ?_, fun calls w' hrun j hj hterminal => Run.terminal hrun hs hj hterminal, ?_, ?_⟩
  · have hok := hs.jobs j hj
    exact ⟨(checkJob_eq_ok hok.checked).2.1, hok.lease_iff, hok.pending, hok.completed⟩
  · intro now request scan _ hclaim
    exact (claimNextJob_succeeds hs hclaim).1
  · intro j hj hopen now _ hdue
    rcases due_cases (hs.jobs j hj) hopen hdue with heligible | hexhausted
    · exact Or.inl ⟨heligible, fun request scan hclaim hcandidate =>
        (claimNextJob_succeeds hs hclaim).2 j hcandidate⟩
    · exact Or.inr ⟨hexhausted, fun calls w' hrun hclaims => Run.reaps hrun hs hj hexhausted hclaims⟩

end

namespace Sample

def env : Env := ⟨0, fun value => value⟩

def empty : World := ⟨⟨[1], [], .empty⟩, 0⟩

def actor : EventActor where
  actorType := .user
  actorId := "planner".toList
  credentialId := none
  authorizationPath := "role:ORG_ADMIN".toList
  requestId := 5
  sourceIpHash := []

def enqueueRequest : EnqueueRequest := ⟨"sync".toList, "{}".toList, "sync:1".toList, 3, 0⟩

def job : BackgroundJob where
  id := 9
  organizationId := 1
  kind := "sync".toList
  payload := "{}".toList
  state := .pending
  priority := 0
  availableAt := 1
  attemptCount := 0
  maxAttempts := 3
  leaseOwner := none
  leaseExpiresAt := none
  lastError := []
  idempotencyKey := "sync:1".toList
  completedAt := none
  createdAt := 1

def enqueued : World :=
  ⟨match enqueueJob (env.at 1) empty.store 1 actor enqueueRequest 9 with
    | .ok r => r.1
    | .error _ => empty.store, 1⟩

def claimRequest : ClaimRequest := ⟨"worker-1".toList, 60, none⟩

def scan : Scan := ⟨[], id, fun id => 100 + id, 99⟩

theorem enqueued_reachable : Reachable env enqueued :=
  (Transition.Reachable.start ⟨rfl, rfl⟩).run (.single
    (show Step env empty (1, .enqueueJob 1 actor enqueueRequest 9) enqueued from
      ⟨by decide, show 9 < uuidBound by norm_num [uuidBound], by decide +kernel, rfl⟩))

theorem scan_valid : ValidClaim (env.at 2) enqueued.store claimRequest scan where
  worker := by decide
  lease := by decide
  inRange := by decide
  fits := by decide
  clean := fun _ _ => rfl
  reapFresh := fun e he id => by
    have hrequest : ∀ e ∈ enqueued.store.events.auditEvents, e.actor.requestId = 5 := by decide +kernel
    rw [hrequest e he]
    change (5 : ℕ) ≠ 100 + id
    omega
  claimFresh := by decide +kernel

end Sample

theorem job_queue_safe_sample : ∃ s' first expiresAt,
    claimNextJob (Sample.env.at 2) Sample.enqueued.store Sample.claimRequest Sample.scan =
      .ok (s', some (first.claimed "worker-1".toList expiresAt)) ∧
    first ∈ Sample.enqueued.store.jobs ∧ claimLe Sample.scan first Sample.job := by
  have hdue : IsDue 2 Sample.job := ⟨by decide, by decide⟩
  rcases (job_queue_safe Sample.env Sample.enqueued Sample.enqueued_reachable).2.2.2 Sample.job
    (by decide +kernel) rfl 2 (by decide) hdue with ⟨-, hclaim⟩ | ⟨hexhausted, -⟩
  · exact hclaim Sample.claimRequest Sample.scan Sample.scan_valid (by decide +kernel)
  · exact absurd hexhausted (by decide)

end Anva.Jobs
