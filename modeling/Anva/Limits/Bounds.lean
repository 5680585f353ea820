import Anva.Limits.Buckets

/-! What the counters bound: the requests that are allowed in a window, over every sequence of
requests and purges on a clock that does not go back. -/

namespace Anva.Limits

variable {s : Settings} {rows : List Bucket} {log : List Entry} {key : BucketKey} {start now current : Time}

/-! ### Windows -/

theorem windowSeconds_pos (s : Settings) : (0 : ℤ) < s.windowSeconds := Int.natCast_pos.mpr s.window_bounds.1

theorem windowLength_pos (s : Settings) : 0 < windowLength s := Int.mul_pos (windowSeconds_pos s) (by decide)

theorem tdiv_second (a : ℤ) : a.tdiv 1000000 = if 0 ≤ a then a / 1000000 else -(-a / 1000000) := by
  split
  case isTrue h => exact Int.tdiv_eq_ediv_of_nonneg h
  case isFalse h => rw [← Int.tdiv_eq_ediv_of_nonneg (by omega : 0 ≤ -a), Int.neg_tdiv, neg_neg]

theorem lt_tdiv_second (a : ℤ) : a < (a.tdiv 1000000 + 1) * 1000000 := by
  rw [tdiv_second]
  split <;> omega

theorem tdiv_second_of_lt {a b n : ℤ} (h : b < a + n * 1000000) (hn : 0 < n) :
    b.tdiv 1000000 ≤ a.tdiv 1000000 + n := by
  rw [tdiv_second, tdiv_second]
  split <;> split <;> omega

theorem epochSeconds_mono {a b : Time} (h : a ≤ b) : epochSeconds a ≤ epochSeconds b := Int.tdiv_le_tdiv (by decide) h

theorem windowEpoch_bounds (s : Settings) (current : Time) :
    windowEpoch s current ≤ epochSeconds current ∧ epochSeconds current < windowEpoch s current + s.windowSeconds := by
  have hpos := windowSeconds_pos s
  have hnonneg := Int.emod_nonneg (epochSeconds current) hpos.ne'
  have hlt := Int.emod_lt_of_pos (epochSeconds current) hpos
  unfold windowEpoch
  constructor <;> omega

theorem windowEpoch_dvd (s : Settings) (current : Time) : (s.windowSeconds : ℤ) ∣ windowEpoch s current :=
  Int.dvd_self_sub_emod

theorem windowEpoch_mono {a b : Time} (h : a ≤ b) : windowEpoch s a ≤ windowEpoch s b := by
  obtain ⟨m, hm⟩ := windowEpoch_dvd s a
  obtain ⟨n, hn⟩ := windowEpoch_dvd s b
  have ha := (windowEpoch_bounds s a).1
  have hb := (windowEpoch_bounds s b).2
  have hmn : (s.windowSeconds : ℤ) * m < s.windowSeconds * (n + 1) := by
    rw [mul_add, mul_one, ← hm, ← hn]
    exact (ha.trans (epochSeconds_mono h)).trans_lt hb
  rw [hm, hn]
  exact Int.mul_le_mul_of_nonneg_left (Int.lt_add_one_iff.mp (lt_of_mul_lt_mul_left hmn (windowSeconds_pos s).le))
    (windowSeconds_pos s).le

theorem lt_windowEnd (s : Settings) (current : Time) : current < windowStart s current + windowLength s := by
  have hlt := (windowEpoch_bounds s current).2
  have hsecond : current < (epochSeconds current + 1) * second := lt_tdiv_second current
  have hle : (epochSeconds current + 1) * second ≤ (windowEpoch s current + s.windowSeconds) * second :=
    Int.mul_le_mul_of_nonneg_right hlt (by decide)
  rw [windowStart, windowLength, ← Int.add_mul]
  exact hsecond.trans_le hle

theorem epochSeconds_of_interval {a b : Time} (hlt : b < a + windowLength s) :
    epochSeconds b ≤ epochSeconds a + s.windowSeconds :=
  tdiv_second_of_lt hlt (windowSeconds_pos s)

theorem windowStart_of_interval {a b : Time} (hle : a ≤ b) (hlt : b < a + windowLength s) :
    windowStart s b = windowStart s a ∨ windowStart s b = windowStart s a + windowLength s := by
  have hpos := windowSeconds_pos s
  have hmono := windowEpoch_mono (s := s) hle
  have hb := (windowEpoch_bounds s b).1
  have ha := (windowEpoch_bounds s a).2
  have hsec := epochSeconds_of_interval hlt
  obtain ⟨m, hm⟩ := windowEpoch_dvd s a
  obtain ⟨n, hn⟩ := windowEpoch_dvd s b
  have hupper : (s.windowSeconds : ℤ) * n < s.windowSeconds * (m + 2) := by
    rw [mul_add, ← hm, ← hn]
    omega
  have hlower : (s.windowSeconds : ℤ) * m ≤ s.windowSeconds * n := by
    rw [← hm, ← hn]
    exact hmono
  have hn2 := lt_of_mul_lt_mul_left hupper hpos.le
  have hn0 := le_of_mul_le_mul_left hlower hpos
  rcases (show n = m ∨ n = m + 1 by omega) with rfl | rfl
  · exact .inl (by rw [windowStart, windowStart, hm, hn])
  · refine .inr ?_
    rw [windowStart, windowStart, windowLength, hm, hn]
    ring

/-! ### One request -/

theorem countIn_append (log : List Entry) (e : Entry) (key : BucketKey) (start : Time) (ended : Verdict → Bool) :
    countIn s (log ++ [e]) key start ended = countIn s log key start ended +
      if e.key = key ∧ windowStart s e.current = start ∧ ended e.verdict then 1 else 0 := by
  simp [countIn, List.countP_append, List.countP_singleton]

theorem countIn_same (log : List Entry) (e : Entry) (ended : Verdict → Bool) :
    countIn s (log ++ [e]) e.key (windowStart s e.current) ended =
      countIn s log e.key (windowStart s e.current) ended + if ended e.verdict then 1 else 0 := by
  rw [countIn_append]
  simp

theorem countIn_other {e : Entry} (h : (e.key, windowStart s e.current) ≠ (key, start)) (ended : Verdict → Bool) :
    countIn s (log ++ [e]) key start ended = countIn s log key start ended := by
  rw [countIn_append, if_neg, add_zero]
  rintro ⟨rfl, rfl, -⟩
  exact h rfl

theorem slot_counted (limit : ℕ) (b : Bucket) : (b.counted limit).slot = b.slot := rfl

theorem slot_freshBucket (key : BucketKey) (id : Uuid) (current : Time) :
    (freshBucket s key id current).slot = (key, windowStart s current) := rfl

theorem bucketOf_cases (rows : List Bucket) (key : BucketKey) (id : Uuid) (current : Time) :
    (bucketOf s rows key id current ∈ rows ∧
        (bucketOf s rows key id current).slot = (key, windowStart s current)) ∨
      (bucketOf s rows key id current = freshBucket s key id current ∧
        ∀ b ∈ rows, b.slot ≠ (key, windowStart s current)) := by
  unfold bucketOf
  cases hf : rows.find? (·.slot = (key, windowStart s current)) with
  | none =>
    refine .inr ⟨rfl, fun b hb => ?_⟩
    simpa using List.find?_eq_none.mp hf b hb
  | some b =>
    have hslot : b.slot = (key, windowStart s current) := by simpa using List.find?_some hf
    exact .inl ⟨List.mem_of_find?_eq_some hf, hslot⟩

theorem slot_bucketOf (rows : List Bucket) (key : BucketKey) (id : Uuid) (current : Time) :
    (bucketOf s rows key id current).slot = (key, windowStart s current) := by
  rcases bucketOf_cases (s := s) rows key id current with ⟨-, h⟩ | ⟨h, -⟩
  · exact h
  · rw [h, slot_freshBucket]

theorem mem_countedRows {limit : ℕ} {id : Uuid} {b : Bucket} :
    b ∈ countedRows s rows key id current limit ↔
      b = (bucketOf s rows key id current).counted limit ∨ (b ∈ rows ∧ b.slot ≠ (key, windowStart s current)) := by
  unfold countedRows
  rw [Table.mem_replace, slot_counted, slot_bucketOf]
  constructor
  · rintro (⟨hb, -⟩ | ⟨hb, hne⟩)
    · exact .inl hb
    · rcases Table.mem_getOrCreate.mp hb with hb | ⟨rfl, -⟩
      · exact .inr ⟨hb, hne⟩
      · exact absurd (slot_freshBucket key id current) hne
  · rintro (hb | ⟨hb, hne⟩)
    · exact .inl ⟨hb, Table.exists_getOrCreate Bucket.slot rows (freshBucket s key id current)⟩
    · exact .inr ⟨Table.mem_of_mem_rows hb, hne⟩

theorem enforceRateLimit_cases (henabled : s.enabled = true) (rows : List Bucket) (key : BucketKey) (id : Uuid)
    (current : Time) :
    (∃ e, rateLimit s key.channel = .error e ∧ enforceRateLimit s rows key id current = (rows, .failed e)) ∨
      (∃ limit, rateLimit s key.channel = .ok limit ∧
        (((bucketOf s rows key id current).requestCount + 1 > countMaximum ∧
            enforceRateLimit s rows key id current = (rows, .failed (.dataError "request_count"))) ∨
          ((bucketOf s rows key id current).requestCount + 1 ≤ countMaximum ∧
            (enforceRateLimit s rows key id current).1 = countedRows s rows key id current limit ∧
            (((bucketOf s rows key id current).requestCount + 1 > limit ∧
                (enforceRateLimit s rows key id current).2 = .denied (retryAfter s current)) ∨
              ((bucketOf s rows key id current).requestCount + 1 ≤ limit ∧
                ∃ decision, (enforceRateLimit s rows key id current).2 = .allowed decision))))) := by
  cases hlimit : rateLimit s key.channel with
  | error e => exact .inl ⟨e, rfl, by simp only [enforceRateLimit, hlimit]⟩
  | ok limit =>
    refine .inr ⟨limit, rfl, ?_⟩
    have hne : ¬ s.enabled = false := by simp [henabled]
    simp only [enforceRateLimit, hlimit, if_neg hne]
    by_cases hmax : countMaximum < (bucketOf s rows key id current).requestCount + 1
    · exact .inl ⟨hmax, by rw [if_pos hmax]⟩
    · rw [if_neg hmax]
      refine .inr ⟨by omega, ?_⟩
      by_cases hdenied : limit < (bucketOf s rows key id current).requestCount + 1
      · rw [if_pos hdenied]
        exact ⟨rfl, .inl ⟨hdenied, rfl⟩⟩
      · rw [if_neg hdenied]
        exact ⟨rfl, .inr ⟨by omega, _, rfl⟩⟩

/-! ### Purges -/

/-- What is left of the rows are those that are kept, and no other row is in date. -/
def KeepsUnexpired (now : Time) (rows later : List Bucket) : Prop :=
  ∃ kept : Bucket → Bool, later = rows.filter kept ∧ ∀ b, kept b = false → b.expiresAt ≤ now

theorem purgeExpired_keeps (rows : List Bucket) (organizationId : Uuid) (now : Time) :
    KeepsUnexpired now rows (purgeExpired rows organizationId now) := by
  refine ⟨_, rfl, fun b hb => ?_⟩
  have hgone : b.key.organizationId = some organizationId ∧ b.expiresAt ≤ now := by simpa using hb
  exact hgone.2

theorem purgeExpiredPreAuth_keeps (rows : List Bucket) (limit : ℤ) (locked : List Uuid) (now : Time) :
    KeepsUnexpired now rows (purgeExpiredPreAuth rows limit locked now) := by
  unfold purgeExpiredPreAuth
  split_ifs
  · refine ⟨_, rfl, fun b hb => ?_⟩
    rw [decide_eq_false_iff_not, not_not] at hb
    have hexpired : b.key.organizationId = none ∧ b.key.channel = preauth ∧ b.expiresAt ≤ now := by
      simpa [isExpiredPreAuth] using hb.2
    exact hexpired.2.2
  · exact ⟨fun _ => true, (List.filter_true _).symm, fun _ h => by simp at h⟩

theorem rows_of_purge {e : Event} (hpurge : e.isPurge = true) (st : State) :
    (next s st e).log = st.log ∧ KeepsUnexpired e.time st.rows (next s st e).rows := by
  cases e with
  | request => simp [Event.isPurge] at hpurge
  | purge organizationId now => exact ⟨rfl, purgeExpired_keeps st.rows organizationId now⟩
  | purgePreAuth limit locked now => exact ⟨rfl, purgeExpiredPreAuth_keeps st.rows limit locked now⟩

/-! ### The invariant -/

/-- What the requests of a key in a window come to, under a limit. -/
structure Law (s : Settings) (log : List Entry) (key : BucketKey) (start : Time) (limit : ℕ) : Prop where
  counted : countIn s log key start Verdict.isCounted = min (countIn s log key start Verdict.isMade) countMaximum
  allowed : countIn s log key start Verdict.isAllowed = min (countIn s log key start Verdict.isCounted) limit
  denied : countIn s log key start Verdict.isDenied = countIn s log key start Verdict.isCounted - limit

/-- The counters hold what the requests of their windows came to; a window without a counter
has no request, or has expired. -/
structure Sound (s : Settings) (now : Time) (st : State) : Prop where
  unique : Table.UniqueBy Bucket.slot st.rows
  known : ∀ b ∈ st.rows, ∃ limit, rateLimit s b.key.channel = .ok limit
  expires : ∀ b ∈ st.rows, b.expiresAt = b.windowStartedAt + 2 * windowLength s
  counts : ∀ b ∈ st.rows,
    b.requestCount = countIn s st.log b.key b.windowStartedAt Verdict.isCounted ∧
      b.deniedCount = countIn s st.log b.key b.windowStartedAt Verdict.isDenied
  stored : ∀ key start, (∀ b ∈ st.rows, b.slot ≠ (key, start)) →
    countIn s st.log key start Verdict.isCounted = 0 ∨ start + 2 * windowLength s ≤ now
  law : ∀ key start limit, rateLimit s key.channel = .ok limit → Law s st.log key start limit

theorem sound_init (s : Settings) (now : Time) : Sound s now ⟨[], []⟩ where
  unique := List.nodup_nil
  known := by simp
  expires := by simp
  counts := by simp
  stored := fun _ _ _ => .inl rfl
  law := fun _ _ _ _ => ⟨rfl, (Nat.zero_min _).symm, (Nat.zero_sub _).symm⟩

theorem Sound.of_purge {st : State} {e : Event} (h : Sound s now st) (hpurge : e.isPurge = true)
    (hnow : now ≤ e.time) : Sound s e.time (next s st e) := by
  obtain ⟨hlog, kept, hrows, hexpired⟩ := rows_of_purge (s := s) hpurge st
  have hmem : ∀ b ∈ (next s st e).rows, b ∈ st.rows := fun b hb => (List.mem_filter.mp (hrows ▸ hb)).1
  refine ⟨?_, fun b hb => h.known b (hmem b hb), fun b hb => h.expires b (hmem b hb), ?_, ?_, ?_⟩
  · rw [hrows]
    exact h.unique.sublist (List.filter_sublist.map _)
  · rw [hlog]
    exact fun b hb => h.counts b (hmem b hb)
  · rw [hlog]
    intro key start hnone
    by_cases hrow : ∃ b ∈ st.rows, b.slot = (key, start)
    · obtain ⟨b, hb, hslot⟩ := hrow
      have hgone : kept b = false := by
        by_contra hkept
        refine hnone b ?_ hslot
        rw [hrows]
        exact List.mem_filter.mpr ⟨hb, by simpa using hkept⟩
      have hstart : b.windowStartedAt = start := (Prod.mk.inj hslot).2
      have hpast := hexpired b hgone
      rw [h.expires b hb, hstart] at hpast
      exact .inr hpast
    · exact (h.stored key start fun b hb he => hrow ⟨b, hb, he⟩).imp_right fun hle => hle.trans hnow
  · rw [hlog]
    exact h.law

theorem Sound.bucketOf_counts {st : State} (h : Sound s now st) (hnow : now ≤ current) (key : BucketKey) (id : Uuid) :
    (bucketOf s st.rows key id current).expiresAt = windowStart s current + 2 * windowLength s ∧
      (bucketOf s st.rows key id current).requestCount =
        countIn s st.log key (windowStart s current) Verdict.isCounted ∧
      (bucketOf s st.rows key id current).deniedCount =
        countIn s st.log key (windowStart s current) Verdict.isDenied := by
  rcases bucketOf_cases (s := s) st.rows key id current with ⟨hmem, hslot⟩ | ⟨hfresh, hnone⟩
  · obtain ⟨hkey, hstart⟩ := Prod.mk.inj hslot
    have hcounts := h.counts _ hmem
    have hexpires := h.expires _ hmem
    rw [hkey, hstart] at hcounts
    rw [hstart] at hexpires
    exact ⟨hexpires, hcounts⟩
  · have hend := lt_windowEnd s current
    have hlength := windowLength_pos s
    have hzero : countIn s st.log key (windowStart s current) Verdict.isCounted = 0 := by
      refine (h.stored key _ hnone).resolve_right fun hle => ?_
      have hlt := (hle.trans hnow).trans_lt hend
      rw [two_mul, ← add_assoc] at hlt
      exact (lt_add_of_pos_right _ hlength).not_gt hlt
    have hdenied : countIn s st.log key (windowStart s current) Verdict.isDenied = 0 := by
      refine Nat.eq_zero_of_le_zero (hzero ▸ List.countP_mono_left fun e _ he => ?_)
      simp only [decide_eq_true_eq] at he ⊢
      exact ⟨he.1, he.2.1, by simp [Verdict.isCounted, he.2.2]⟩
    rw [hfresh, hzero, hdenied]
    exact ⟨rfl, rfl, rfl⟩

theorem Law.of_request {limit : ℕ} {rows : List Bucket} {id : Uuid} (henabled : s.enabled = true)
    (hlimit : rateLimit s key.channel = .ok limit) (h : Law s log key (windowStart s current) limit)
    (hcount : (bucketOf s rows key id current).requestCount =
      countIn s log key (windowStart s current) Verdict.isCounted) :
    Law s (log ++ [⟨key, current, (enforceRateLimit s rows key id current).2⟩]) key (windowStart s current) limit := by
  obtain ⟨hcounted, hallowed, hdenied⟩ := h
  have happend := fun ended =>
    countIn_same (s := s) log ⟨key, current, (enforceRateLimit s rows key id current).2⟩ ended
  rcases enforceRateLimit_cases henabled rows key id current with ⟨e, he, -⟩ | ⟨limit', hlimit', hcases⟩
  · rw [hlimit] at he
    cases he
  rw [hlimit] at hlimit'
  cases hlimit'
  rcases hcases with ⟨hmax, hresult⟩ | ⟨hmax, -, ⟨hlt, hresult⟩ | ⟨hle, decision, hresult⟩⟩
  all_goals
    constructor <;> rw [happend, happend, hresult] <;>
      simp only [Verdict.isCounted, Verdict.isMade, Verdict.isAllowed, Verdict.isDenied] <;>
      simp only [Bool.or_false, Bool.or_true, if_true, Bool.false_eq_true, if_false] <;> omega

theorem countIn_failed (log : List Entry) (key' : BucketKey) (start' : Time) {e : ServiceError} {ended : Verdict → Bool}
    (hended : ended (.failed e) = false) :
    countIn s (log ++ [⟨key, current, .failed e⟩]) key' start' ended = countIn s log key' start' ended := by
  rw [countIn_append, if_neg, add_zero]
  rintro ⟨-, -, h⟩
  simp [hended] at h

theorem Sound.of_request {st : State} (h : Sound s now st) (henabled : s.enabled = true) (hnow : now ≤ current)
    (key : BucketKey) (id : Uuid) : Sound s current (next s st (.request key id current)) := by
  obtain ⟨hexpires, hcount, hdenied⟩ := h.bucketOf_counts hnow key id
  have hother : ∀ key' start', (key', start') ≠ (key, windowStart s current) → ∀ ended,
      countIn s (next s st (.request key id current)).log key' start' ended = countIn s st.log key' start' ended :=
    fun key' start' hne ended => countIn_other (fun he => hne he.symm) ended
  have hlaw : ∀ key' start' limit, rateLimit s key'.channel = .ok limit →
      Law s (next s st (.request key id current)).log key' start' limit := by
    intro key' start' limit hlimit
    by_cases hslot : (key', start') = (key, windowStart s current)
    · obtain ⟨rfl, rfl⟩ := Prod.mk.inj hslot
      exact (h.law key' _ limit hlimit).of_request henabled hlimit hcount
    · obtain ⟨h1, h2, h3⟩ := h.law key' start' limit hlimit
      have hsame := hother key' start' hslot
      exact ⟨by rw [hsame, hsame, h1], by rw [hsame, hsame, h2], by rw [hsame, hsame, h3]⟩
  have hfailed : ∀ e, enforceRateLimit s st.rows key id current = (st.rows, .failed e) →
      Sound s current (next s st (.request key id current)) := by
    intro e hresult
    have hnext : next s st (.request key id current) = ⟨st.rows, st.log ++ [⟨key, current, .failed e⟩]⟩ := by
      simp only [next, hresult]
    rw [hnext] at hlaw ⊢
    have hcounted : ∀ key' start', countIn s (st.log ++ [⟨key, current, .failed e⟩]) key' start' Verdict.isCounted =
        countIn s st.log key' start' Verdict.isCounted := fun key' start' => countIn_failed st.log key' start' rfl
    have hdenied : ∀ key' start', countIn s (st.log ++ [⟨key, current, .failed e⟩]) key' start' Verdict.isDenied =
        countIn s st.log key' start' Verdict.isDenied := fun key' start' => countIn_failed st.log key' start' rfl
    refine ⟨h.unique, h.known, h.expires, ?_, ?_, hlaw⟩
    · simp only [hcounted, hdenied]
      exact h.counts
    · simp only [hcounted]
      exact fun key' start' hnone => (h.stored key' start' hnone).imp_right fun hle => hle.trans hnow
  rcases enforceRateLimit_cases henabled st.rows key id current with ⟨e, -, hresult⟩ | ⟨limit, hlimit, hcases⟩
  · exact hfailed e hresult
  rcases hcases with ⟨-, hresult⟩ | ⟨-, hrows, hverdict⟩
  · exact hfailed _ hresult
  replace hrows : (next s st (.request key id current)).rows = countedRows s st.rows key id current limit := hrows
  obtain ⟨hslotKey, hslotStart⟩ := Prod.mk.inj (slot_bucketOf (s := s) st.rows key id current)
  refine ⟨?_, ?_, ?_, ?_, ?_, hlaw⟩
  · rw [hrows]
    exact h.unique.getOrCreate.replace
  · rw [hrows]
    intro b hb
    rcases mem_countedRows.mp hb with rfl | ⟨hb, -⟩
    · refine ⟨limit, ?_⟩
      change rateLimit s (bucketOf s st.rows key id current).key.channel = _
      rw [hslotKey, hlimit]
    · exact h.known b hb
  · rw [hrows]
    intro b hb
    rcases mem_countedRows.mp hb with rfl | ⟨hb, -⟩
    · exact hexpires.trans (by rw [← hslotStart]; rfl)
    · exact h.expires b hb
  · rw [hrows]
    intro b hb
    rcases mem_countedRows.mp hb with rfl | ⟨hb, hne⟩
    · have happend := fun ended =>
        countIn_same (s := s) st.log ⟨key, current, (enforceRateLimit s st.rows key id current).2⟩ ended
      change _ = countIn s _ (bucketOf s st.rows key id current).key
        (bucketOf s st.rows key id current).windowStartedAt _ ∧ _ = countIn s _
        (bucketOf s st.rows key id current).key (bucketOf s st.rows key id current).windowStartedAt _
      rw [hslotKey, hslotStart]
      change _ = countIn s (st.log ++ [_]) key _ _ ∧ _ = countIn s (st.log ++ [_]) key _ _
      rw [happend, happend]
      simp only [Bucket.counted]
      rcases hverdict with ⟨hlt, hv⟩ | ⟨hle, decision, hv⟩
      · rw [hv, if_pos hlt, hcount, hdenied]
        exact ⟨rfl, rfl⟩
      · rw [hv, if_neg (Nat.not_lt.mpr hle), hcount, hdenied]
        exact ⟨rfl, rfl⟩
    · rw [hother _ _ hne, hother _ _ hne]
      exact h.counts b hb
  · rw [hrows]
    intro key' start' hnone
    by_cases hslot : (key', start') = (key, windowStart s current)
    · refine absurd ?_ (hnone _ (mem_countedRows.mpr (.inl rfl)))
      rw [slot_counted, slot_bucketOf, hslot]
    · rw [hother key' start' hslot]
      refine (h.stored key' start' fun b hb he => ?_).imp_right fun hle => hle.trans hnow
      exact hnone b (mem_countedRows.mpr (.inr ⟨hb, fun h' => hslot (he.symm.trans h')⟩)) he

theorem Sound.of_next {st : State} {e : Event} (h : Sound s now st) (henabled : s.enabled = true)
    (hnow : now ≤ e.time) : Sound s e.time (next s st e) := by
  cases e with
  | request key id current => exact h.of_request henabled hnow key id
  | purge => exact h.of_purge rfl hnow
  | purgePreAuth => exact h.of_purge rfl hnow

theorem sound_run (henabled : s.enabled = true) {events : List Event}
    (hclock : events.Pairwise fun a b => a.time ≤ b.time) (hnow : ∀ e ∈ events, e.time ≤ now) :
    Sound s now (run s events) := by
  induction events using List.reverseRecOn generalizing now with
  | nil => exact sound_init s now
  | append_singleton events e ih =>
    obtain ⟨hbefore, -, hlast⟩ := List.pairwise_append.mp hclock
    have hstep := (ih hbefore fun a ha => hlast a ha e (List.mem_singleton_self e)).of_next henabled le_rfl
    have hle := hnow e (List.mem_append_right _ (List.mem_singleton_self e))
    rw [run, List.foldl_append]
    exact ⟨hstep.unique, hstep.known, hstep.expires, hstep.counts,
      fun key start hnone => (hstep.stored key start hnone).imp_right fun h => h.trans hle, hstep.law⟩

end Anva.Limits
