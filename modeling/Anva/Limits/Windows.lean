import Anva.Limits.Bounds

/-! Over every sequence of requests and purges: at most the limit is allowed in a window and at
most twice the limit in an interval of its length, the counters hold the requests made and
denied, and a purge leaves the current window. A counter stops at the largest value of its
column: the requests after that fail, and are not counted. -/

namespace Anva.Limits

variable {s : Settings} {now : Time} {st : State}

theorem countBetween_le (s : Settings) (log : List Entry) (key : BucketKey) (start : Time) (ended : Verdict → Bool) :
    countBetween log key start (start + windowLength s) ended ≤
      countIn s log key (windowStart s start) ended +
        countIn s log key (windowStart s start + windowLength s) ended := by
  induction log with
  | nil => exact Nat.zero_le _
  | cons e log ih =>
    unfold countBetween countIn at ih ⊢
    rw [List.countP_cons, List.countP_cons, List.countP_cons]
    by_cases hin : e.key = key ∧ start ≤ e.current ∧ e.current < start + windowLength s ∧ ended e.verdict
    · obtain ⟨hkey, hle, hlt, hended⟩ := hin
      rcases windowStart_of_interval hle hlt with hw | hw
      · simp only [hkey, hle, hlt, hended, hw, and_self, decide_true, if_true]
        omega
      · simp only [hkey, hle, hlt, hended, hw, and_self, decide_true, if_true]
        omega
    · rw [if_neg (by simpa using hin)]
      omega

theorem Sound.allowed_le (h : Sound s now st) {key : BucketKey} {limit : ℕ}
    (hlimit : rateLimit s key.channel = .ok limit) (start : Time) :
    countIn s st.log key start Verdict.isAllowed ≤ limit :=
  (h.law key start limit hlimit).allowed.trans_le (min_le_right _ _)

theorem Sound.allowed_between_le (h : Sound s now st) {key : BucketKey} {limit : ℕ}
    (hlimit : rateLimit s key.channel = .ok limit) (start : Time) :
    countBetween st.log key start (start + windowLength s) Verdict.isAllowed ≤ 2 * limit := by
  have hcover := countBetween_le s st.log key start Verdict.isAllowed
  have hfirst := h.allowed_le hlimit (windowStart s start)
  have hsecond := h.allowed_le hlimit (windowStart s start + windowLength s)
  omega

theorem Sound.row_counts (h : Sound s now st) {b : Bucket} (hb : b ∈ st.rows) :
    b.requestCount = min (countIn s st.log b.key b.windowStartedAt Verdict.isMade) countMaximum ∧
      b.deniedCount = countIn s st.log b.key b.windowStartedAt Verdict.isDenied := by
  obtain ⟨limit, hlimit⟩ := h.known b hb
  obtain ⟨hrequests, hdenied⟩ := h.counts b hb
  exact ⟨hrequests.trans (h.law b.key b.windowStartedAt limit hlimit).counted, hdenied⟩

theorem Sound.exists_row (h : Sound s now st) {key : BucketKey} {limit : ℕ}
    (hlimit : rateLimit s key.channel = .ok limit)
    (hmade : 0 < countIn s st.log key (windowStart s now) Verdict.isMade) :
    ∃ b ∈ st.rows, b.slot = (key, windowStart s now) := by
  by_contra hnone
  have hnone' : ∀ b ∈ st.rows, b.slot ≠ (key, windowStart s now) := fun b hb he => hnone ⟨b, hb, he⟩
  have hcounted := (h.law key (windowStart s now) limit hlimit).counted
  rcases h.stored key (windowStart s now) hnone' with hzero | hle
  · rw [hzero, countMaximum] at hcounted
    omega
  · have hend := hle.trans_lt (lt_windowEnd s now)
    rw [two_mul, ← add_assoc] at hend
    exact (lt_add_of_pos_right _ (windowLength_pos s)).not_gt hend

theorem Sound.kept_of_purge (h : Sound s now st) {e : Event} (hpurge : e.isPurge = true) {b : Bucket}
    (hb : b ∈ st.rows) (hcurrent : windowStart s e.time = b.windowStartedAt) : b ∈ (next s st e).rows := by
  obtain ⟨-, kept, hrows, hexpired⟩ := rows_of_purge (s := s) hpurge st
  rw [hrows]
  refine List.mem_filter.mpr ⟨hb, ?_⟩
  by_contra hgone
  have hle := hexpired b (by simpa using hgone)
  have hend := lt_windowEnd s e.time
  rw [h.expires b hb, ← hcurrent, two_mul, ← add_assoc] at hle
  exact ((lt_add_of_pos_right _ (windowLength_pos s)).trans_le hle).not_gt hend

theorem every_window_bounded (s : Settings) (henabled : s.enabled = true) (events : List Event)
    (hclock : events.Pairwise fun a b => a.time ≤ b.time) :
    (∀ key limit, rateLimit s key.channel = .ok limit →
      (∀ start, countIn s (run s events).log key start Verdict.isAllowed ≤ limit) ∧
        (∀ start, countBetween (run s events).log key start (start + windowLength s) Verdict.isAllowed ≤ 2 * limit) ∧
        ∀ start, countIn s (run s events).log key start Verdict.isCounted =
          min (countIn s (run s events).log key start Verdict.isMade) countMaximum) ∧
      (∀ b ∈ (run s events).rows,
        b.requestCount = min (countIn s (run s events).log b.key b.windowStartedAt Verdict.isMade) countMaximum ∧
          b.deniedCount = countIn s (run s events).log b.key b.windowStartedAt Verdict.isDenied) ∧
      (∀ key limit now, rateLimit s key.channel = .ok limit → (∀ e ∈ events, e.time ≤ now) →
        0 < countIn s (run s events).log key (windowStart s now) Verdict.isMade →
        ∃ b ∈ (run s events).rows, b.slot = (key, windowStart s now)) ∧
      ∀ e, e.isPurge = true → ∀ b ∈ (run s events).rows, windowStart s e.time = b.windowStartedAt →
        b ∈ (next s (run s events) e).rows := by
  obtain ⟨now, hnow⟩ : ∃ now, ∀ e ∈ events, e.time ≤ now := by
    obtain ⟨now, hmax⟩ := (events.map Event.time).toFinset.bddAbove
    exact ⟨now, fun e he => hmax (by simpa using ⟨e, he, rfl⟩)⟩
  have hsound := sound_run henabled hclock hnow
  refine ⟨fun key limit hlimit => ⟨hsound.allowed_le hlimit, hsound.allowed_between_le hlimit,
    fun start => (hsound.law key start limit hlimit).counted⟩, fun b hb => hsound.row_counts hb, ?_,
    fun e hpurge b hb hcurrent => hsound.kept_of_purge hpurge hb hcurrent⟩
  exact fun key limit now hlimit hle hmade => (sound_run henabled hclock hle).exists_row hlimit hmade

namespace Sample

theorem window_bounds : 1 ≤ 60 ∧ 60 ≤ 3600 := by decide

theorem api_bounds : 1 ≤ 600 ∧ 600 ≤ 100000 := by decide

theorem mcp_bounds : 1 ≤ 300 ∧ 300 ≤ 100000 := by decide

theorem preauth_bounds : 1 ≤ 1200 ∧ 1200 ≤ 100000 := by decide

/-- The defaults. -/
def settings : Settings where
  enabled := true
  windowSeconds := 60
  apiRequests := 600
  mcpRequests := 300
  webRequests := 600
  preauthRequests := 1200
  window_bounds := window_bounds
  api_bounds := api_bounds
  mcp_bounds := mcp_bounds
  web_bounds := api_bounds
  preauth_bounds := preauth_bounds

def key : BucketKey where
  organizationId := some 1
  identityHash := List.replicate 64 'a'
  channel := "api".toList

def burst (n : ℕ) : List Event := List.replicate n (.request key 0 0)

theorem made_burst (n : ℕ) :
    countIn settings (run settings (burst n)).log key (windowStart settings 0) Verdict.isMade = n := by
  induction n with
  | zero => rfl
  | succ n ih =>
    rw [burst, List.replicate_succ', run, List.foldl_append]
    change countIn settings ((run settings (burst n)).log ++ [⟨key, 0, _⟩]) key (windowStart settings 0) _ = _
    rw [countIn_append, ih]
    simp [Verdict.isMade]

end Sample

theorem every_window_bounded_sample :
    countIn Sample.settings (run Sample.settings [.request Sample.key 0 0, .purge 1 0]).log Sample.key 0
      Verdict.isAllowed ≤ 600 :=
  ((every_window_bounded Sample.settings rfl [.request Sample.key 0 0, .purge 1 0] (by decide)).1
    Sample.key 600 (by decide)).1 0

/-- A burst of one request more than the column can count leaves a counter that is one short. -/
theorem count_stops_at_maximum :
    (Sample.burst (countMaximum + 1)).Pairwise (fun a b => a.time ≤ b.time) ∧
      ∃ b ∈ (run Sample.settings (Sample.burst (countMaximum + 1))).rows,
        b.requestCount ≠ countIn Sample.settings (run Sample.settings (Sample.burst (countMaximum + 1))).log b.key
          b.windowStartedAt Verdict.isMade := by
  have htime : ∀ e ∈ Sample.burst (countMaximum + 1), e.time = 0 := fun e he => by
    rw [List.eq_of_mem_replicate he]
    rfl
  have hclock : (Sample.burst (countMaximum + 1)).Pairwise fun a b => a.time ≤ b.time :=
    List.pairwise_replicate.mpr (.inr le_rfl)
  have hsound := sound_run (s := Sample.settings) rfl hclock fun e he => (htime e he).le
  have hmade := Sample.made_burst (countMaximum + 1)
  obtain ⟨b, hb, hslot⟩ := hsound.exists_row (show rateLimit Sample.settings Sample.key.channel = .ok 600 by decide)
    (by rw [hmade]; exact Nat.succ_pos _)
  obtain ⟨hkey, hstart⟩ := Prod.mk.inj hslot
  refine ⟨hclock, b, hb, ?_⟩
  rw [(hsound.row_counts hb).1, hkey, hstart, hmade]
  exact Nat.ne_of_lt (Nat.lt_succ_of_le (min_le_right _ _))

end Anva.Limits
