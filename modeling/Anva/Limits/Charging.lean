import Anva.Limits.Windows

/-! How `entrypoints/mcp.py` charges the authentications of one HTTP request: a cell of
the request keeps what a discovery was answered, and the first tool handler uses it in
place of a call of its own. -/

namespace Anva.Limits

/-! ### One request -/

/-- `_ActorRateKey`. -/
structure ActorRateKey where
  organizationId : Uuid
  credentialId : Option Uuid
  actorId : Text
deriving DecidableEq, Repr

/-- `_ActorRateRequestState`; the result of a discovery is the `retry_after` of its denial. -/
structure ActorRateRequestState where
  handlerKeys : List ActorRateKey
  discoveryResults : List (ActorRateKey × Option ℤ)
  consumedDiscoveryKeys : List ActorRateKey
deriving DecidableEq, Repr

/-- `_actor_rate_kind`. -/
inductive RateKind where
  | discovery
  | handler
deriving DecidableEq, Repr

/-- What `enforce_rate_limit` answers to the calls for one actor in one window, with the
`retry_after` of each denial: once it has denied, it denies. -/
structure WindowAnswers where
  answer : ℕ → Option ℤ
  denies : ∀ i j, i ≤ j → answer i ≠ none → answer j ≠ none

/-- The cell of a request, and the calls of `enforce_rate_limit` it has made. -/
structure Charging where
  cell : ActorRateRequestState
  calls : ℕ
deriving DecidableEq, Repr

def freshCharging : Charging := ⟨⟨[], [], []⟩, 0⟩

section

variable (answers : WindowAnswers) (key : ActorRateKey)

/-- A call of `enforce_rate_limit`, with the `retry_after` that it raises. -/
def enforce (c : Charging) : Charging × Option ℤ := ({ c with calls := c.calls + 1 }, answers.answer c.calls)

/-- `_actor` of a handler. -/
def authenticateHandler (c : Charging) : Charging × Option ℤ :=
  let c := { c with cell.handlerKeys := key :: c.cell.handlerKeys }
  match c.cell.discoveryResults.lookup key with
  | some result =>
    if key ∈ c.cell.consumedDiscoveryKeys then enforce answers c
    else ({ c with cell.consumedDiscoveryKeys := key :: c.cell.consumedDiscoveryKeys }, result)
  | none => enforce answers c

/-- `_actor` of a discovery. -/
def authenticateDiscovery (c : Charging) : Charging × Option ℤ :=
  if key ∈ c.cell.handlerKeys then (c, none)
  else
    match c.cell.discoveryResults.lookup key with
    | some result => (c, result)
    | none =>
      let (c, result) := enforce answers c
      ({ c with cell.discoveryResults := (key, result) :: c.cell.discoveryResults }, result)

/-- `_actor` within a request: the request afterwards, and the `retry_after` of the
`RateLimitExceededError` it raises, if it raises one. -/
def authenticate (c : Charging) : RateKind → Charging × Option ℤ
  | .handler => authenticateHandler answers key c
  | .discovery => authenticateDiscovery answers key c

/-- The request after a sequence of authentications of one actor. -/
def charged (kinds : List RateKind) : Charging := kinds.foldl (fun c kind => (authenticate answers key c kind).1) freshCharging

/-! ### What a request owes -/

/-- The calls are exact, and once the limiter has denied no authentication succeeds. -/
structure ChargedExactly (kinds : List RateKind) : Prop where
  calls : (charged answers key kinds).calls = max (kinds.count .handler) (if .discovery ∈ kinds then 1 else 0)
  denied : ∀ before kind rest, kinds = before ++ kind :: rest →
    (∃ i < (charged answers key before).calls, answers.answer i ≠ none) →
    (authenticate answers key (charged answers key before) kind).2 ≠ none

end

section

variable {answers : WindowAnswers} {key : ActorRateKey} {kinds : List RateKind} {c : Charging}

/-- The cell after a sequence of authentications. -/
structure Charged (answers : WindowAnswers) (key : ActorRateKey) (kinds : List RateKind) (c : Charging) : Prop where
  calls : c.calls = max (kinds.count .handler) (if .discovery ∈ kinds then 1 else 0)
  handlers : key ∈ c.cell.handlerKeys ↔ .handler ∈ kinds
  results : c.cell.discoveryResults.lookup key = if kinds.head? = some .discovery then some (answers.answer 0) else none
  consumed : key ∈ c.cell.consumedDiscoveryKeys ↔ kinds.head? = some .discovery ∧ .handler ∈ kinds

theorem charged_append (kind : RateKind) :
    charged answers key (kinds ++ [kind]) = (authenticate answers key (charged answers key kinds) kind).1 := by
  rw [charged, List.foldl_append]
  rfl

theorem handler_mem (h : kinds.head? ≠ some .discovery) : kinds = [] ∨ .handler ∈ kinds := by
  cases kinds with
  | nil => exact Or.inl rfl
  | cons kind kinds =>
    cases kind with
    | handler => exact Or.inr List.mem_cons_self
    | discovery => exact absurd rfl h

theorem discovery_mem (h : kinds.head? = some .discovery) : .discovery ∈ kinds := List.mem_of_mem_head? h

theorem handler_cases (h : Charged answers key kinds c) :
    (kinds.head? = some .discovery ∧ .handler ∉ kinds ∧
      authenticate answers key c .handler =
        (⟨{ c.cell with handlerKeys := key :: c.cell.handlerKeys
                        consumedDiscoveryKeys := key :: c.cell.consumedDiscoveryKeys }, c.calls⟩, answers.answer 0)) ∨
    ((kinds.head? ≠ some .discovery ∨ .handler ∈ kinds) ∧
      authenticate answers key c .handler =
        (⟨{ c.cell with handlerKeys := key :: c.cell.handlerKeys }, c.calls + 1⟩, answers.answer c.calls)) := by
  have hresults := h.results
  have hconsumed := h.consumed
  by_cases hhead : kinds.head? = some .discovery
  · rw [if_pos hhead] at hresults
    by_cases hhandler : .handler ∈ kinds
    · refine Or.inr ⟨Or.inr hhandler, ?_⟩
      rw [authenticate, authenticateHandler]
      simp only [hresults, hconsumed.mpr ⟨hhead, hhandler⟩, if_true, enforce]
    · refine Or.inl ⟨hhead, hhandler, ?_⟩
      have hnot : key ∉ c.cell.consumedDiscoveryKeys := fun hmem => hhandler (hconsumed.mp hmem).2
      rw [authenticate, authenticateHandler]
      simp only [hresults, hnot, if_false]
  · rw [if_neg hhead] at hresults
    refine Or.inr ⟨Or.inl hhead, ?_⟩
    rw [authenticate, authenticateHandler]
    simp only [hresults, enforce]

theorem discovery_cases (h : Charged answers key kinds c) :
    (.handler ∈ kinds ∧ authenticate answers key c .discovery = (c, none)) ∨
    (.handler ∉ kinds ∧ kinds.head? = some .discovery ∧
      authenticate answers key c .discovery = (c, answers.answer 0)) ∨
    (kinds = [] ∧ authenticate answers key c .discovery =
      (⟨{ c.cell with discoveryResults := (key, answers.answer c.calls) :: c.cell.discoveryResults }, c.calls + 1⟩,
        answers.answer c.calls)) := by
  have hresults := h.results
  by_cases hhandler : .handler ∈ kinds
  · refine Or.inl ⟨hhandler, ?_⟩
    rw [authenticate, authenticateDiscovery, if_pos (h.handlers.mpr hhandler)]
  · have hnot : key ∉ c.cell.handlerKeys := fun hmem => hhandler (h.handlers.mp hmem)
    refine Or.inr ?_
    by_cases hhead : kinds.head? = some .discovery
    · rw [if_pos hhead] at hresults
      refine Or.inl ⟨hhandler, hhead, ?_⟩
      rw [authenticate, authenticateDiscovery, if_neg hnot]
      simp only [hresults]
    · rw [if_neg hhead] at hresults
      refine Or.inr ⟨(handler_mem hhead).resolve_right hhandler, ?_⟩
      rw [authenticate, authenticateDiscovery, if_neg hnot]
      simp only [hresults, enforce]

theorem Charged.step (h : Charged answers key kinds c) (kind : RateKind) :
    Charged answers key (kinds ++ [kind]) (authenticate answers key c kind).1 := by
  have hcalls := h.calls
  have hresults := h.results
  cases kind with
  | handler =>
    have hcount : (kinds ++ [RateKind.handler]).count .handler = kinds.count .handler + 1 := by simp
    have hmem : .discovery ∈ kinds ++ [RateKind.handler] ↔ .discovery ∈ kinds := by simp
    have hhandler : RateKind.handler ∈ kinds ++ [.handler] := by simp
    have hhead : (kinds ++ [RateKind.handler]).head? = some .discovery ↔ kinds.head? = some .discovery := by
      cases kinds with
      | nil => decide
      | cons kind kinds => rfl
    rcases handler_cases h with ⟨hfirst, hnone, hauth⟩ | ⟨hother, hauth⟩
    · have hzero : kinds.count .handler = 0 := List.count_eq_zero.mpr hnone
      rw [hauth]
      refine ⟨?_, iff_of_true List.mem_cons_self hhandler, ?_, iff_of_true List.mem_cons_self ⟨hhead.mpr hfirst, hhandler⟩⟩
      · rw [if_pos (hmem.mpr (discovery_mem hfirst))]
        rw [if_pos (discovery_mem hfirst)] at hcalls
        change c.calls = _
        omega
      · rw [if_pos (hhead.mpr hfirst)]
        rw [if_pos hfirst] at hresults
        exact hresults
    · rw [hauth]
      refine ⟨?_, iff_of_true List.mem_cons_self hhandler, ?_, ?_⟩
      · change c.calls + 1 = _
        rw [hcount]
        by_cases hd : .discovery ∈ kinds
        · rw [if_pos hd] at hcalls
          rw [if_pos (hmem.mpr hd)]
          have hpos : 0 < kinds.count .handler := by
            rcases hother with hhead' | hin
            · rcases handler_mem hhead' with rfl | hin
              · cases hd
              · exact List.count_pos_iff.mpr hin
            · exact List.count_pos_iff.mpr hin
          omega
        · rw [if_neg hd] at hcalls
          rw [if_neg fun hin => hd (hmem.mp hin)]
          omega
      · change c.cell.discoveryResults.lookup key = _
        rw [hresults]
        exact if_congr hhead.symm rfl rfl
      · change key ∈ c.cell.consumedDiscoveryKeys ↔ _
        rw [h.consumed, hhead]
        refine and_congr_right fun hfirst => iff_of_true ?_ hhandler
        exact hother.resolve_left fun hne => hne hfirst
  | discovery =>
    have hcount : (kinds ++ [RateKind.discovery]).count .handler = kinds.count .handler := by simp
    have hdiscovery : RateKind.discovery ∈ kinds ++ [.discovery] := by simp
    have hhandlers : .handler ∈ kinds ++ [RateKind.discovery] ↔ .handler ∈ kinds := by simp
    rcases discovery_cases h with ⟨hhandler, hauth⟩ | ⟨hnone, hfirst, hauth⟩ | ⟨rfl, hauth⟩
    · have hne : kinds ≠ [] := List.ne_nil_of_mem hhandler
      have hpos : 0 < kinds.count .handler := List.count_pos_iff.mpr hhandler
      have hhead : (kinds ++ [RateKind.discovery]).head? = kinds.head? := List.head?_append_of_ne_nil _ hne
      rw [hauth]
      refine ⟨?_, h.handlers.trans hhandlers.symm, by rw [hhead]; exact hresults, ?_⟩
      · rw [hcount, if_pos hdiscovery]
        change c.calls = _
        split_ifs at hcalls
        · omega
        · omega
      · rw [hhead, hhandlers]
        exact h.consumed
    · have hhead : (kinds ++ [RateKind.discovery]).head? = kinds.head? :=
        List.head?_append_of_ne_nil _ (List.ne_nil_of_mem (discovery_mem hfirst))
      rw [hauth]
      refine ⟨?_, h.handlers.trans hhandlers.symm, by rw [hhead]; exact hresults, ?_⟩
      · rw [hcount, if_pos hdiscovery]
        rw [if_pos (discovery_mem hfirst)] at hcalls
        exact hcalls
      · rw [hhead, hhandlers]
        exact h.consumed
    · have hzero : c.calls = 0 := by simpa using hcalls
      rw [hauth]
      refine ⟨?_, ?_, ?_, ?_⟩
      · change c.calls + 1 = _
        rw [hzero]
        decide
      · rw [hhandlers]
        exact h.handlers
      · change List.lookup key ((key, answers.answer c.calls) :: _) = _
        rw [List.lookup_cons_self, hzero]
        rfl
      · change key ∈ c.cell.consumedDiscoveryKeys ↔ _
        rw [hhandlers]
        exact iff_of_false (fun hin => absurd (h.consumed.mp hin).2 (List.not_mem_nil)) fun hin => absurd hin.2 List.not_mem_nil

theorem charged_sound (kinds : List RateKind) : Charged answers key kinds (charged answers key kinds) := by
  induction kinds using List.reverseRecOn with
  | nil =>
    exact ⟨rfl, iff_of_false List.not_mem_nil List.not_mem_nil, rfl,
      iff_of_false List.not_mem_nil fun h => List.not_mem_nil h.2⟩
  | append_singleton kinds kind ih =>
    rw [charged_append]
    exact ih.step kind

theorem denied_answer {i j : ℕ} (h : answers.answer i ≠ none) (hij : i ≤ j) : answers.answer j ≠ none :=
  answers.denies i j hij h

/-- The charges are exact if and only if no discovery comes behind a handler whose call the
limiter has denied. -/
theorem charging_exact_iff (answers : WindowAnswers) (key : ActorRateKey) (kinds : List RateKind) :
    ChargedExactly answers key kinds ↔
      ∀ before rest, kinds = before ++ .discovery :: rest → 0 < before.count .handler →
        answers.answer (before.count .handler - 1) = none := by
  constructor
  · intro hexact before rest hsplit hpos
    have hsound : Charged answers key before _ := charged_sound before
    have hhandler : .handler ∈ before := List.count_pos_iff.mp hpos
    by_contra hdenied
    have hcalls : before.count .handler ≤ (charged answers key before).calls := by
      rw [hsound.calls]
      exact le_max_left _ _
    refine hexact.denied before .discovery rest hsplit ⟨before.count .handler - 1, by omega, hdenied⟩ ?_
    rcases discovery_cases hsound with ⟨-, hauth⟩ | ⟨hnone, -, -⟩ | ⟨rfl, -⟩
    · rw [hauth]
    · exact absurd hhandler hnone
    · cases hhandler
  · intro hallowed
    refine ⟨(charged_sound kinds).calls, ?_⟩
    rintro before kind rest hsplit ⟨i, hi, hdenied⟩
    have hsound : Charged answers key before _ := charged_sound before
    have hcalls := hsound.calls
    cases kind with
    | handler =>
      rcases handler_cases hsound with ⟨hfirst, hnone, hauth⟩ | ⟨-, hauth⟩
      · have hzero : before.count .handler = 0 := List.count_eq_zero.mpr hnone
        rw [if_pos (discovery_mem hfirst), hzero] at hcalls
        rw [hauth]
        obtain rfl : i = 0 := by omega
        exact hdenied
      · rw [hauth]
        exact denied_answer hdenied hi.le
    | discovery =>
      rcases discovery_cases hsound with ⟨hhandler, -⟩ | ⟨hnone, hfirst, hauth⟩ | ⟨rfl, -⟩
      · have hpos : 0 < before.count .handler := List.count_pos_iff.mpr hhandler
        have hlast := hallowed before rest hsplit hpos
        have hle : i ≤ before.count .handler - 1 := by
          split_ifs at hcalls
          · omega
          · omega
        exact absurd hlast (denied_answer hdenied hle)
      · have hzero : before.count .handler = 0 := List.count_eq_zero.mpr hnone
        rw [if_pos (discovery_mem hfirst), hzero] at hcalls
        rw [hauth]
        obtain rfl : i = 0 := by omega
        exact hdenied
      · have hnothing : (charged answers key []).calls = 0 := rfl
        omega

end

theorem denies_always : ∀ i j : ℕ, i ≤ j → (fun _ : ℕ => some (60 : ℤ)) i ≠ none → (fun _ : ℕ => some (60 : ℤ)) j ≠ none :=
  fun _ _ _ h => h

/-- A limiter whose window is used up. -/
def usedUp : WindowAnswers where
  answer _ := some 60
  denies := denies_always

/-- A handler is denied, and the discovery after it succeeds. -/
theorem discovery_behind_denied_handler :
    ¬ ∀ (answers : WindowAnswers) (key : ActorRateKey) (kinds : List RateKind), ChargedExactly answers key kinds := by
  intro hall
  have hdenied := (hall usedUp ⟨1, some 2, []⟩ [.handler, .discovery]).denied [.handler] .discovery [] rfl
    ⟨0, by decide, by decide⟩
  exact hdenied (by decide)

/-! ### The answers of the limiter -/

section

variable {s : Settings}

/-- The requests of a key in a window, as they were made. -/
def entriesIn (s : Settings) (log : List Entry) (key : BucketKey) (start : Time) : List Entry :=
  log.filter fun e => e.key = key ∧ windowStart s e.current = start

theorem countIn_eq (log : List Entry) (key : BucketKey) (start : Time) (ended : Verdict → Bool) :
    countIn s log key start ended = (entriesIn s log key start).countP fun e => ended e.verdict := by
  rw [countIn, entriesIn, List.countP_filter]
  refine List.countP_congr fun e _ => ?_
  simp only [Bool.decide_and, Bool.decide_eq_true, Bool.and_eq_true, decide_eq_true_eq]
  tauto

theorem Law.allowed_before {log : List Entry} {e : Entry} {limit : ℕ}
    (hbefore : Law s log e.key (windowStart s e.current) limit)
    (hafter : Law s (log ++ [e]) e.key (windowStart s e.current) limit) (hallowed : e.verdict.isAllowed = true) :
    ∀ d ∈ entriesIn s log e.key (windowStart s e.current), d.verdict.isAllowed = true := by
  have hcounted : e.verdict.isCounted = true := by simp [Verdict.isCounted, hallowed]
  have hmade := countIn_same (s := s) log e Verdict.isMade
  have hcount := countIn_same (s := s) log e Verdict.isCounted
  have hallow := countIn_same (s := s) log e Verdict.isAllowed
  rw [if_pos (show e.verdict.isMade = true from rfl)] at hmade
  rw [if_pos hcounted] at hcount
  rw [if_pos hallowed] at hallow
  have hcounts := hbefore.counted
  have hcounts' := hafter.counted
  have hallows := hbefore.allowed
  have hallows' := hafter.allowed
  have hall : countIn s log e.key (windowStart s e.current) Verdict.isAllowed =
      countIn s log e.key (windowStart s e.current) Verdict.isMade := by omega
  rw [countIn_eq, countIn_eq] at hall
  exact List.countP_eq_length.mp (hall.trans (List.countP_eq_length.mpr fun _ _ => rfl))

theorem allowed_pairwise (henabled : s.enabled = true) {key : BucketKey} {limit : ℕ}
    (hlimit : rateLimit s key.channel = .ok limit) (start : Time) {events : List Event}
    (hclock : events.Pairwise fun a b => a.time ≤ b.time) :
    (entriesIn s (run s events).log key start).Pairwise
      fun d e => e.verdict.isAllowed = true → d.verdict.isAllowed = true := by
  induction events using List.reverseRecOn with
  | nil => exact .nil
  | append_singleton events e ih =>
    obtain ⟨hbefore, -, hlast⟩ := List.pairwise_append.mp hclock
    have hlog := ih hbefore
    have hpast := sound_run henabled hbefore fun a ha => hlast a ha e (List.mem_singleton_self e)
    have hevents : ∀ a ∈ events ++ [e], a.time ≤ e.time := by
      intro a ha
      rcases List.mem_append.mp ha with ha | ha
      · exact hlast a ha e (List.mem_singleton_self e)
      · rw [List.mem_singleton.mp ha]
    have hsound := sound_run henabled hclock hevents
    have hrun : run s (events ++ [e]) = next s (run s events) e := by rw [run, List.foldl_append]; rfl
    rw [hrun] at hsound ⊢
    cases e with
    | purge organizationId now => exact hlog
    | purgePreAuth limit locked now => exact hlog
    | request k id current =>
      rw [next, entriesIn, List.filter_append, ← entriesIn, List.pairwise_append]
      refine ⟨hlog, List.Pairwise.sublist List.filter_sublist (List.pairwise_singleton _ _), fun d hd entry hentry => ?_⟩
      obtain ⟨hmem, hin⟩ := List.mem_filter.mp hentry
      obtain rfl := List.mem_singleton.mp hmem
      obtain ⟨rfl, rfl⟩ := of_decide_eq_true hin
      exact fun hallowed => (hpast.law _ _ limit hlimit).allowed_before (hsound.law _ _ limit hlimit) hallowed d hd

/-- The requests of one key in one window are answered as `WindowAnswers` says. -/
theorem window_answers (henabled : s.enabled = true) {key : BucketKey} {limit : ℕ}
    (hlimit : rateLimit s key.channel = .ok limit) (start : Time) {events : List Event}
    (hclock : events.Pairwise fun a b => a.time ≤ b.time) :
    ∃ answers : WindowAnswers, ∀ i e, (entriesIn s (run s events).log key start)[i]? = some e →
      (answers.answer i = none ↔ e.verdict.isAllowed = true) := by
  have hpairwise := allowed_pairwise henabled hlimit start hclock
  set entries := entriesIn s (run s events).log key start
  have hnone : ∀ i, (if (entries.take (i + 1)).all (·.verdict.isAllowed) then none else some (1 : ℤ)) = none ↔
      ∀ d ∈ entries.take (i + 1), d.verdict.isAllowed = true := fun i => by simp
  refine ⟨⟨fun i => if (entries.take (i + 1)).all (·.verdict.isAllowed) then none else some 1, ?_⟩, ?_⟩
  · intro i j hij hdenied hallowed
    refine hdenied ((hnone i).mpr fun d hd => ?_)
    exact (hnone j).mp hallowed d (List.take_subset_take_left entries (by omega) hd)
  · intro i e he
    rw [hnone i]
    obtain ⟨hi, rfl⟩ := List.getElem?_eq_some_iff.mp he
    constructor
    · intro hall
      refine hall _ ?_
      rw [List.take_succ_eq_append_getElem hi]
      exact List.mem_append_right _ (List.mem_singleton_self _)
    · intro hallowed d hd
      rw [List.take_succ_eq_append_getElem hi] at hd
      rcases List.mem_append.mp hd with hd | hd
      · obtain ⟨j, hj, rfl⟩ := List.mem_take_iff_getElem.mp hd
        exact List.pairwise_iff_getElem.mp hpairwise j i (by omega) hi (by omega) hallowed
      · rw [List.mem_singleton.mp hd]
        exact hallowed

end

theorem window_answers_burst : ∃ answers : WindowAnswers, ∀ i e,
    (entriesIn Sample.settings (run Sample.settings (Sample.burst 3)).log Sample.key 0)[i]? = some e →
      (answers.answer i = none ↔ e.verdict.isAllowed = true) :=
  window_answers rfl (show rateLimit Sample.settings Sample.key.channel = .ok 600 by decide) 0
    (List.pairwise_replicate.mpr (.inr le_rfl))

end Anva.Limits
