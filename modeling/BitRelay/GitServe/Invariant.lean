import BitRelay.GitServe.Session

/-!
# The invariant of a git serve session

Every call has one role: a git request in the queue, a poll that waits, or a call
that awaits its body. `Sound` says so, and that every timer belongs to what it
times out.

Results:
1. `sound_step`: every step keeps `Sound`.
2. `sound_after`: it holds after every run.
-/

namespace BitRelay

namespace GitServe

/-- What a timer with this task refers to. -/
def TaskSound (H : GitServeHost) (s : GitServe) : TimerTask → Prop
  | .closeSession => True
  | .requestTimeout requestId call => requestId = H.requestId call ∧ call ∈ s.queued
  | .pollTimeout call => call ∉ s.queued ∧ call < s.nextCall ∧ s.reading.get? call = none

/-- A request in the queue has its own id, its promise is open, and its timer is armed. -/
def RequestSound (H : GitServeHost) (s : GitServe) (requestId : String) (p : PendingGitRequest) :
    Prop :=
  requestId = H.requestId p.call ∧ p.call ∈ s.queued ∧ s.answers.get? p.call = none ∧
    ∃ due, s.timers.get? p.timeoutId = some ⟨due, .requestTimeout requestId p.call⟩

/-- A poll that waits is no git request, and its timer is its own. -/
def WaiterSound (s : GitServe) (w : PollWaiter) : Prop :=
  w.call ∉ s.queued ∧ w.call < s.nextCall ∧ s.reading.get? w.call = none ∧
    w.timeoutId < s.nextTimer ∧
    ∀ t, s.timers.get? w.timeoutId = some t → t.task = .pollTimeout w.call

structure Sound (H : GitServeHost) (s : GitServe) : Prop where
  pending : ∀ requestId p, s.state.pendingRequests.get? requestId = some p →
    RequestSound H s requestId p
  waiters : ∀ w ∈ s.state.pollWaiters, WaiterSound s w
  sessionTimer : ∀ id, s.sessionTimer = some id →
    id < s.nextTimer ∧ ∀ t, s.timers.get? id = some t → t.task = .closeSession
  timers : ∀ id t, s.timers.get? id = some t → id < s.nextTimer ∧ TaskSound H s t.task
  reading : ∀ call request, s.reading.get? call = some request →
    call < s.nextCall ∧ call ∉ s.queued ∧ s.answers.get? call = none
  queued : ∀ call ∈ s.queued, call < s.nextCall
  answers : ∀ call answer, s.answers.get? call = some answer → call < s.nextCall

/-- A call that has a number and no role. -/
structure Fresh (s : GitServe) (call : Nat) : Prop where
  lt : call < s.nextCall
  not_queued : call ∉ s.queued
  unanswered : s.answers.get? call = none
  not_reading : s.reading.get? call = none
  not_waiting : ∀ w ∈ s.state.pollWaiters, w.call ≠ call
  not_timed : ∀ id due, s.timers.get? id ≠ some ⟨due, .pollTimeout call⟩

/-- A session without a past is sound, whatever the number of its next call. -/
theorem sound_start (H : GitServeHost) (nextCall : Nat) :
    Sound H { init with nextCall := nextCall } where
  pending := nofun
  waiters := nofun
  sessionTimer := nofun
  timers := nofun
  reading := nofun
  queued := nofun
  answers := nofun

theorem sound_init (H : GitServeHost) : Sound H init := sound_start H init.nextCall

/-! ## Parts of a step -/

namespace SoundLemmas

variable {H : GitServeHost} {s : GitServe}

/-- Fields that `Sound` does not read. -/
theorem sound_state (h : Sound H s) (active : Bool) (token : String) (registeredAt : Option Nat) :
    Sound H { s with state := { s.state with
      active := active, sessionToken := token, registeredAt := registeredAt } } :=
  ⟨h.pending, h.waiters, h.sessionTimer, h.timers, h.reading, h.queued, h.answers⟩

theorem sound_events (h : Sound H s) (events : List IncomingRefRelayEvent) :
    Sound H { s with events := events } :=
  ⟨h.pending, h.waiters, h.sessionTimer, h.timers, h.reading, h.queued, h.answers⟩

theorem sound_settle (h : Sound H s) {call : Nat} (answer : GitAnswer) (hlt : call < s.nextCall)
    (hreading : s.reading.get? call = none)
    (hpending : ∀ requestId p, s.state.pendingRequests.get? requestId = some p → p.call ≠ call) :
    Sound H (s.settle call answer) := by
  refine ⟨fun requestId p hp => ?_, h.waiters, h.sessionTimer, h.timers, fun c r hr => ?_, h.queued,
    fun c a ha => ?_⟩
  · obtain ⟨hid, hqueued, hopen, harmed⟩ := h.pending requestId p hp
    refine ⟨hid, hqueued, ?_, harmed⟩
    change (s.answers.setNew call answer).get? p.call = none
    rw [OrdMap.get?_setNew, if_neg (hpending requestId p hp)]
    exact hopen
  · obtain ⟨hc, hqueued, hopen⟩ := h.reading c r hr
    refine ⟨hc, hqueued, ?_⟩
    have hne : c ≠ call := by
      rintro rfl
      exact absurd (hreading.symm.trans hr) nofun
    change (s.answers.setNew call answer).get? c = none
    rw [OrdMap.get?_setNew, if_neg hne]
    exact hopen
  · change (s.answers.setNew call answer).get? c = some a at ha
    rw [OrdMap.get?_setNew] at ha
    by_cases hc : c = call
    · rw [hc]
      exact hlt
    · rw [if_neg hc] at ha
      exact h.answers c a ha

/-- A call without a role may be settled. -/
theorem sound_settle_fresh (h : Sound H s) {call : Nat} (hfresh : Fresh s call)
    (answer : GitAnswer) : Sound H (s.settle call answer) :=
  sound_settle h answer hfresh.lt hfresh.not_reading fun requestId p hp heq =>
    hfresh.not_queued (heq ▸ (h.pending requestId p hp).2.1)

theorem sound_clearTimeout (h : Sound H s) (id : Nat)
    (hpending : ∀ requestId p, s.state.pendingRequests.get? requestId = some p →
      p.timeoutId ≠ id) : Sound H (s.clearTimeout id) := by
  have hget : ∀ id' t, (s.clearTimeout id).timers.get? id' = some t →
      s.timers.get? id' = some t := by
    intro id' t ht
    change (s.timers.erase id).get? id' = some t at ht
    rw [OrdMap.get?_erase] at ht
    split at ht
    · cases ht
    · exact ht
  refine ⟨fun requestId p hp => ?_, fun w hw => ?_, fun id' hid => ?_, fun id' t ht =>
    h.timers id' t (hget id' t ht), h.reading, h.queued, h.answers⟩
  · obtain ⟨hid, hqueued, hopen, due, hdue⟩ := h.pending requestId p hp
    refine ⟨hid, hqueued, hopen, due, ?_⟩
    change (s.timers.erase id).get? p.timeoutId = _
    rw [OrdMap.get?_erase, if_neg (hpending requestId p hp)]
    exact hdue
  · obtain ⟨hqueued, hlt, hreading, htimer, htask⟩ := h.waiters w hw
    exact ⟨hqueued, hlt, hreading, htimer, fun t ht => htask t (hget _ t ht)⟩
  · obtain ⟨hlt, htask⟩ := h.sessionTimer id' hid
    exact ⟨hlt, fun t ht => htask t (hget id' t ht)⟩

theorem sound_setTimeout (h : Sound H s) (due : Nat) (task : TimerTask) (htask : TaskSound H s task) :
    Sound H (s.setTimeout due task) := by
  have hget : ∀ id, id ≠ s.nextTimer →
      (s.setTimeout due task).timers.get? id = s.timers.get? id := by
    intro id hne
    change (s.timers.set s.nextTimer _).get? id = _
    rw [OrdMap.get?_set_of_ne _ hne]
  refine ⟨fun requestId p hp => ?_, fun w hw => ?_, fun id hid => ?_, fun id t ht => ?_, h.reading,
    h.queued, h.answers⟩
  · obtain ⟨hid, hqueued, hopen, due', hdue⟩ := h.pending requestId p hp
    refine ⟨hid, hqueued, hopen, due', ?_⟩
    rw [hget _ (h.timers _ _ hdue).1.ne]
    exact hdue
  · obtain ⟨hqueued, hlt, hreading, htimer, howns⟩ := h.waiters w hw
    refine ⟨hqueued, hlt, hreading, Nat.lt_succ_of_lt htimer, fun t ht => ?_⟩
    rw [hget _ htimer.ne] at ht
    exact howns t ht
  · obtain ⟨hlt, howns⟩ := h.sessionTimer id hid
    refine ⟨Nat.lt_succ_of_lt hlt, fun t ht => ?_⟩
    rw [hget _ hlt.ne] at ht
    exact howns t ht
  · by_cases hid : id = s.nextTimer
    · subst hid
      change (s.timers.set s.nextTimer ⟨due, task⟩).get? s.nextTimer = some t at ht
      rw [OrdMap.get?_set_self] at ht
      cases ht
      refine ⟨Nat.lt_succ_self _, ?_⟩
      cases task <;> exact htask
    · rw [hget id hid] at ht
      obtain ⟨hlt, hsound⟩ := h.timers id t ht
      refine ⟨Nat.lt_succ_of_lt hlt, ?_⟩
      cases htask' : t.task <;> rw [htask'] at hsound <;> exact hsound

theorem sound_deletePending (h : Sound H s) (requestId : String) :
    Sound H (s.deletePending requestId) := by
  refine ⟨fun id p hp => h.pending id p ?_, h.waiters, h.sessionTimer, h.timers, h.reading, h.queued,
    h.answers⟩
  change (s.state.pendingRequests.erase requestId).get? id = some p at hp
  rw [OrdMap.get?_erase] at hp
  split at hp
  · cases hp
  · exact hp

theorem sound_waiters (h : Sound H s) (waiters : List PollWaiter)
    (hsub : ∀ w ∈ waiters, WaiterSound s w) :
    Sound H { s with state := { s.state with pollWaiters := waiters } } :=
  ⟨h.pending, hsub, h.sessionTimer, h.timers, h.reading, h.queued, h.answers⟩

/-- Of the numbers of a sound session, the next one is fresh. -/
theorem fresh_nextCall (h : Sound H s) : Fresh { s with nextCall := s.nextCall + 1 } s.nextCall where
  lt := Nat.lt_succ_self _
  not_queued hmem := Nat.lt_irrefl _ (h.queued _ hmem)
  unanswered := by
    cases hget : s.answers.get? s.nextCall with
    | none => rfl
    | some a => exact absurd (h.answers _ a hget) (Nat.lt_irrefl _)
  not_reading := by
    cases hget : s.reading.get? s.nextCall with
    | none => rfl
    | some r => exact absurd (h.reading _ r hget).1 (Nat.lt_irrefl _)
  not_waiting w hw := (h.waiters w hw).2.1.ne
  not_timed id due ht := Nat.lt_irrefl _ (h.timers id _ ht).2.2.1

theorem sound_nextCall (h : Sound H s) : Sound H { s with nextCall := s.nextCall + 1 } := by
  refine ⟨h.pending, fun w hw => ?_, h.sessionTimer, fun id t ht => ?_, fun c r hr => ?_,
    fun c hc => Nat.lt_succ_of_lt (h.queued c hc), fun c a ha => Nat.lt_succ_of_lt (h.answers c a ha)⟩
  · obtain ⟨hqueued, hlt, hrest⟩ := h.waiters w hw
    exact ⟨hqueued, Nat.lt_succ_of_lt hlt, hrest⟩
  · obtain ⟨hlt, hsound⟩ := h.timers id t ht
    refine ⟨hlt, ?_⟩
    cases htask : t.task with
    | closeSession => trivial
    | requestTimeout requestId call =>
      rw [htask] at hsound
      exact hsound
    | pollTimeout call =>
      rw [htask] at hsound
      exact ⟨hsound.1, Nat.lt_succ_of_lt hsound.2.1, hsound.2.2⟩
  · obtain ⟨hlt, hrest⟩ := h.reading c r hr
    exact ⟨Nat.lt_succ_of_lt hlt, hrest⟩

/-- A fresh call starts to await its body. -/
theorem sound_startReading (h : Sound H s) {call : Nat} (hfresh : Fresh s call)
    (request : GitServeRequest) :
    Sound H { s with reading := s.reading.set call request } := by
  have hget : ∀ c, c ≠ call → s.reading.get? c = none →
      (s.reading.set call request).get? c = none := by
    intro c hne hc
    rw [OrdMap.get?_set_of_ne _ hne]
    exact hc
  refine ⟨h.pending, fun w hw => ?_, h.sessionTimer, fun id t ht => ?_, fun c r hr => ?_, h.queued,
    h.answers⟩
  · obtain ⟨hqueued, hlt, hreading, hrest⟩ := h.waiters w hw
    exact ⟨hqueued, hlt, hget _ (hfresh.not_waiting w hw) hreading, hrest⟩
  · obtain ⟨hlt, hsound⟩ := h.timers id t ht
    refine ⟨hlt, ?_⟩
    obtain ⟨due, task⟩ := t
    cases task with
    | closeSession => trivial
    | requestTimeout requestId c => exact hsound
    | pollTimeout c =>
      have hne : c ≠ call := by
        rintro rfl
        exact hfresh.not_timed id due ht
      exact ⟨hsound.1, hsound.2.1, hget c hne hsound.2.2⟩
  · change (s.reading.set call request).get? c = some r at hr
    rw [OrdMap.get?_set] at hr
    by_cases hc : c = call
    · rw [hc]
      exact ⟨hfresh.lt, hfresh.not_queued, hfresh.unanswered⟩
    · rw [if_neg hc] at hr
      exact h.reading c r hr

theorem get?_erase_none {m : OrdMap Nat GitServeRequest} {call c : Nat} (h : m.get? c = none) :
    (m.erase call).get? c = none := by
  rw [OrdMap.get?_erase, h, ite_self]

theorem sound_stopReading (h : Sound H s) (call : Nat) :
    Sound H { s with reading := s.reading.erase call } := by
  refine ⟨h.pending, fun w hw => ?_, h.sessionTimer, fun id t ht => ?_, fun c r hr => ?_, h.queued,
    h.answers⟩
  · obtain ⟨hqueued, hlt, hreading, hrest⟩ := h.waiters w hw
    exact ⟨hqueued, hlt, get?_erase_none hreading, hrest⟩
  · obtain ⟨hlt, hsound⟩ := h.timers id t ht
    refine ⟨hlt, ?_⟩
    obtain ⟨due, task⟩ := t
    cases task with
    | closeSession => trivial
    | requestTimeout requestId c => exact hsound
    | pollTimeout c => exact ⟨hsound.1, hsound.2.1, get?_erase_none hsound.2.2⟩
  · change (s.reading.erase call).get? c = some r at hr
    rw [OrdMap.get?_erase] at hr
    split at hr
    · cases hr
    · exact h.reading c r hr

/-- A call whose body is there has no role left. -/
theorem fresh_stopReading (h : Sound H s) {call : Nat} {request : GitServeRequest}
    (hread : s.reading.get? call = some request) :
    Fresh { s with reading := s.reading.erase call } call := by
  obtain ⟨hlt, hqueued, hopen⟩ := h.reading call request hread
  refine ⟨hlt, hqueued, hopen, ?_, fun w hw heq => ?_, fun id due ht => ?_⟩
  · change (s.reading.erase call).get? call = none
    rw [OrdMap.get?_erase, if_pos rfl]
  · have hnone := (h.waiters w hw).2.2.1
    rw [heq, hread] at hnone
    cases hnone
  · have hnone := (h.timers id _ ht).2.2.2
    rw [hread] at hnone
    cases hnone

/-! ## Handlers -/

theorem sound_clearSessionTimer (h : Sound H s) {id : Nat} (hid : s.sessionTimer = some id) :
    Sound H (s.clearTimeout id) := by
  refine sound_clearTimeout h _ fun requestId p hp heq => ?_
  obtain ⟨-, -, -, due, hdue⟩ := h.pending requestId p hp
  rw [heq] at hdue
  exact nomatch (h.sessionTimer id hid).2 _ hdue

theorem sound_resetSessionTimer (h : Sound H s) (now : Nat) :
    Sound H (s.resetSessionTimer H now) := by
  have hset : ∀ {s : GitServe}, Sound H s →
      Sound H { s.setTimeout (now + H.sessionTtlMs) .closeSession with
        sessionTimer := some s.nextTimer } := by
    intro s hs
    have hnext := sound_setTimeout hs (now + H.sessionTtlMs) .closeSession trivial
    refine ⟨hnext.pending, hnext.waiters, fun id hid => ?_, hnext.timers, hnext.reading,
      hnext.queued, hnext.answers⟩
    cases hid
    refine ⟨Nat.lt_succ_self _, fun t ht => ?_⟩
    change (s.timers.set s.nextTimer _).get? s.nextTimer = some t at ht
    rw [OrdMap.get?_set_self] at ht
    cases ht
    rfl
  unfold resetSessionTimer
  cases hid : s.sessionTimer with
  | none => exact hset h
  | some id => exact hset (sound_clearSessionTimer h hid)

theorem sound_handleRegister (h : Sound H s) {call : Nat} (hfresh : Fresh s call) (now : Nat) :
    Sound H (s.handleRegister H call now) := by
  have hreset := sound_resetSessionTimer
    (sound_state h true (H.sessionToken call) (some now)) now
  unfold handleRegister
  refine sound_settle hreset _ ?_ ?_ ?_
  all_goals
    unfold resetSessionTimer
    cases hid : s.sessionTimer
  · exact hfresh.lt
  · exact hfresh.lt
  · exact hfresh.not_reading
  · exact hfresh.not_reading
  · exact fun requestId p hp heq => hfresh.not_queued (heq ▸ (h.pending requestId p hp).2.1)
  · exact fun requestId p hp heq => hfresh.not_queued (heq ▸ (h.pending requestId p hp).2.1)

theorem sound_drain (h : Sound H s) : Sound H s.drainPendingToPollWaiters := by
  unfold drainPendingToPollWaiters
  split
  · exact h
  · next w rest hwaiters =>
    split
    · exact h
    · have hw := h.waiters w (hwaiters ▸ List.mem_cons_self)
      have hrest := sound_waiters h rest fun v hv =>
        h.waiters v (hwaiters ▸ List.mem_cons_of_mem w hv)
      refine sound_settle (sound_clearTimeout hrest _ fun requestId p hp heq => ?_) _ hw.2.1 hw.2.2.1
        fun requestId p hp heq => hw.1 (heq ▸ (h.pending requestId p hp).2.1)
      obtain ⟨-, -, -, due, hdue⟩ := h.pending requestId p hp
      rw [heq] at hdue
      exact nomatch hw.2.2.2.2 _ hdue

/-- A fresh call becomes a git request in the queue. -/
theorem sound_enqueue (h : Sound H s) {call : Nat} (hfresh : Fresh s call) (now : Nat)
    (request : Request) (gitPath : String) (bytes : Option Bytes) :
    Sound H (s.enqueue H call now request gitPath bytes) := by
  unfold enqueue
  have hmem : ∀ c, c ≠ call → c ∉ s.queued → c ∉ s.queued ++ [call] := by
    intro c hne hc hin
    rcases List.mem_append.mp hin with hin | hin
    · exact hc hin
    · exact hne (List.mem_singleton.mp hin)
  have htimer : ∀ id, id ≠ s.nextTimer → ∀ timer, (s.timers.set s.nextTimer timer).get? id =
      s.timers.get? id := fun id hne timer => OrdMap.get?_set_of_ne _ hne _
  refine ⟨fun requestId p hp => ?_, fun w hw => ?_, fun id hid => ?_, fun id t ht => ?_,
    fun c r hr => ?_, fun c hc => ?_, h.answers⟩
  · change (s.state.pendingRequests.set (H.requestId call) _).get? requestId = some p at hp
    rw [OrdMap.get?_set] at hp
    by_cases hid : requestId = H.requestId call
    · rw [if_pos hid] at hp
      cases hp
      refine ⟨hid, List.mem_append.mpr (.inr (List.mem_singleton.mpr rfl)), hfresh.unanswered,
        now + REQUEST_TIMEOUT_MS, ?_⟩
      rw [hid]
      exact OrdMap.get?_set_self _ _ _
    · rw [if_neg hid] at hp
      obtain ⟨hown, hqueued, hopen, due, hdue⟩ := h.pending requestId p hp
      refine ⟨hown, List.mem_append.mpr (.inl hqueued), hopen, due, ?_⟩
      exact (htimer _ (h.timers _ _ hdue).1.ne _).trans hdue
  · obtain ⟨hqueued, hlt, hreading, htimerLt, howns⟩ := h.waiters w hw
    refine ⟨hmem _ (hfresh.not_waiting w hw) hqueued, hlt, hreading, Nat.lt_succ_of_lt htimerLt,
      fun t ht => howns t ?_⟩
    exact (htimer _ htimerLt.ne _).symm.trans ht
  · obtain ⟨hlt, howns⟩ := h.sessionTimer id hid
    exact ⟨Nat.lt_succ_of_lt hlt, fun t ht => howns t ((htimer _ hlt.ne _).symm.trans ht)⟩
  · change (s.timers.set s.nextTimer _).get? id = some t at ht
    by_cases hid : id = s.nextTimer
    · subst hid
      rw [OrdMap.get?_set_self] at ht
      cases ht
      exact ⟨Nat.lt_succ_self _, rfl, List.mem_append.mpr (.inr (List.mem_singleton.mpr rfl))⟩
    · rw [htimer id hid] at ht
      obtain ⟨hlt, hsound⟩ := h.timers id t ht
      refine ⟨Nat.lt_succ_of_lt hlt, ?_⟩
      obtain ⟨due, task⟩ := t
      cases task with
      | closeSession => trivial
      | requestTimeout requestId c => exact ⟨hsound.1, List.mem_append.mpr (.inl hsound.2)⟩
      | pollTimeout c =>
        have hne : c ≠ call := by
          rintro rfl
          exact hfresh.not_timed id due ht
        exact ⟨hmem c hne hsound.1, hsound.2⟩
  · obtain ⟨hlt, hqueued, hopen⟩ := h.reading c r hr
    have hne : c ≠ call := by
      rintro rfl
      exact absurd (hfresh.not_reading.symm.trans hr) nofun
    exact ⟨hlt, hmem c hne hqueued, hopen⟩
  · rcases List.mem_append.mp hc with hc | hc
    · exact h.queued c hc
    · rw [List.mem_singleton.mp hc]
      exact hfresh.lt

theorem sound_queueGitRequest (h : Sound H s) {call : Nat} (hfresh : Fresh s call) (now : Nat)
    (request : Request) (gitPath : String) (bytes : Option Bytes) :
    Sound H (s.queueGitRequest H call now request gitPath bytes) :=
  sound_drain (sound_enqueue h hfresh now request gitPath bytes)

theorem sound_handlePoll (h : Sound H s) {call : Nat} (hfresh : Fresh s call) (now : Nat)
    (request : Request) : Sound H (s.handlePoll call now request) := by
  unfold handlePoll
  split
  · exact sound_settle_fresh h hfresh _
  · split
    · exact sound_settle_fresh h hfresh _
    · have htask : TaskSound H s (.pollTimeout call) :=
        ⟨hfresh.not_queued, hfresh.lt, hfresh.not_reading⟩
      have hnext := sound_setTimeout h (now + pollTimeoutMs request) _ htask
      refine sound_waiters hnext _ fun w hw => ?_
      rcases List.mem_append.mp hw with hw | hw
      · exact hnext.waiters w hw
      · rw [List.mem_singleton.mp hw]
        refine ⟨hfresh.not_queued, hfresh.lt, hfresh.not_reading, Nat.lt_succ_self _, fun t ht => ?_⟩
        change (s.timers.set s.nextTimer _).get? s.nextTimer = some t at ht
        rw [OrdMap.get?_set_self] at ht
        cases ht
        rfl

theorem sound_handleGitRequest (h : Sound H s) {call : Nat} (hfresh : Fresh s call) (now : Nat)
    (request : GitServeRequest) (gitPath : String) :
    Sound H (s.handleGitRequest H call now request gitPath) := by
  unfold handleGitRequest
  split
  · exact sound_settle_fresh h hfresh _
  · split
    · exact sound_startReading h hfresh request
    · exact sound_queueGitRequest h hfresh now _ _ _

/-! ## Closing -/

/-- Clear a timer and settle a call, in a session without pending requests. -/
theorem sound_close (h : Sound H s) (hempty : s.state.pendingRequests = ∅) {call : Nat} (id : Nat)
    (answer : GitAnswer) (hlt : call < s.nextCall) (hreading : s.reading.get? call = none) :
    Sound H ((s.clearTimeout id).settle call answer) := by
  have hnone : ∀ requestId p, s.state.pendingRequests.get? requestId ≠ some p := by
    intro requestId p
    rw [hempty]
    nofun
  exact sound_settle (sound_clearTimeout h _ fun requestId p hp => absurd hp (hnone requestId p)) _ hlt
    hreading fun requestId p hp => absurd hp (hnone requestId p)

theorem sound_closeRequests (h : Sound H s) (hempty : s.state.pendingRequests = ∅)
    {pending : List PendingGitRequest}
    (hcalls : ∀ p ∈ pending, p.call < s.nextCall ∧ s.reading.get? p.call = none) :
    Sound H (pending.foldl closeRequest s) := by
  induction pending generalizing s with
  | nil => exact h
  | cons p rest ih =>
    obtain ⟨hlt, hreading⟩ := hcalls p List.mem_cons_self
    exact ih (sound_close h hempty _ _ hlt hreading) hempty
      fun q hq => hcalls q (List.mem_cons_of_mem p hq)

theorem sound_closeWaiters (h : Sound H s) (hempty : s.state.pendingRequests = ∅)
    (waiters : List PollWaiter)
    (hcalls : ∀ w ∈ waiters, w.call < s.nextCall ∧ s.reading.get? w.call = none) :
    Sound H (waiters.foldl closeWaiter s) := by
  induction waiters generalizing s with
  | nil => exact h
  | cons w rest ih =>
    obtain ⟨hlt, hreading⟩ := hcalls w List.mem_cons_self
    exact ih (sound_close h hempty _ _ hlt hreading) hempty
      fun v hv => hcalls v (List.mem_cons_of_mem w hv)

/-- The requests may leave the queue before their promises are settled. -/
theorem closeRequests_clear (s : GitServe) (pending : List PendingGitRequest) :
    pending.foldl closeRequest { s with state := { s.state with pendingRequests := ∅ } } =
      { pending.foldl closeRequest s with
        state := { (pending.foldl closeRequest s).state with pendingRequests := ∅ } } := by
  induction pending generalizing s with
  | nil => rfl
  | cons p rest ih => exact ih (s.closeRequest p)

theorem closeRequests_state (s : GitServe) (pending : List PendingGitRequest) :
    (pending.foldl closeRequest s).state = s.state ∧
      (pending.foldl closeRequest s).nextCall = s.nextCall ∧
      (pending.foldl closeRequest s).reading = s.reading := by
  induction pending generalizing s with
  | nil => exact ⟨rfl, rfl, rfl⟩
  | cons p rest ih => exact ih (s.closeRequest p)

theorem sound_cleanup (h : Sound H s) : Sound H s.cleanup := by
  have hcleared : Sound H s.clearSessionTimer ∧ s.clearSessionTimer.state = s.state ∧
      s.clearSessionTimer.nextCall = s.nextCall ∧ s.clearSessionTimer.reading = s.reading := by
    unfold clearSessionTimer
    cases hid : s.sessionTimer with
    | none => exact ⟨h, rfl, rfl, rfl⟩
    | some id =>
      have hclear := sound_clearSessionTimer h hid
      exact ⟨⟨hclear.pending, hclear.waiters, nofun, hclear.timers, hclear.reading, hclear.queued,
        hclear.answers⟩, rfl, rfl, rfl⟩
  obtain ⟨hsound, -, -, -⟩ := hcleared
  have hcalls : ∀ p ∈ s.clearSessionTimer.state.pendingRequests.values,
      p.call < s.clearSessionTimer.nextCall ∧
        s.clearSessionTimer.reading.get? p.call = none := by
    intro p hp
    obtain ⟨⟨requestId, q⟩, hmem, rfl⟩ := List.mem_map.mp hp
    obtain ⟨-, hqueued, -⟩ := hsound.pending requestId q (OrdMap.get?_eq_some_iff.mpr hmem)
    refine ⟨hsound.queued _ hqueued, ?_⟩
    cases hread : s.clearSessionTimer.reading.get? q.call with
    | none => rfl
    | some r => exact absurd hqueued (hsound.reading _ r hread).2.1
  have hempty : Sound H { s.clearSessionTimer with
      state := { s.clearSessionTimer.state with pendingRequests := ∅ } } :=
    ⟨nofun, hsound.waiters, hsound.sessionTimer, hsound.timers, hsound.reading, hsound.queued,
      hsound.answers⟩
  have hclosed := sound_closeRequests hempty rfl hcalls
  rw [closeRequests_clear] at hclosed
  have hwaiters := sound_closeWaiters hclosed rfl
    ((s.clearSessionTimer.state.pendingRequests.values.foldl closeRequest
      s.clearSessionTimer).state.pollWaiters)
    fun w hw => ⟨(hclosed.waiters w hw).2.1, (hclosed.waiters w hw).2.2.1⟩
  exact ⟨hwaiters.pending, nofun, hwaiters.sessionTimer, hwaiters.timers, hwaiters.reading,
    hwaiters.queued, hwaiters.answers⟩

/-! ## Answers of the serve side -/

/-- The call of a respond after it took its request out of the queue. -/
theorem sound_resolvePending (h : Sound H s) {call : Nat} (hfresh : Fresh s call) (now : Nat)
    (body : RespondBody) {pending : PendingGitRequest} (hqueued : pending.call ∈ s.queued)
    (hgone : ∀ requestId p, s.state.pendingRequests.get? requestId = some p →
      p.call ≠ pending.call) :
    Sound H (s.resolvePending H call now body pending) := by
  have hnot : ∀ requestId p, s.state.pendingRequests.get? requestId = some p → p.call ≠ call :=
    fun requestId p hp heq => hfresh.not_queued (heq ▸ (h.pending requestId p hp).2.1)
  have hreading : s.reading.get? pending.call = none := by
    cases hread : s.reading.get? pending.call with
    | none => rfl
    | some r => exact absurd hqueued (h.reading _ r hread).2.1
  have hemit : ∀ parts : ResponseParts, ∃ events, (if pending.incomingRefs ≠ [] ∧
      isSuccessfulHttpStatus parts.status then
        s.emitIncomingRefEvents H call now pending.incomingRefs else s) =
      { s with events := events } := by
    intro parts
    split
    · unfold emitIncomingRefEvents
      split
      · exact ⟨s.events, rfl⟩
      · exact ⟨_, rfl⟩
    · exact ⟨s.events, rfl⟩
  unfold resolvePending
  split
  · next responseBody headers _ _ =>
    obtain ⟨events, hevents⟩ := hemit (compatParts H pending ⟨body.status, headers, responseBody⟩)
    simp only [hevents]
    split
    · refine sound_settle (sound_settle (sound_events h events) _ (h.queued _ hqueued) hreading hgone)
        _ hfresh.lt hfresh.not_reading hnot
    · exact sound_settle (sound_events h events) _ hfresh.lt hfresh.not_reading hnot
  · exact sound_settle h _ hfresh.lt hfresh.not_reading hnot

/-- What a pending request leaves behind when it is taken out of the queue. -/
theorem sound_takePending (h : Sound H s) {requestId : String} {pending : PendingGitRequest}
    (hget : s.state.pendingRequests.get? requestId = some pending) :
    Sound H ((s.deletePending requestId).clearTimeout pending.timeoutId) ∧
      ∀ id p, (s.state.pendingRequests.erase requestId).get? id = some p →
        p.call ≠ pending.call := by
  obtain ⟨hid, -, -, due, hdue⟩ := h.pending requestId pending hget
  have hother : ∀ id p, (s.state.pendingRequests.erase requestId).get? id = some p →
      id ≠ requestId ∧ s.state.pendingRequests.get? id = some p := by
    intro id p hp
    rw [OrdMap.get?_erase] at hp
    split at hp
    · cases hp
    · next hne => exact ⟨hne, hp⟩
  refine ⟨sound_clearTimeout (sound_deletePending h requestId) _ fun id p hp heq => ?_,
    fun id p hp heq => ?_⟩
  · obtain ⟨hne, hold⟩ := hother id p hp
    obtain ⟨-, -, -, due', hdue'⟩ := h.pending id p hold
    rw [heq, hdue] at hdue'
    simp only [Option.some.injEq, Timer.mk.injEq, TimerTask.requestTimeout.injEq] at hdue'
    exact hne hdue'.2.1.symm
  · obtain ⟨hne, hold⟩ := hother id p hp
    exact hne ((h.pending id p hold).1.trans (heq ▸ hid.symm))

theorem sound_handleRespond (h : Sound H s) {call : Nat} (hfresh : Fresh s call) (now : Nat)
    (request : Request) : Sound H (s.handleRespond H call now request) := by
  unfold handleRespond
  split
  · simp only
    split
    · exact sound_settle_fresh h hfresh _
    · split
      · exact sound_settle_fresh h hfresh _
      · next pending hget =>
        obtain ⟨htaken, hgone⟩ := sound_takePending h hget
        refine sound_resolvePending htaken ⟨hfresh.lt, hfresh.not_queued, hfresh.unanswered,
          hfresh.not_reading, hfresh.not_waiting, fun id due ht => ?_⟩ now _
          (h.pending _ _ hget).2.1 hgone
        change (s.timers.erase pending.timeoutId).get? id = _ at ht
        rw [OrdMap.get?_erase] at ht
        split at ht
        · cases ht
        · exact hfresh.not_timed id due ht
  · exact sound_settle_fresh h hfresh _

/-! ## Timers -/

theorem sound_fireTimer (h : Sound H s) (id : Nat) : Sound H (s.fireTimer id) := by
  unfold fireTimer
  split
  · exact h
  next timer hget =>
  have htask := (h.timers id timer hget).2
  obtain ⟨due, task⟩ := timer
  cases task with
  | closeSession =>
    refine sound_cleanup (sound_clearTimeout h _ fun requestId p hp heq => ?_)
    obtain ⟨-, -, -, due', hdue'⟩ := h.pending requestId p hp
    rw [heq, hget] at hdue'
    cases hdue'
  | requestTimeout requestId call =>
    obtain ⟨hid, hqueued⟩ := htask
    have hreading : s.reading.get? call = none := by
      cases hread : s.reading.get? call with
      | none => rfl
      | some r => exact absurd hqueued (h.reading _ r hread).2.1
    have hother : ∀ id' p, (s.state.pendingRequests.erase requestId).get? id' = some p →
        id' ≠ requestId ∧ s.state.pendingRequests.get? id' = some p := by
      intro id' p hp
      rw [OrdMap.get?_erase] at hp
      split at hp
      · cases hp
      · next hne => exact ⟨hne, hp⟩
    have hcleared := sound_clearTimeout (sound_deletePending h requestId) id
      fun id' p hp heq => by
        obtain ⟨hne, hold⟩ := hother id' p hp
        obtain ⟨-, -, -, due', hdue'⟩ := h.pending id' p hold
        rw [heq, hget] at hdue'
        cases hdue'
        exact hne rfl
    refine sound_settle hcleared _ (h.queued _ hqueued) hreading fun id' p hp heq => ?_
    obtain ⟨hne, hold⟩ := hother id' p hp
    exact hne ((h.pending id' p hold).1.trans (heq ▸ hid.symm))
  | pollTimeout call =>
    obtain ⟨hqueued, hlt, hreading⟩ := htask
    have hcleared := sound_clearTimeout h id fun requestId p hp heq => by
      obtain ⟨-, -, -, due', hdue'⟩ := h.pending requestId p hp
      rw [heq, hget] at hdue'
      cases hdue'
    refine sound_settle (sound_waiters hcleared (s.state.pollWaiters.filter _)
      fun w hw => hcleared.waiters w (List.mem_filter.mp hw).1) _ hlt hreading
      fun requestId p hp heq => hqueued (heq ▸ (h.pending requestId p hp).2.1)

/-! ## Steps -/

theorem sound_fetch (h : Sound H s) (request : GitServeRequest) (now : Nat) :
    Sound H (s.fetch H request now) := by
  have hnext := sound_nextCall h
  have hfresh := fresh_nextCall h
  unfold fetch
  simp only
  split
  · exact sound_handleRegister hnext hfresh now
  split
  · unfold handleInfo
    split <;> exact sound_settle_fresh hnext hfresh _
  split
  · exact sound_handlePoll hnext hfresh now _
  split
  · split
    · exact sound_settle_fresh hnext hfresh _
    · exact sound_startReading hnext hfresh request
  · split
    · exact sound_handleGitRequest hnext hfresh now request _
    · exact sound_settle_fresh hnext hfresh _

theorem sound_bodyRead (h : Sound H s) (call now : Nat) : Sound H (s.bodyRead H call now) := by
  unfold bodyRead
  split
  · exact h
  next request hread =>
  have hstop := sound_stopReading h call
  have hfresh := fresh_stopReading h hread
  simp only
  split
  · exact sound_handleRespond hstop hfresh now _
  · split
    · exact sound_queueGitRequest hstop hfresh now _ _ _
    · exact sound_settle_fresh hstop hfresh _

theorem sound_restore (h : Sound H s) (saved : PersistableSessionState) (now : Nat) :
    Sound H (s.restore H saved now) := by
  have hsaved := sound_state h saved.active saved.sessionToken saved.registeredAt
  unfold restore
  simp only
  split
  · exact sound_resetSessionTimer hsaved now
  · exact hsaved

end SoundLemmas

open SoundLemmas

theorem sound_step {H : GitServeHost} {s : GitServe} (h : Sound H s) (event : GitServeEvent) :
    Sound H (step H s event) := by
  cases event with
  | fetch request now => exact sound_fetch h request now
  | bodyRead call now => exact sound_bodyRead h call now
  | timer id => exact sound_fireTimer h id
  | cleanup => exact sound_cleanup h
  | restore saved now => exact sound_restore h saved now

/-- The invariant holds after every run. -/
theorem sound_after (H : GitServeHost) (events : List GitServeEvent) : Sound H (after H events) :=
  runFrom_invariant (I := Sound H) (fun _ event h => sound_step h event) events (sound_init H)

end GitServe

end BitRelay
