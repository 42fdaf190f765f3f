import BitRelay.WorkerRouting

/-!
# The objects behind the worker

What a run of requests through the worker is for one of its objects: a run of requests that the
worker forwards to it.

Results:
1. `fetch_at`: what one request to the worker brings to an object.
2. `fetch_reaches`: a request other than a push reaches one object, and its answer is the answer.
3. `untouched_of_invalid`: an object whose name is no room name never gets a request.
-/

namespace BitRelay

section
variable {C : Type} {W : Worker C}

/-- What the worker makes of a request: a push may be split, anything else stays as it is. -/
structure Forwarded (request forwarded : Request) : Prop where
  method : forwarded.method = request.method
  pathname : forwarded.pathname = request.pathname
  whole : Worker.routesByEntries request = false → forwarded = request

theorem Forwarded.refl (request : Request) : Forwarded request request := ⟨rfl, rfl, fun _ => rfl⟩

/-- The calls that one request brings to the object of this name. -/
structure CallsAt (W : Worker C) (request : Request) (env : WorkerEnv) (w : WorkerState C)
    (name : String) (s : ServiceState C) (calls : List Call) : Prop where
  state : s = runFrom (serveCall (W.object name)) (w name) calls
  forwarded : ∀ call ∈ calls, isValidRoomName name = true ∧ call.env = env name ∧
    Forwarded request call.request

namespace ObjectLemmas

variable {request : Request} {env : WorkerEnv} {w : WorkerState C}

theorem forward_response (target : String) (request : Request) (env : WorkerEnv)
    (w : WorkerState C) : (W.forward target request env w).1 =
      (serve (W.object target) request (env target) (w target)).1 := rfl

theorem callsAt_none (name : String) : CallsAt W request env w name (w name) [] :=
  ⟨rfl, fun _ h => absurd h List.not_mem_nil⟩

/-- A forwarded request is a call of its target. -/
theorem callsAt_forward (W : Worker C) (env : WorkerEnv) (w : WorkerState C) {target : String} {forwarded : Request}
    (hvalid : isValidRoomName target = true) (hforwarded : Forwarded request forwarded)
    (name : String) :
    ∃ calls, CallsAt W request env w name ((W.forward target forwarded env w).2 name) calls := by
  by_cases hname : target = name
  · subst hname
    refine ⟨[⟨forwarded, env target⟩], ?_, fun call hcall => ?_⟩
    · rw [WorkerLemmas.forward_state, Function.update_self]
      rfl
    · rw [List.mem_singleton.mp hcall]
      exact ⟨hvalid, rfl, hforwarded⟩
  · rw [WorkerLemmas.forward_frame hname]
    exact ⟨[], callsAt_none name⟩

theorem callsAt_append {w' : WorkerState C} {name : String} {s : ServiceState C}
    {calls calls' : List Call} (h : CallsAt W request env w name (w' name) calls)
    (h' : CallsAt W request env w' name s calls') :
    CallsAt W request env w name s (calls ++ calls') := by
  refine ⟨?_, fun call hcall => ?_⟩
  · rw [runFrom_append, ← h.state]
    exact h'.state
  · rcases List.mem_append.mp hcall with hcall | hcall
    · exact h.forwarded call hcall
    · exact h'.forwarded call hcall

/-- The groups of a push are rooms. -/
theorem groupEntries_valid {entries : List JsonValue}
    {grouped grouped' : OrdMap String (List JsonValue)}
    (h : groupEntries entries grouped = some grouped')
    (hg : ∀ g ∈ grouped.entries, isValidRoomName g.1 = true) :
    ∀ g ∈ grouped'.entries, isValidRoomName g.1 = true := by
  induction entries generalizing grouped with
  | nil =>
    cases h
    exact hg
  | cons entry rest ih =>
    unfold groupEntries at h
    split at h
    · cases h
    simp only at h
    split at h
    · cases h
    next hvalid =>
    refine ih h fun g hmem => ?_
    rcases OrdMap.mem_entries_set.mp hmem with rfl | ⟨-, hold⟩
    · exact Bool.of_not_eq_false hvalid
    · exact hg g hold

theorem pushGroups_valid {body : Body} {groups : List (String × List JsonValue)}
    (h : pushGroups body = some groups) : ∀ g ∈ groups, isValidRoomName g.1 = true := by
  unfold pushGroups at h
  split at h
  · cases h
  · next grouped hgrouped =>
    split at h
    · cases h
    cases h
    obtain ⟨parsed, -, hgrouped⟩ := Option.bind_eq_some_iff.mp hgrouped
    obtain ⟨entries, -, hgrouped⟩ := Option.bind_eq_some_iff.mp hgrouped
    exact groupEntries_valid hgrouped fun g hg => absurd hg List.not_mem_nil

/-- An object gets its group, if the loop comes that far. -/
theorem callsAt_forwardGroups (hentries : Worker.routesByEntries request = true)
    {groups : List (String × List JsonValue)}
    (hvalid : ∀ g ∈ groups, isValidRoomName g.1 = true) (totals : PushTotals) (w : WorkerState C)
    (name : String) :
    ∃ calls, CallsAt W request env w name ((W.forwardGroups request env groups totals w).2 name)
      calls := by
  induction groups generalizing totals w with
  | nil => exact ⟨[], callsAt_none name⟩
  | cons g rest ih =>
    obtain ⟨target, entries⟩ := g
    have hforwarded : Forwarded request { request with
        query := setParam "room" target request.query
        body := W.relay.platform.stringify (.obj [("entries", .arr entries)]) } :=
      ⟨rfl, rfl, fun h => absurd (h.symm.trans hentries) Bool.false_ne_true⟩
    obtain ⟨calls, hcalls⟩ := callsAt_forward W env w
      (hvalid _ List.mem_cons_self) hforwarded name
    unfold Worker.forwardGroups
    simp only
    split
    · exact ⟨calls, hcalls⟩
    · obtain ⟨later, hlater⟩ := ih (fun g hg => hvalid g (List.mem_cons_of_mem _ hg)) _ _
      exact ⟨calls ++ later, callsAt_append hcalls hlater⟩

end ObjectLemmas

open ObjectLemmas

/-- One request to the worker is a few calls for an object, most often none. -/
theorem fetch_at (request : Request) (env : WorkerEnv) (w : WorkerState C) (name : String) :
    ∃ calls, CallsAt W request env w name ((W.fetch request env w).2 name) calls := by
  rcases WorkerLemmas.fetch_cases (W := W) request env w with
    hsame | ⟨hentries, hfetch⟩ | ⟨-, hvalid, hfetch⟩
  · rw [hsame]
    exact ⟨[], callsAt_none name⟩
  · have hdefault : isValidRoomName DEFAULT_ROOM = true := by decide
    rw [hfetch]
    unfold Worker.routePush
    split
    · exact callsAt_forward W env w hdefault (.refl request) name
    · next room entries hgroups =>
      have hforwarded : Forwarded request
          { request with query := setParam "room" room request.query } :=
        ⟨rfl, rfl, fun h => absurd (h.symm.trans hentries) Bool.false_ne_true⟩
      exact callsAt_forward W env w (pushGroups_valid hgroups _ List.mem_cons_self) hforwarded name
    · next groups _ hgroups =>
      exact callsAt_forwardGroups hentries (pushGroups_valid hgroups) .zero w name
  · rw [hfetch]
    exact callsAt_forward W env w hvalid (.refl request) name

/-- A request that is no push goes to one object, or the worker turns it away. -/
theorem fetch_reaches {request : Request} (hpush : Worker.routesByEntries request = false)
    (env : WorkerEnv) (w : WorkerState C) :
    (W.fetch request env w).2 = w ∨
    ∃ name, name = trim (resolveRelayRouteRoom request) ∧
      (W.fetch request env w).1 = (serve (W.object name) request (env name) (w name)).1 ∧
      (W.fetch request env w).2 =
        Function.update w name (serve (W.object name) request (env name) (w name)).2 := by
  rcases WorkerLemmas.fetch_cases (W := W) request env w with hsame | ⟨hentries, -⟩ | ⟨-, -, hfetch⟩
  · exact .inl hsame
  · exact absurd (hpush.symm.trans hentries) Bool.false_ne_true
  · rw [hfetch]
    exact .inr ⟨_, rfl, forward_response _ _ _ _, WorkerLemmas.forward_state _ _ _ _⟩

/-- What an object keeps through every call that can reach it holds of it after every run. -/
theorem object_keeps {name : String} {I : ServiceState C → Prop}
    (hstep : ∀ s call, isValidRoomName name = true → I s → I (serveCall (W.object name) s call))
    (arrivals : List Worker.Arrival) {w : WorkerState C} (h : I (w name)) :
    I (W.afterArrivals w arrivals name) := by
  unfold Worker.afterArrivals
  induction arrivals generalizing w with
  | nil => exact h
  | cons arrival rest ih =>
    refine ih ?_
    obtain ⟨calls, hcalls⟩ := fetch_at (W := W) arrival.request arrival.env w name
    show I ((W.fetch arrival.request arrival.env w).2 name)
    rw [hcalls.state]
    have hvalid := fun call hcall => (hcalls.forwarded call hcall).1
    clear hcalls
    generalize w name = s at h
    induction calls generalizing s with
    | nil => exact h
    | cons call later ih' =>
      exact ih' (fun c hc => hvalid c (List.mem_cons_of_mem _ hc)) _
        (hstep s call (hvalid call List.mem_cons_self) h)

/-- The worker never sends a request to an object whose name is no room name. -/
theorem untouched_of_invalid {name : String} (hname : isValidRoomName name = false)
    (arrivals : List Worker.Arrival) (w : WorkerState C) :
    W.afterArrivals w arrivals name = w name :=
  object_keeps (I := fun s => s = w name)
    (fun _ _ hvalid _ => absurd (hname.symm.trans hvalid) Bool.false_ne_true) arrivals rfl

end

end BitRelay
