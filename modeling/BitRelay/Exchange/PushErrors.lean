import BitRelay.Exchange.Pushes

/-!
# Pushes that end with an error

A push imports its entries one by one and stops at the first one that it cannot read or whose room
token the request lacks. What it imported before that entry stays.

Results:
1. `run_pushEntries_stopped`: what the loop leaves behind when an entry stops it.
2. `push_leaves_logs_iff`: a push that answers with an error leaves the logs as they were exactly if
   it would accept no entry before the one that stops it.
3. `push_half_imported`: a push that answers with an error and has imported an entry.
-/

namespace BitRelay

section
variable {C : Type} {R : Relay C} {request : Request} {s s' : ServiceState C} {value : JsonValue}

/-- The entry is refused, or its id is in the log of its room. -/
def Settled (R : Relay C) (s : ServiceState C) (value : JsonValue) : Prop :=
  ∀ incoming, parseIncomingCacheExchangeEntry value R.config.cacheExchangeMaxHops = .ok incoming →
    refusesEntry R incoming = none → s.Holds incoming.room incoming.id

namespace PushErrorLemmas

theorem settled_congr (h : SameLog s s') (value : JsonValue) :
    Settled R s' value ↔ Settled R s value := by
  unfold Settled
  simp only [PushLemmas.holds_congr h]

/-- An open entry is settled and leaves the logs, or it is recorded under the next cursor. -/
theorem open_cases (h : Open R request value) (i : Nat) (counts : PushCounts)
    (s : ServiceState C) :
    ∃ counts' s', (pushEntry R request i value counts).run s = (.ok counts', s') ∧
      ((Settled R s value ∧ SameLog s s') ∨
        (¬ Settled R s value ∧ s'.cacheExchangeCursor = s.cacheExchangeCursor + 1)) := by
  obtain ⟨counts', s', hrun, hentry⟩ := run_pushEntry_open h i counts s
  refine ⟨counts', s', hrun, ?_⟩
  cases hentry.log with
  | same hsame =>
    refine .inl ⟨fun incoming hread hnone => ?_, hsame⟩
    exact (PushLemmas.holds_congr hsame _ _).mp (hentry.holds incoming hread hnone)
  | appended w hw happended =>
    refine .inr ⟨fun hsettled => ?_, happended.cursor⟩
    obtain ⟨incoming, hread, hname, hhops, rfl⟩ := hw
    refine happended.fresh (hsettled incoming hread ?_)
    unfold refusesEntry
    rw [hname, hhops]
    rfl

/-- The entry that stops the loop. -/
theorem run_pushEntry_stopped (h : ¬ Open R request value) (i : Nat) (counts : PushCounts)
    (s : ServiceState C) :
    ∃ response, (pushEntry R request i value counts).run s = (.error response, s) ∧
      response.status ≠ 200 := by
  cases hread : parseIncomingCacheExchangeEntry value R.config.cacheExchangeMaxHops with
  | error error =>
    refine ⟨invalidEntryResponse i error, ?_, show 400 ≠ 200 by decide⟩
    unfold pushEntry
    rw [hread]
    rfl
  | ok incoming =>
    have hbarred : Barred R request incoming := by
      by_contra hopen
      exact h ⟨incoming, hread, hopen⟩
    exact ⟨_, run_pushEntry_barred hread hbarred i counts s, show 403 ≠ 200 by decide⟩

end PushErrorLemmas

open PushErrorLemmas

/-- A loop that is stopped leaves the logs exactly if all entries before were settled; the cursor
never goes back. -/
theorem run_pushEntries_stopped {before after : List JsonValue}
    (hopen : ∀ v ∈ before, Open R request v) (hstop : ¬ Open R request value) (i : Nat)
    (counts : PushCounts) (s : ServiceState C) :
    ∃ response s', (pushEntries R request (before ++ value :: after) i counts).run s =
        (.error response, s') ∧ response.status ≠ 200 ∧
      s.cacheExchangeCursor ≤ s'.cacheExchangeCursor ∧
      (SameLog s s' ↔ ∀ v ∈ before, Settled R s v) := by
  induction before generalizing i counts s with
  | nil =>
    obtain ⟨response, hrun, hstatus⟩ := run_pushEntry_stopped hstop i counts s
    refine ⟨response, s, Proc.run_bind_of_error hrun _, hstatus, Nat.le_refl _, ?_⟩
    exact iff_of_true (.refl s) fun v hv => absurd hv List.not_mem_nil
  | cons v rest ih =>
    obtain ⟨counts₁, s₁, hrun, hfirst⟩ := open_cases (hopen v List.mem_cons_self) i counts s
    obtain ⟨response, s₂, hrest, hstatus, hcursor, hiff⟩ :=
      ih (fun v hv => hopen v (List.mem_cons_of_mem _ hv)) (i + 1) counts₁ s₁
    refine ⟨response, s₂, (Proc.run_bind_of_ok hrun _).trans hrest, hstatus, ?_⟩
    rcases hfirst with ⟨hsettled, hsame⟩ | ⟨hnew, hnext⟩
    · refine ⟨hsame.cursor ▸ hcursor, ?_⟩
      have hback : SameLog s₁ s :=
        ⟨fun room => (hsame.messages room).symm, hsame.records.symm, hsame.cursor.symm⟩
      simp only [settled_congr hsame] at hiff
      rw [List.forall_mem_cons, and_iff_right hsettled, ← hiff]
      exact ⟨hback.trans, hsame.trans⟩
    · -- The cursor has moved for good.
      refine ⟨by omega, iff_of_false (fun hsame => ?_) fun hall => hnew (hall v List.mem_cons_self)⟩
      have hstays := hsame.cursor
      omega

namespace PushErrorLemmas

/-- The first element without a property. -/
theorem exists_stop {α : Type} {p : α → Prop} {l : List α} (h : ¬ ∀ a ∈ l, p a) :
    ∃ before a after, l = before ++ a :: after ∧ (∀ b ∈ before, p b) ∧ ¬ p a := by
  induction l with
  | nil => exact absurd (fun a ha => absurd ha List.not_mem_nil) h
  | cons a rest ih =>
    by_cases hfirst : p a
    · have hrest : ¬ ∀ b ∈ rest, p b := fun hall => h (List.forall_mem_cons.mpr ⟨hfirst, hall⟩)
      obtain ⟨before, b, after, rfl, hbefore, hb⟩ := ih hrest
      exact ⟨a :: before, b, after, rfl, List.forall_mem_cons.mpr ⟨hfirst, hbefore⟩, hb⟩
    · exact ⟨[], a, rest, rfl, fun b hb => absurd hb List.not_mem_nil, hfirst⟩

theorem same_stop {α : Type} {p : α → Prop} {before before' after after' : List α} {a a' : α}
    (h : ∀ b ∈ before, p b) (ha : ¬ p a) (h' : ∀ b ∈ before', p b) (ha' : ¬ p a')
    (heq : before ++ a :: after = before' ++ a' :: after') : before = before' := by
  induction before generalizing before' with
  | nil =>
    cases before' with
    | nil => rfl
    | cons b rest =>
      rw [List.nil_append, List.cons_append, List.cons.injEq] at heq
      exact absurd (heq.1 ▸ h' b List.mem_cons_self) ha
  | cons b rest ih =>
    cases before' with
    | nil =>
      rw [List.nil_append, List.cons_append, List.cons.injEq] at heq
      exact absurd (heq.1 ▸ h b List.mem_cons_self) ha'
    | cons b' rest' =>
      rw [List.cons_append, List.cons_append, List.cons.injEq] at heq
      rw [heq.1, ih (fun c hc => h c (List.mem_cons_of_mem _ hc))
        (fun c hc => h' c (List.mem_cons_of_mem _ hc)) heq.2]

/-- A push is stopped at its gates, or it comes to its entries. -/
theorem push_gates (hpath : request.pathname = Endpoint.cacheExchangePush.path) (env : Env)
    (s : ServiceState C) :
    (∃ entries, PushRequest R request entries) ∨
      ((∀ entries, ¬ PushRequest R request entries) ∧ (serve R request env s).2 = s) := by
  have hendpoint : Endpoint.ofPath request.pathname = some .cacheExchangePush := by
    rw [hpath]
    rfl
  rw [serve_endpoint hendpoint, serve_state]
  unfold Endpoint.guarded
  rw [Proc.run_bind]
  cases hauth : checkAuth R request with
  | some response =>
    exact .inr ⟨fun entries h => (by cases hauth.symm.trans h.auth), rfl⟩
  | none =>
    simp only [Proc.run_failWith_none, Endpoint.handle, handleCacheExchangePush, requireMethod,
      Proc.run_bind, Proc.run_failIf]
    by_cases hmethod : request.method = "POST"
    · simp only [hmethod, ne_eq, not_true_eq_false, if_false]
      cases hpeer : checkPeerAuth R request with
      | some response =>
        exact .inr ⟨fun entries h => (by cases hpeer.symm.trans h.peerAuth), rfl⟩
      | none =>
        simp only [Proc.run_failWith_none]
        by_cases hbody : ∃ entries parsed, request.body.json = some parsed ∧
            parsed.arrField? "entries" = some entries
        · obtain ⟨entries, hentries⟩ := hbody
          exact .inl ⟨entries, hpath, hmethod, hauth, hpeer, hentries⟩
        · refine .inr ⟨fun entries h => hbody ⟨entries, h.body⟩, ?_⟩
          unfold requireObject
          cases hjson : request.body.json with
          | none => rfl
          | some parsed =>
            cases parsed with
            | obj fields =>
              have hnone : (JsonValue.obj fields).arrField? "entries" = none := by
                refine Option.eq_none_iff_forall_ne_some.mpr fun entries hentries => ?_
                exact hbody ⟨entries, _, hjson, hentries⟩
              simp only [Proc.run_pure, requireEntries, hnone]
              rfl
            | null | bool _ | num _ | str _ | arr _ => rfl
    · refine .inr ⟨fun entries h => hmethod h.method, ?_⟩
      simp only [ne_eq, hmethod, not_false_eq_true, if_true]

end PushErrorLemmas

open PushErrorLemmas

variable (R) in
/-- A push that answers with an error leaves the room logs, the records and the cursor as they were
exactly if it would accept no entry before the one that stops it. -/
theorem push_leaves_logs_iff (request : Request)
    (hpath : request.pathname = Endpoint.cacheExchangePush.path) (env : Env)
    (s : ServiceState C) :
    ((serve R request env s).1.status ≠ 200 → SameLog s (serve R request env s).2) ↔
      ∀ before value after, PushRequest R request (before ++ value :: after) →
        (∀ v ∈ before, Open R request v) → ¬ Open R request value →
          ∀ v ∈ before, Settled R s v := by
  rcases push_gates (R := R) hpath env s with ⟨entries, hpush⟩ | ⟨hnone, hstate⟩
  · rw [serve_push hpush]
    have hunique : ∀ entries', PushRequest R request entries' → entries' = entries := by
      intro entries' hpush'
      obtain ⟨parsed, hjson, hentries⟩ := hpush.body
      obtain ⟨parsed', hjson', hentries'⟩ := hpush'.body
      cases hjson.symm.trans hjson'
      exact Option.some.inj (hentries'.symm.trans hentries)
    by_cases hall : ∀ v ∈ entries, Open R request v
    · obtain ⟨counts, s', hrun, -⟩ := run_pushEntries_open (P := fun _ _ => True)
        (fun _ _ _ _ _ _ => trivial) hall [] 0 .zero s trivial
      rw [hrun]
      refine iff_of_true (fun hstatus => absurd rfl hstatus) ?_
      intro before value after hpush' _ hstop
      refine absurd (hall value ?_) hstop
      rw [← hunique _ hpush']
      exact List.mem_append_right _ List.mem_cons_self
    · -- The first entry that is not open stops the loop.
      obtain ⟨before, value, after, rfl, hopen, hstop⟩ := exists_stop hall
      obtain ⟨response, s', hrun, hstatus, -, hiff⟩ : ∃ response s',
          (pushEntries R request (before ++ value :: after) 0 .zero).run s = (.error response, s') ∧
            response.status ≠ 200 ∧ s.cacheExchangeCursor ≤ s'.cacheExchangeCursor ∧
              (SameLog s s' ↔ ∀ v ∈ before, Settled R s v) :=
        run_pushEntries_stopped hopen hstop 0 .zero s
      rw [hrun]
      constructor
      · intro hsame before' value' after' hpush' hopen' hstop'
        obtain rfl := same_stop hopen hstop hopen' hstop' (hunique _ hpush').symm
        exact hiff.mp (hsame hstatus)
      · intro h _
        exact hiff.mpr (h before value after hpush hopen hstop)
  · rw [hstate]
    exact iff_of_true (fun _ => .refl s) fun before value after hpush => absurd hpush (hnone _)

end

/-! ## On the toy host -/

/-- A message for the room `main`, and an entry without fields. -/
def halfPush : Request := toyPush [
  .obj [("room", .str "main"), ("id", .str "m1"), ("sender", .str "alice"),
    ("topic", .str "notify"), ("payload", .null), ("origin", .str "relay-b"),
    ("hop_count", .ofNat 1)],
  .obj []]

/-- The push is answered with an error, and its first entry is in the log and in the records. -/
theorem push_half_imported :
    (serve (.toy .default) halfPush (.at 0) (.init ())).1.status = 400 ∧
    ((serve (.toy .default) halfPush (.at 0) (.init ())).2.roomOf "main").messages.map
      Envelope.id = ["m1"] ∧
    (serve (.toy .default) halfPush (.at 0) (.init ())).2.cacheExchangeRecords.length = 1 ∧
    (serve (.toy .default) halfPush (.at 0) (.init ())).2.cacheExchangeCursor = 1 := by
  decide +kernel

/-- An entry without fields alone. -/
def emptyEntryPush : Request := toyPush [.obj []]

/-- No entry stands before the malformed one, and the answer is an error. -/
theorem push_leaves_logs_iff_empty :
    (serve (.toy .default) emptyEntryPush (.at 0) (.init ())).1.status = 400 ∧
    ∀ before value after, PushRequest (.toy .default) emptyEntryPush (before ++ value :: after) →
      (∀ v ∈ before, Open (.toy .default) emptyEntryPush v) →
        ¬ Open (.toy .default) emptyEntryPush value →
          ∀ v ∈ before, Settled (.toy .default) (.init ()) v := by
  have hstate : (serve (.toy .default) emptyEntryPush (.at 0) (.init ())).2 = .init () := rfl
  refine ⟨by decide +kernel,
    (push_leaves_logs_iff (.toy .default) emptyEntryPush rfl (.at 0) (.init ())).mp fun _ => ?_⟩
  rw [hstate]
  exact .refl _

end BitRelay
