import StreamAdmission.Proofs.Probe.Chronicle

/-!
# Connections accounted for

The counters of a family say at any time how many connections were opened on its probes and how many
of these were closed; a connection counts as closed once, however often it is closed. An attempt to
connect fails, and leaves the counters alone, exactly if the probe was last set to be unreachable.
-/

namespace StreamAdmission

/-- The questions of a session are not counted. -/
theorem Session.recordAll_converse {α : Type} (session : Session α) (connection : LiveConnection)
    (asked : List String) (counters : Counters) :
    counters.recordAll (session.converse connection asked).2 = counters := by
  induction session generalizing asked with
  | done result => rfl
  | ask topic next ih => exact ih (connection asked topic) (asked ++ [topic])

theorem recordAll_withConnection {p : StaticProbe} (h : ¬ p.FailsOpening) {a : Address}
    {α : Type} (session : Session (Except MetadataError α)) (counters : Counters) :
    counters.recordAll (p.toProbe.withConnection a id session).2 =
      ⟨counters.opened + 1, counters.closed + 1⟩ := by
  cases hConnect : p.connect a with
  | error e => exact absurd (StaticProbe.connect_eq_error_iff.mp ⟨e, hConnect⟩) h
  | ok answer =>
    have hProbe : p.toProbe.connect a = .ok answer := hConnect
    have hRun := session.recordAll_converse (.steady answer) []
      ⟨counters.opened + 1, counters.closed⟩
    rw [Probe.withConnection_of_ok hProbe]
    simp only [Counters.recordAll, List.cons_append, List.foldl_cons, List.foldl_append] at hRun ⊢
    rw [Counters.record, hRun]
    rfl

theorem Bench.record_eq_self (b : Bench) (family : Nat) {contacts : List Contact}
    (h : ∀ counters : Counters, counters.recordAll contacts = counters) :
    b.record family contacts = b := by
  have hSame : (fun counters : Counters => counters.recordAll contacts) = id := funext h
  rw [Bench.record, hSame, List.modify_id]

namespace Chronicle

/-! ### The bench of a chronicle -/

section
variable {c c' : Chronicle}

theorem bench_counters_eq (hFamilies : c'.families = c.families)
    (h : ∀ family, c'.counters family = c.counters family) :
    c'.bench.counters = c.bench.counters := by
  rw [bench, bench, hFamilies]
  exact List.map_congr_left fun family _ => h family

theorem bench_counters_modify {family : Nat} {change : Counters → Counters}
    (hFamilies : c'.families = c.families)
    (hSelf : c'.counters family = change (c.counters family))
    (hOther : ∀ other, family ≠ other → c'.counters other = c.counters other) :
    c.bench.counters.modify family change = c'.bench.counters := by
  rw [bench, bench, hFamilies]
  refine List.ext_getElem? fun i => ?_
  rw [List.getElem?_modify, List.getElem?_map, List.getElem?_map]
  by_cases hi : i < c.families
  · rw [List.getElem?_range hi]
    simp only [Option.map_eq_map, Option.map_some]
    split
    · rename_i hSame
      rw [← hSame, hSelf]
    · rename_i hDifferent
      rw [hOther i hDifferent]
  · rw [List.getElem?_eq_none (by simpa using hi)]
    rfl

theorem probes_bench {number : Nat} {history : List Setting} {family : Nat}
    (h : c.probes[number]? = some (history, family)) :
    c.bench.probes[number]? = some (Setting.settled history, family) := by
  rw [bench, List.getElem?_map, h]
  rfl

theorem probes_bench_eq_none {number : Nat} (h : c.probes[number]? = none) :
    c.bench.probes[number]? = none := by
  rw [bench, List.getElem?_map, h]
  rfl

theorem countersOf_bench (hc : c.WellFormed) {number : Nat} {history : List Setting} {family : Nat}
    (h : c.probes[number]? = some (history, family)) :
    c.bench.countersOf number = c.counters family := by
  have hFamily : family < c.families := hc.probes _ (List.mem_of_getElem? h)
  have hCounters : c.bench.counters[family]? = some (c.counters family) := by
    rw [bench, List.getElem?_map, List.getElem?_range hFamily]
    rfl
  rw [Bench.countersOf, probes_bench h]
  simp only [hCounters, Option.getD_some]

theorem connections_bench {number : Nat} {k : Opened} (h : c.connections[number]? = some k) :
    c.bench.connections[number]? =
      some ⟨Setting.settled k.history, k.family, k.closings = 0⟩ := by
  rw [bench, List.getElem?_map, h]
  rfl

/-- A setting of the probe on the bench is one in its history. -/
theorem modifyProbe_bench (c : Chronicle) (number : Nat) (setting : Setting) :
    c.bench.modifyProbe number (fun p => setting.apply p) = (c.set number setting).bench := by
  have hProbes : (c.set number setting).bench.probes =
      (c.bench.modifyProbe number fun p => setting.apply p).probes := by
    refine map_modify ?_ c.probes number
    rintro ⟨history, family⟩
    simp only [Setting.settled_append_singleton]
  exact Bench.ext hProbes.symm rfl rfl

theorem bench_step_clone (c : Chronicle) (number : Nat) :
    (c.bench.step (.clone number)).2 = (c.step (.clone number)).bench := by
  cases hProbe : c.probes[number]? with
  | none =>
    have hNone := probes_bench_eq_none hProbe
    rw [Bench.step, hNone, Chronicle.step, hProbe, Option.toList_none, List.append_nil]
  | some p =>
    obtain ⟨history, family⟩ := p
    rw [Bench.step, probes_bench hProbe, Chronicle.step, hProbe, Option.toList_some]
    simp only [bench, List.map_append, List.map_singleton]
    rfl

theorem bench_step_create (hc : c.WellFormed) :
    (c.bench.step .create).2 = (c.step .create).bench := by
  have hLength : c.bench.counters.length = c.families := by simp [bench]
  have hCounters : (c.step .create).bench.counters = c.bench.counters ++ [⟨0, 0⟩] := by
    have hNew := hc.counters_new
    simp only [Chronicle.step, bench, List.range_succ, List.map_append, List.map_singleton]
    rw [← hNew]
    rfl
  have hProbes : (c.step .create).bench.probes = c.bench.probes ++ [(.empty, c.families)] :=
    List.map_append
  rw [Bench.step, hLength]
  exact Bench.ext hProbes.symm rfl hCounters.symm

theorem bench_step_ask (c : Chronicle) (number : Nat) (topic : String) :
    (c.bench.step (.ask number topic)).2 = c.bench := by
  rw [Bench.step]
  split
  · rfl
  · split <;> rfl

theorem step_connect_unreachable {number : Nat} {history : List Setting} {family : Nat}
    (hProbe : c.probes[number]? = some (history, family)) (h : Setting.IsUnreachable history)
    (a : Address) : ∃ e, c.bench.step (.connect number a) = (.failed e, c.bench) := by
  obtain ⟨e, hConnect⟩ := (Setting.connect_settled_eq_error_iff (a := a)).mpr h
  refine ⟨e, ?_⟩
  simp only [Bench.step, probes_bench hProbe, hConnect]
  rw [Bench.record_eq_self _ _ fun _ => rfl]

theorem step_connect_reachable {number : Nat} {history : List Setting} {family : Nat}
    (hProbe : c.probes[number]? = some (history, family)) (h : ¬ Setting.IsUnreachable history)
    (a : Address) :
    c.bench.step (.connect number a) =
      (.connection c.connections.length, (c.step (.connect number a)).bench) := by
  rw [step_connect hProbe h]
  have hLength : c.bench.connections.length = c.connections.length := List.length_map _
  simp only [Bench.step, probes_bench hProbe, hLength]
  cases hConnect : (Setting.settled history).connect a with
  | error e => exact absurd (Setting.connect_settled_eq_error_iff.mp ⟨e, hConnect⟩) h
  | ok answer =>
    refine congrArg (Prod.mk _) (Bench.ext rfl ?_ ?_)
    · simp [bench]
    · refine bench_counters_modify rfl ?_ fun other hOther => ?_
      · rw [counters, opens_connect, closedOnce_connect c rfl, if_pos rfl]
        rfl
      · rw [counters, opens_connect, closedOnce_connect c rfl, if_neg hOther]
        rfl

theorem bench_step_connect (c : Chronicle) (number : Nat) (a : Address) :
    (c.bench.step (.connect number a)).2 = (c.step (.connect number a)).bench := by
  cases hProbe : c.probes[number]? with
  | none =>
    have hNone := probes_bench_eq_none hProbe
    simp only [Bench.step, hNone, Chronicle.step, hProbe]
  | some p =>
    obtain ⟨history, family⟩ := p
    by_cases h : Setting.IsUnreachable history
    · obtain ⟨e, hStep⟩ := step_connect_unreachable hProbe h a
      simp only [hStep, Chronicle.step, hProbe, if_pos h]
    · rw [step_connect_reachable hProbe h a]

theorem step_session_unreachable {number : Nat} {history : List Setting} {family : Nat}
    (hProbe : c.probes[number]? = some (history, family)) (h : Setting.IsUnreachable history)
    (a : Address) (session : Session (Except MetadataError (List (Option UInt32)))) :
    ∃ e, c.bench.step (.session number a session) = (.failed e, c.bench) := by
  obtain ⟨e, hConnect⟩ := (Setting.connect_settled_eq_error_iff (a := a)).mpr h
  have hFails : (Setting.settled history).toProbe.connect a = .error e := hConnect
  refine ⟨e, ?_⟩
  simp only [Bench.step, probes_bench hProbe, Probe.withConnection_of_error hFails, id]
  rw [Bench.record_eq_self _ _ fun _ => rfl]

theorem bench_step_session (c : Chronicle) (number : Nat) (a : Address)
    (session : Session (Except MetadataError (List (Option UInt32)))) :
    (c.bench.step (.session number a session)).2 = (c.step (.session number a session)).bench := by
  cases hProbe : c.probes[number]? with
  | none =>
    have hNone := probes_bench_eq_none hProbe
    simp only [Bench.step, hNone, Chronicle.step, hProbe]
  | some p =>
    obtain ⟨history, family⟩ := p
    by_cases h : Setting.IsUnreachable history
    · obtain ⟨e, hStep⟩ := step_session_unreachable hProbe h a session
      simp only [hStep, Chronicle.step, hProbe, if_pos h]
    · have hStep : (c.bench.step (.session number a session)).2 = c.bench.record family
          ((Setting.settled history).toProbe.withConnection a id session).2 := by
        simp only [Bench.step, probes_bench hProbe]
        split <;> rfl
      have hRecord := recordAll_withConnection (a := a)
        (mt Setting.failsOpening_settled_iff.mp h) session
      rw [hStep, step_session hProbe h]
      refine Bench.ext rfl rfl (bench_counters_modify rfl ?_ fun other hOther => ?_)
      · rw [counters, opens_session, closedOnce_session, if_pos rfl, hRecord]
        rfl
      · rw [counters, opens_session, closedOnce_session, if_neg hOther]
        rfl

theorem bench_step_close (c : Chronicle) (number : Nat) :
    (c.bench.step (.close number)).2 = (c.close number).bench := by
  cases hConnection : c.connections[number]? with
  | none =>
    have hNone : c.bench.connections[number]? = none := by
      rw [bench, List.getElem?_map, hConnection]
      rfl
    rw [Bench.step, hNone, close, List.modify_eq_self (List.getElem?_eq_none_iff.mp hConnection)]
  | some k =>
    have hSome := connections_bench hConnection
    have hConnections : (c.close number).bench.connections =
        c.bench.connections.modify number ({ · with isOpen := false }) :=
      map_modify (fun k => by simp) c.connections number
    have hCounters : ∀ family, (c.close number).counters family = ⟨c.opens family,
        c.closedOnce family + if k.family = family ∧ k.closings = 0 then 1 else 0⟩ :=
      fun family => by rw [counters, opens_close, closedOnce_close hConnection]
    simp only [Bench.step, hSome, decide_eq_true_eq]
    -- The first closing is counted; a later one finds the connection closed.
    by_cases hOpen : k.closings = 0
    · rw [if_pos hOpen]
      refine Bench.ext rfl hConnections.symm
        (bench_counters_modify rfl ?_ fun other hOther => ?_)
      · rw [hCounters, if_pos ⟨rfl, hOpen⟩]
        rfl
      · rw [hCounters, if_neg fun h => hOther h.1]
        rfl
    · rw [if_neg hOpen]
      have hSame : c.bench.connections.modify number ({ · with isOpen := false }) =
          c.bench.connections := modify_eq_self_of hSome (by simp [hOpen])
      have hFrozen : (c.close number).bench.counters = c.bench.counters := by
        refine bench_counters_eq rfl fun family => ?_
        rw [hCounters, if_neg fun h => hOpen h.2]
        rfl
      exact Bench.ext rfl (hConnections.trans hSame).symm hFrozen.symm

theorem bench_step (hc : c.WellFormed) (s : BenchStep) :
    (c.bench.step s).2 = (c.step s).bench := by
  cases s with
  | withTopic number topic partitions => exact modifyProbe_bench c number (.topic topic partitions)
  | unreachable number message => exact modifyProbe_bench c number (.unreachable message)
  | failingFetch number message => exact modifyProbe_bench c number (.failingFetch message)
  | clone number => exact bench_step_clone c number
  | create => exact bench_step_create hc
  | connect number a => exact bench_step_connect c number a
  | ask number topic => exact bench_step_ask c number topic
  | close number => exact bench_step_close c number
  | session number a session => exact bench_step_session c number a session

/-! ### Runs -/

theorem wellFormed_run (steps : List BenchStep) : (start.run steps).WellFormed := by
  induction steps using List.reverseRecOn with
  | nil => exact wellFormed_start
  | append_singleton steps s ih =>
    rw [run, List.foldl_append]
    exact ih.step s

/-- After any steps the bench is the one of their chronicle. -/
theorem bench_run (steps : List BenchStep) : Bench.start.run steps = (start.run steps).bench := by
  -- The last step is taken on the bench of the steps before it.
  induction steps using List.reverseRecOn with
  | nil => rfl
  | append_singleton steps s ih =>
    have hStep := bench_step (wellFormed_run steps) s
    rw [Bench.run, List.foldl_append, run, List.foldl_append]
    rw [← ih] at hStep
    exact hStep

end

/-- The counters of a probe, and what comes of an attempt to connect with it. -/
structure Accounts (c : Chronicle) (b : Bench) (number : Nat) (history : List Setting)
    (family : Nat) : Prop where
  opened : (b.countersOf number).opened = c.opens family
  closed : (b.countersOf number).closed = c.closedOnce family
  left_open : (b.countersOf number).opened = (b.countersOf number).closed + c.stillOpen family
  closed_le : (b.countersOf number).closed ≤ (b.countersOf number).opened
  fails_iff : ∀ a, (∃ e, (b.step (.connect number a)).1 = .failed e) ↔
    Setting.IsUnreachable history
  connects : ¬ Setting.IsUnreachable history → ∀ a,
    (b.step (.connect number a)).1 = .connection c.connections.length ∧
      (b.step (.connect number a)).2.countersOf number =
        ⟨c.opens family + 1, c.closedOnce family⟩
  sessions : ¬ Setting.IsUnreachable history → ∀ a session,
    (b.step (.session number a session)).2.countersOf number =
      ⟨c.opens family + 1, c.closedOnce family + 1⟩
  unchanged : Setting.IsUnreachable history → ∀ a, (b.step (.connect number a)).2 = b ∧
    ∀ session, ∃ e, b.step (.session number a session) = (.failed e, b)

theorem accounts_bench {c : Chronicle} (hc : c.WellFormed) {number : Nat} {history : List Setting}
    {family : Nat} (h : c.probes[number]? = some (history, family)) :
    Accounts c c.bench number history family := by
  have hCounters : c.bench.countersOf number = ⟨c.opens family, c.closedOnce family⟩ :=
    countersOf_bench hc h
  have hSplit := c.opens_eq_closedOnce_add_stillOpen family
  refine ⟨by rw [hCounters], by rw [hCounters], by rw [hCounters, hSplit], ?_, fun a => ?_, ?_, ?_,
    ?_⟩
  · rw [hCounters, hSplit]
    exact Nat.le_add_right _ _
  · constructor
    · rintro ⟨e, hFailed⟩
      refine Decidable.byContradiction fun hReachable => ?_
      rw [step_connect_reachable h hReachable] at hFailed
      cases hFailed
    · intro hUnreachable
      obtain ⟨e, hStep⟩ := step_connect_unreachable h hUnreachable a
      exact ⟨e, by rw [hStep]⟩
  · intro hReachable a
    have hAfter := hc.step (.connect number a)
    rw [step_connect_reachable h hReachable]
    rw [step_connect h hReachable] at hAfter ⊢
    rw [countersOf_bench hAfter h, counters, opens_connect, closedOnce_connect c rfl, if_pos rfl]
    exact ⟨rfl, rfl⟩
  · intro hReachable a session
    have hAfter := hc.step (.session number a session)
    rw [bench_step_session]
    rw [step_session h hReachable] at hAfter ⊢
    rw [countersOf_bench hAfter h, counters, opens_session, closedOnce_session, if_pos rfl]
  · intro hUnreachable a
    obtain ⟨e, hStep⟩ := step_connect_unreachable h hUnreachable a
    exact ⟨by rw [hStep], step_session_unreachable h hUnreachable a⟩

theorem step_close_of_closed {c : Chronicle} {number : Nat} {k : Opened}
    (h : c.connections[number]? = some k) (hClosed : 0 < k.closings) :
    c.bench.step (.close number) = (.done, c.bench) := by
  simp only [Bench.step, connections_bench h, hClosed.ne', decide_false, Bool.false_eq_true, if_false]

/-- After any steps the counters of a family are those of its chronicle, the same for all its probes.
So as many connections are open as have not been closed yet, and closing one again changes nothing.
Connecting fails, without a change, exactly if the failure that was set last says so. -/
theorem connections_accounted (steps : List BenchStep) :
    let c := start.run steps
    let b := Bench.start.run steps
    (b.probes.length = c.probes.length ∧ b.connections.length = c.connections.length) ∧
    (∀ number history family, c.probes[number]? = some (history, family) →
      Accounts c b number history family) ∧
    (∀ number other history history' family, c.probes[number]? = some (history, family) →
      c.probes[other]? = some (history', family) → b.countersOf number = b.countersOf other) ∧
    ∀ number k, c.connections[number]? = some k → 0 < k.closings →
      b.step (.close number) = (.done, b) := by
  intro c b
  have hc : c.WellFormed := wellFormed_run steps
  rw [show b = c.bench from bench_run steps]
  refine ⟨⟨List.length_map _, List.length_map _⟩, fun _ _ _ h => accounts_bench hc h, ?_,
    fun _ _ h hClosed => step_close_of_closed h hClosed⟩
  intro number other history history' family h h'
  rw [countersOf_bench hc h, countersOf_bench hc h']

/-- Two clones, one of which becomes unreachable; a connection is closed twice, and one is left. -/
theorem connections_accounted_clones :
    let a : Address := ⟨[⟨"b1", 9092⟩], "orders", false, by decide⟩
    let steps : List BenchStep := [.connect 0 a, .clone 0, .unreachable 1 "down", .connect 1 a,
      .close 0, .close 0, .connect 0 a, .withConnection 0 a ["orders"]]
    let b := Bench.start.run steps
    b.countersOf 0 = ⟨3, 2⟩ ∧ b.countersOf 1 = ⟨3, 2⟩ ∧ b.step (.close 0) = (.done, b) ∧
      ∃ e, (b.step (.connect 1 a)).1 = .failed e := by
  intro a steps b
  obtain ⟨_, hAccounts, hShared, hClosed⟩ := connections_accounted steps
  have hFirst : (start.run steps).probes[0]? = some ([], 0) := by rfl
  have hSecond : (start.run steps).probes[1]? = some ([.unreachable "down"], 0) := by rfl
  have hAccount := hAccounts 0 [] 0 hFirst
  have hCounters : b.countersOf 0 = ⟨3, 2⟩ := by
    have hOpened : (b.countersOf 0).opened = 3 := hAccount.opened
    have hClosedOnce : (b.countersOf 0).closed = 2 := hAccount.closed
    rw [← hOpened, ← hClosedOnce]
  refine ⟨hCounters, ?_, hClosed 0 ⟨[], 0, 2⟩ rfl (by decide), ?_⟩
  · rw [← hShared 0 1 _ _ 0 hFirst hSecond, hCounters]
  · exact ((hAccounts 1 _ 0 hSecond).fails_iff a).mpr ⟨"down", rfl⟩

end Chronicle

end StreamAdmission
