import StreamAdmission.Proofs.Probe.Accounting

/-!
# Answers from a snapshot

A connection answers as its probe was set when it was opened: from the own history of the probe up to
then, and from nothing that happens on the bench before or later beside it.
-/

namespace StreamAdmission

namespace Setting

/-- The count that the setting registers for a topic. -/
def countFor? (topic : String) : Setting → Option UInt32
  | .topic name partitions => if name = topic then some partitions else none
  | .unreachable _ => none
  | .failingFetch _ => none

/-- The count that was registered last for a topic. -/
def lastCount? (topic : String) (history : List Setting) : Option UInt32 :=
  (history.filterMap (countFor? topic)).getLast?

/-- What a history says to a question: a failure if the last failure set is one of asking, and
otherwise the count registered last. -/
def told (history : List Setting) (topic : String) : Reply :=
  match lastFailure? history with
  | some (.failingFetch message) => .error (.fetch topic message none)
  | _ => .ok (lastCount? topic history)

/-- The failure to which a probe is set. -/
def injected? : Setting → Option InjectedFailure
  | .topic .. => none
  | .unreachable message => some (.opening message)
  | .failingFetch message => some (.fetching message)

theorem lastCount?_append_singleton (topic : String) (history : List Setting)
    (setting : Setting) :
    lastCount? topic (history ++ [setting]) =
      (setting.countFor? topic).or (lastCount? topic history) := by
  rw [lastCount?, List.filterMap_append]
  cases hCount : setting.countFor? topic with
  | none => simp [hCount, lastCount?]
  | some partitions => simp [hCount]

theorem get?_topics_settled (history : List Setting) (topic : String) :
    (settled history).topics.get? topic = lastCount? topic history := by
  induction history using List.reverseRecOn with
  | nil => rfl
  | append_singleton history setting ih =>
    rw [settled_append_singleton, lastCount?_append_singleton, ← ih]
    cases setting with
    | topic name partitions =>
      rw [countFor?]
      by_cases h : name = topic
      · rw [if_pos h, h]
        exact Table.get?_insert_self _ _ _
      · rw [if_neg h]
        exact Table.get?_insert_of_ne _ (Ne.symm h) _
    | unreachable message => rfl
    | failingFetch message => rfl

theorem failure_settled (history : List Setting) :
    (settled history).failure = (lastFailure? history).bind injected? := by
  induction history using List.reverseRecOn with
  | nil => rfl
  | append_singleton history setting ih =>
    rw [settled_append_singleton, lastFailure?_append_singleton]
    cases setting with
    | topic name partitions => exact ih
    | unreachable message => rfl
    | failingFetch message => rfl

theorem answer_settled (history : List Setting) (topic : String) :
    (settled history).answer topic = told history topic := by
  rw [StaticProbe.answer, failure_settled, get?_topics_settled, told]
  cases hLast : lastFailure? history with
  | none => rfl
  | some setting => cases setting <;> rfl

end Setting

/-- What comes of a question with this reply. -/
def BenchOutcome.ofReply : Reply → BenchOutcome
  | .error e => .failed e
  | .ok partitions => .count partitions

/-! ### Own histories -/

/-- The setting that a step makes on a probe. -/
def BenchStep.setting? (number : Nat) : BenchStep → Option Setting
  | .withTopic other topic partitions =>
    if other = number then some (.topic topic partitions) else none
  | .unreachable other message => if other = number then some (.unreachable message) else none
  | .failingFetch other message => if other = number then some (.failingFetch message) else none
  | _ => none

/-- The own history of a probe after some steps: the settings made on it, behind the history that its
original had when the probe was cloned. -/
inductive OwnHistory : List BenchStep → Nat → List Setting → Prop where
  | first : OwnHistory [] 0 []
  | created (steps : List BenchStep) :
    OwnHistory (steps ++ [.create]) (Bench.start.run steps).probes.length []
  | cloned {steps : List BenchStep} {original : Nat} {history : List Setting}
    (h : OwnHistory steps original history) :
    OwnHistory (steps ++ [.clone original]) (Bench.start.run steps).probes.length history
  | set {steps : List BenchStep} {s : BenchStep} {number : Nat} {history : List Setting}
    {setting : Setting} (h : OwnHistory steps number history)
    (sets : s.setting? number = some setting) :
    OwnHistory (steps ++ [s]) number (history ++ [setting])
  | kept {steps : List BenchStep} {s : BenchStep} {number : Nat} {history : List Setting}
    (h : OwnHistory steps number history) (sets : s.setting? number = none) :
    OwnHistory (steps ++ [s]) number history

namespace Chronicle

theorem run_append_singleton (c : Chronicle) (steps : List BenchStep) (s : BenchStep) :
    c.run (steps ++ [s]) = (c.run steps).step s := by
  rw [run, List.foldl_append]
  rfl

def history? (c : Chronicle) (number : Nat) : Option (List Setting) :=
  c.probes[number]?.map Prod.fst

theorem history?_set (c : Chronicle) (other number : Nat) (setting : Setting) :
    (c.set other setting).history? number =
      (c.history? number).map fun history =>
        if other = number then history ++ [setting] else history := by
  rw [history?, set, List.getElem?_modify, history?]
  cases c.probes[number]? with
  | none => rfl
  | some probe => by_cases h : other = number <;> simp [h]

theorem history?_append_of_some {c c' : Chronicle} {new : List (List Setting × Nat)}
    (hProbes : c'.probes = c.probes ++ new) {number : Nat} {history : List Setting}
    (h : c.history? number = some history) : c'.history? number = some history := by
  obtain ⟨probe, hProbe, hHistory⟩ := Option.map_eq_some_iff.mp h
  obtain ⟨hLess, _⟩ := List.getElem?_eq_some_iff.mp hProbe
  rw [history?, hProbes, List.getElem?_append_left hLess]
  exact h

theorem probes_step_connect (c : Chronicle) (number : Nat) (a : Address) :
    (c.step (.connect number a)).probes = c.probes := by
  rw [step]
  split
  · rfl
  · split <;> rfl

theorem probes_step_session (c : Chronicle) (number : Nat) (a : Address)
    (session : Session (Except MetadataError (List (Option UInt32)))) :
    (c.step (.session number a session)).probes = c.probes := by
  rw [step]
  split
  · rfl
  · split <;> rfl

/-- A step adds to the history of a probe the setting that it makes there, and nothing else. -/
theorem history?_step {c : Chronicle} {number : Nat} {history : List Setting}
    (h : c.history? number = some history) (s : BenchStep) :
    (c.step s).history? number = some (history ++ (s.setting? number).toList) := by
  have hSet : ∀ other setting, (c.set other setting).history? number =
      some (history ++ (if other = number then some setting else none).toList) := by
    intro other setting
    rw [history?_set, h]
    by_cases hSame : other = number <;> simp [hSame]
  have hKept : ∀ new, (c.step s).probes = c.probes ++ new →
      (c.step s).history? number = some (history ++ []) := by
    intro new hProbes
    rw [List.append_nil]
    exact history?_append_of_some hProbes h
  cases s with
  | withTopic other topic partitions => exact hSet other _
  | unreachable other message => exact hSet other _
  | failingFetch other message => exact hSet other _
  | clone original => exact hKept _ rfl
  | create => exact hKept _ rfl
  | connect other a => exact hKept [] (by rw [probes_step_connect, List.append_nil])
  | ask other topic => exact hKept [] (List.append_nil _).symm
  | close other => exact hKept [] (List.append_nil _).symm
  | session other a session => exact hKept [] (by rw [probes_step_session, List.append_nil])

theorem history?_eq_none_iff {c : Chronicle} {number : Nat} :
    c.history? number = none ↔ c.probes.length ≤ number := by
  rw [history?, Option.map_eq_none_iff, List.getElem?_eq_none_iff]

/-- The probe that a step adds is a new one or a clone. -/
theorem history?_step_new {c : Chronicle} {number : Nat} {history : List Setting} {s : BenchStep}
    (hNone : c.history? number = none) (h : (c.step s).history? number = some history) :
    number = c.probes.length ∧ ((s = .create ∧ history = []) ∨
      ∃ original, s = .clone original ∧ c.history? original = some history) := by
  have hSame : ∀ {c' : Chronicle}, c'.probes.length = c.probes.length → c'.history? number ≠
      some history := by
    intro c' hLength hSome
    rw [history?_eq_none_iff, ← hLength, ← history?_eq_none_iff, hSome] at hNone
    cases hNone
  have hLast : ∀ {c' : Chronicle} {probe}, c'.probes = c.probes ++ [probe] →
      c'.history? number = some history → number = c.probes.length ∧ probe.1 = history := by
    intro c' probe hProbes hSome
    rw [history?, hProbes, List.getElem?_append_right (history?_eq_none_iff.mp hNone)] at hSome
    obtain ⟨found, hFound, rfl⟩ := Option.map_eq_some_iff.mp hSome
    rw [List.getElem?_singleton] at hFound
    split at hFound
    · rename_i hZero
      cases hFound
      have hAbove := history?_eq_none_iff.mp hNone
      exact ⟨by omega, rfl⟩
    · cases hFound
  cases s with
  | withTopic other topic partitions => exact absurd h (hSame (List.length_modify _ _ _))
  | unreachable other message => exact absurd h (hSame (List.length_modify _ _ _))
  | failingFetch other message => exact absurd h (hSame (List.length_modify _ _ _))
  | clone original =>
    cases hProbe : c.probes[original]? with
    | none =>
      have hProbes : (c.step (.clone original)).probes = c.probes := by
        rw [step, hProbe]
        exact List.append_nil _
      exact absurd h (hSame (congrArg List.length hProbes))
    | some probe =>
      have hProbes : (c.step (.clone original)).probes = c.probes ++ [probe] := by
        rw [step, hProbe]
        rfl
      obtain ⟨hNumber, hHistory⟩ := hLast hProbes h
      refine ⟨hNumber, Or.inr ⟨original, rfl, ?_⟩⟩
      rw [history?, hProbe, ← hHistory]
      rfl
  | create =>
    obtain ⟨hNumber, hHistory⟩ := hLast rfl h
    exact ⟨hNumber, Or.inl ⟨rfl, hHistory.symm⟩⟩
  | connect other a =>
    exact absurd h (hSame (congrArg List.length (c.probes_step_connect other a)))
  | ask other topic => exact absurd h (hSame rfl)
  | close other => exact absurd h (hSame rfl)
  | session other a session =>
    exact absurd h (hSame (congrArg List.length (c.probes_step_session other a session)))

theorem length_probes_run (steps : List BenchStep) :
    (Bench.start.run steps).probes.length = (start.run steps).probes.length := by
  rw [bench_run]
  exact List.length_map _

theorem history?_step_self {c : Chronicle} {original : Nat} {history : List Setting}
    (h : c.history? original = some history) :
    (c.step (.clone original)).history? c.probes.length = some history := by
  obtain ⟨probe, hProbe, rfl⟩ := Option.map_eq_some_iff.mp h
  rw [history?, step, hProbe]
  simp

/-- The own histories are those of the chronicle. -/
theorem ownHistory_iff {steps : List BenchStep} {number : Nat} {history : List Setting} :
    OwnHistory steps number history ↔ (start.run steps).history? number = some history := by
  constructor
  · intro h
    induction h with
    | first => rfl
    | created steps =>
      rw [length_probes_run, run_append_singleton, history?, step]
      simp
    | cloned _ ih =>
      rw [length_probes_run, run_append_singleton]
      exact history?_step_self ih
    | set _ sets ih =>
      rw [run_append_singleton, history?_step ih, sets]
      rfl
    | kept _ sets ih =>
      rw [run_append_singleton, history?_step ih, sets, Option.toList_none, List.append_nil]
  · intro h
    induction steps using List.reverseRecOn generalizing number history with
    | nil =>
      cases number with
      | zero =>
        cases h
        exact .first
      | succ number => cases h
    | append_singleton steps s ih =>
      rw [run_append_singleton] at h
      cases hBefore : (start.run steps).history? number with
      | none =>
        obtain ⟨rfl, ⟨rfl, rfl⟩ | ⟨original, rfl, hOriginal⟩⟩ := history?_step_new hBefore h
        · rw [← length_probes_run]
          exact .created steps
        · rw [← length_probes_run]
          exact .cloned (ih hOriginal)
      | some before =>
        have hStep := history?_step hBefore s
        rw [h, Option.some.injEq] at hStep
        cases hSets : s.setting? number with
        | none =>
          rw [hStep, hSets, Option.toList_none, List.append_nil]
          exact .kept (ih hBefore) hSets
        | some setting =>
          rw [hStep, hSets]
          exact .set (ih hBefore) hSets

/-! ### Open connections -/

/-- Whatever is done later, a connection keeps the history with which it was opened. -/
theorem exists_connection_step {c : Chronicle} {number : Nat} {k : Opened}
    (h : c.connections[number]? = some k) (s : BenchStep) :
    ∃ k', (c.step s).connections[number]? = some k' ∧ k'.history = k.history := by
  obtain ⟨hLess, _⟩ := List.getElem?_eq_some_iff.mp h
  cases s with
  | connect other a =>
    rw [step]
    split
    · exact ⟨k, h, rfl⟩
    split
    · exact ⟨k, h, rfl⟩
    · exact ⟨k, (List.getElem?_append_left hLess).trans h, rfl⟩
  | close other =>
    rw [step, close, List.getElem?_modify, h]
    by_cases hSame : other = number <;> simp [hSame]
  | session other a session =>
    rw [step]
    split
    · exact ⟨k, h, rfl⟩
    split <;> exact ⟨k, h, rfl⟩
  | _ => exact ⟨k, h, rfl⟩

theorem exists_connection_run {c : Chronicle} {number : Nat} {k : Opened}
    (h : c.connections[number]? = some k) (later : List BenchStep) :
    ∃ k', (c.run later).connections[number]? = some k' ∧ k'.history = k.history := by
  induction later generalizing c k with
  | nil => exact ⟨k, h, rfl⟩
  | cons s later ih =>
    obtain ⟨next, hNext, hSame⟩ := exists_connection_step h s
    obtain ⟨last, hLast, hHistory⟩ := ih hNext
    exact ⟨last, hLast, hHistory.trans hSame⟩

theorem step_ask {c : Chronicle} {number : Nat} {k : Opened}
    (h : c.connections[number]? = some k) (topic : String) :
    c.bench.step (.ask number topic) = (.ofReply (Setting.told k.history topic), c.bench) := by
  have hConnection := connections_bench h
  simp only [Bench.step, hConnection, Setting.answer_settled]
  cases Setting.told k.history topic <;> rfl

theorem exists_connection_of_connect {c : Chronicle} {number i : Nat} {history : List Setting}
    {a : Address} (hOwn : c.history? number = some history)
    (hOpen : (c.bench.step (.connect number a)).1 = .connection i) :
    ∃ k, (c.step (.connect number a)).connections[i]? = some k ∧ k.history = history := by
  obtain ⟨⟨own, family⟩, hProbe, rfl⟩ := Option.map_eq_some_iff.mp hOwn
  by_cases h : Setting.IsUnreachable own
  · obtain ⟨e, hFails⟩ := step_connect_unreachable hProbe h a
    rw [hFails] at hOpen
    cases hOpen
  · rw [step_connect_reachable hProbe h a] at hOpen
    cases hOpen
    rw [step_connect hProbe h]
    exact ⟨⟨own, family, 0⟩, List.getElem?_concat_length, rfl⟩

/-- Each probe has one own history. A connection that is opened on it answers every question from the
history that the probe had then, whatever is done later, and a question changes nothing. -/
theorem snapshot_answers (before : List BenchStep) (number : Nat) :
    (number < (Bench.start.run before).probes.length →
      ∃! history, OwnHistory before number history) ∧
    ∀ history, OwnHistory before number history → ∀ a i,
      ((Bench.start.run before).step (.connect number a)).1 = .connection i →
      ∀ later topic,
        let b := Bench.start.run (before ++ .connect number a :: later)
        b.step (.ask i topic) = (.ofReply (Setting.told history topic), b) := by
  constructor
  · intro hLess
    cases hHistory : (start.run before).history? number with
    | none =>
      rw [history?_eq_none_iff, ← length_probes_run] at hHistory
      omega
    | some history =>
      refine ⟨history, ownHistory_iff.mpr hHistory, fun other hOther => ?_⟩
      exact Option.some.inj ((ownHistory_iff.mp hOther).symm.trans hHistory)
  · intro history hOwn a i hOpen later topic b
    rw [bench_run] at hOpen
    obtain ⟨k, hOpened, hHistory⟩ := exists_connection_of_connect (ownHistory_iff.mp hOwn) hOpen
    obtain ⟨last, hLast, hSame⟩ := exists_connection_run hOpened later
    have hRun : start.run (before ++ .connect number a :: later) =
        ((start.run before).step (.connect number a)).run later := by
      rw [run, List.foldl_append]
      rfl
    have hBench : b = (((start.run before).step (.connect number a)).run later).bench := by
      rw [← hRun]
      exact bench_run _
    rw [hBench, step_ask hLast, hSame, hHistory]

/-- A clone is set further and connected with; then its original and itself are set anew, and the
connection is closed. A second connection was opened when every question was to fail. -/
theorem snapshot_answers_clone :
    let a : Address := ⟨[⟨"b1", 9092⟩], "orders", false, by decide⟩
    let before : List BenchStep := [.withTopic 0 "orders" 3, .clone 0, .withTopic 0 "orders" 5,
      .withTopic 1 "events" 2]
    let between : List BenchStep := [.failingFetch 1 "down"]
    let later : List BenchStep := [.withTopic 1 "orders" 7, .unreachable 1 "gone", .close 0]
    let b := Bench.start.run (before ++ .connect 1 a :: (between ++ .connect 1 a :: later))
    b.step (.ask 0 "orders") = (.count (some 3), b) ∧ b.step (.ask 0 "events") = (.count (some 2), b) ∧
      b.step (.ask 0 "others") = (.count none, b) ∧
      b.step (.ask 1 "orders") = (.failed (.fetch "orders" "down" none), b) := by
  intro a before between later b
  have hFirst : OwnHistory before 1 [.topic "orders" 3, .topic "events" 2] :=
    ownHistory_iff.mpr rfl
  have hSecond : OwnHistory (before ++ .connect 1 a :: between) 1
      [.topic "orders" 3, .topic "events" 2, .failingFetch "down"] := ownHistory_iff.mpr rfl
  have hAnswers := (snapshot_answers before 1).2 _ hFirst a 0 rfl (between ++ .connect 1 a :: later)
  have hFails := (snapshot_answers (before ++ .connect 1 a :: between) 1).2 _ hSecond a 1 rfl later
  exact ⟨hAnswers "orders", hAnswers "events", hAnswers "others", hFails "orders"⟩

end Chronicle

end StreamAdmission
