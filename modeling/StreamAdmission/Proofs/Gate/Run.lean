import StreamAdmission.Probe.Static
import StreamAdmission.Proofs.Broker.Canonical
import StreamAdmission.Proofs.Gate.Verdict

/-!
# Runs of a gate

What a probe gets to see while one definition after the other is validated. A probe in use may
change its answers from one validation to the next. In each validation it sees nothing, or an attempt
to connect that fails, or a connection that is opened, asked once and closed; and it sees something
only if the address is literal and listed. So the counters of a static probe stay balanced.
-/

namespace StreamAdmission

/-- A probe in use: how it behaves in a state, and its state after some contacts. -/
structure LiveProbe (σ : Type) where
  behavior : σ → Probe
  after : σ → List Contact → σ

/-- A static probe always behaves in the same way; what changes are its counters. -/
def StaticProbe.live (p : StaticProbe) : LiveProbe Counters := ⟨fun _ => p.toProbe, .recordAll⟩

namespace Gate

/-- One validation of a run, with the state of the probe before and after it. -/
structure Step (σ : Type) where
  before : σ
  definition : Definition
  verdict : Verdict
  after : σ

variable {σ : Type}

def step (gate : Gate) (live : LiveProbe σ) (s : σ) (d : Definition) (known : List Definition) :
    Step σ :=
  let verdict := gate.validate (live.behavior s) d known
  ⟨s, d, verdict, live.after s verdict.contacts⟩

/-- Validates definitions one after the other, each with the streams registered by then. -/
def run (gate : Gate) (live : LiveProbe σ) : σ → List (Definition × List Definition) →
    List (Step σ)
  | _, [] => []
  | s, (d, known) :: rest =>
    let step := gate.step live s d known
    step :: run gate live step.after rest

/-- All that the probe gets to see in a run, in order. -/
def seen (steps : List (Step σ)) : List Contact := steps.flatMap (·.verdict.contacts)

/-- What a probe sees of a validation that reaches it. -/
inductive Exchange (probe : Probe) (a : Address) : List Contact → Prop where
  | refused {e : MetadataError} (h : probe.connect a = .error e) : Exchange probe a [.refused a]
  | served {answer : String → Reply} (h : probe.connect a = .ok answer) :
    Exchange probe a [.opened a, .asked a.topic, .closed]

/-- How a validation treats the probe. -/
structure Disciplined (gate : Gate) (probe : Probe) (d : Definition) (verdict : Verdict) :
    Prop where
  silent_iff : verdict.contacts = [] ↔ ∃ r, verdict.result = .error r ∧
    (r.kind = .format ∨ r.kind = .wildcardNotAllowed ∨ r.kind = .clusterNotWhitelisted)
  exchange : verdict.contacts = [] ∨ ∃ a, Cleared gate d a ∧ Endpoint.Sorted a.brokers ∧
    Exchange probe a verdict.contacts
  reached : (∃ a, Cleared gate d a) → verdict.contacts ≠ []

section
variable {gate : Gate} {probe : Probe} {d : Definition}

theorem Counted.exchange {a : Address} {n : UInt32} (h : Counted gate probe d a n) :
    Exchange probe a [.opened a, .asked a.topic, .closed] := by
  obtain ⟨answer, hConnect, _⟩ := h.counts
  exact .served hConnect

theorem Finds.exchange {f : Finding} (h : Finds gate probe d f) :
    f.contacts = [] ∨ ∃ a, Cleared gate d a ∧ Exchange probe a f.contacts := by
  cases h with
  | unreadable _ => exact Or.inl rfl
  | pattern _ _ => exact Or.inl rfl
  | unlisted _ _ _ => exact Or.inl rfl
  | unreachable cleared h => exact Or.inr ⟨_, cleared, .refused h⟩
  | unanswered cleared connects _ => exact Or.inr ⟨_, cleared, .served connects⟩
  | unavailable cleared connects _ => exact Or.inr ⟨_, cleared, .served connects⟩
  | mismatched cleared counts _ _ =>
    obtain ⟨answer, hConnect, _⟩ := counts
    exact Or.inr ⟨_, cleared, .served hConnect⟩
  | undecodable counted _ _ => exact Or.inr ⟨_, counted.toCleared, counted.exchange⟩
  | uncovered counted _ _ _ _ => exact Or.inr ⟨_, counted.toCleared, counted.exchange⟩
  | admissible h => exact Or.inr ⟨_, h.toCleared, h.toCounted.exchange⟩

theorem Finds.contacts_ne_nil {f : Finding} (h : Finds gate probe d f) {a : Address}
    (cleared : Cleared gate d a) : f.contacts ≠ [] := by
  have hSame : ∀ {b : Address}, Address.parse d.source.connectionString = .ok b → b = a := by
    intro b hb
    rw [cleared.reads] at hb
    exact (Except.ok.inj hb).symm
  cases h with
  | unreadable hf =>
    rw [cleared.reads] at hf
    cases hf
  | pattern reads hf =>
    cases hSame reads
    exact absurd cleared.literal hf
  | unlisted reads _ hf =>
    cases hSame reads
    exact absurd cleared.listed hf
  | _ => exact List.cons_ne_nil _ _

theorem disciplined_validate (gate : Gate) (probe : Probe) (d : Definition)
    (known : List Definition) : Disciplined gate probe d (gate.validate probe d known) := by
  obtain ⟨f, hf⟩ := exists_finds gate probe d
  rw [validate_eq_verdict hf]
  refine ⟨?_, ?_, fun ⟨a, cleared⟩ => hf.contacts_ne_nil cleared⟩
  · cases f <;> simp [Finding.verdict, Finding.contacts, Finding.refusal?, Refusal.kind]
  · rcases hf.exchange with hNil | ⟨a, cleared, hExchange⟩
    · exact Or.inl hNil
    · exact Or.inr ⟨a, cleared, a.ordered, hExchange⟩

theorem Disciplined.cleared_of_opened {verdict : Verdict} (h : Disciplined gate probe d verdict)
    {a : Address} (ha : .opened a ∈ verdict.contacts) : Cleared gate d a := by
  rcases h.exchange with hNil | ⟨b, cleared, _, hExchange⟩
  · rw [hNil] at ha
    cases ha
  · generalize verdict.contacts = contacts at ha hExchange
    cases hExchange with
    | refused _ => simp at ha
    | served _ =>
      obtain rfl : a = b := by simpa using ha
      exact cleared

end

/-- A property of each step that starts from an invariant of the states holds all along a run. -/
theorem forall_mem_run {gate : Gate} {live : LiveProbe σ} (Inv : σ → Prop) {P : Step σ → Prop}
    (hStep : ∀ s d known, Inv s → P (gate.step live s d known) ∧
      Inv (gate.step live s d known).after)
    {start : σ} (hStart : Inv start) (requests : List (Definition × List Definition)) :
    ∀ step ∈ gate.run live start requests, P step := by
  induction requests generalizing start with
  | nil => exact fun _ h => absurd h List.not_mem_nil
  | cons request requests ih =>
    obtain ⟨d, known⟩ := request
    obtain ⟨hFirst, hAfter⟩ := hStep start d known hStart
    rw [run, List.forall_mem_cons]
    exact ⟨hFirst, ih hAfter⟩

theorem disciplined_run (gate : Gate) (live : LiveProbe σ) (start : σ)
    (requests : List (Definition × List Definition)) :
    ∀ step ∈ gate.run live start requests,
      Disciplined gate (live.behavior step.before) step.definition step.verdict :=
  forall_mem_run (fun _ => True)
    (fun s d known _ => ⟨disciplined_validate gate (live.behavior s) d known, trivial⟩)
    trivial requests

end Gate

namespace StaticProbe

/-- The probe is set to fail when a connection is opened. -/
def FailsOpening (p : StaticProbe) : Prop := ∃ message, p.failure = some (.opening message)

theorem connect_eq_error_iff {p : StaticProbe} {a : Address} :
    (∃ e, p.connect a = .error e) ↔ p.FailsOpening := by
  unfold connect FailsOpening
  split
  · rename_i message h
    exact iff_of_true ⟨_, rfl⟩ ⟨message, h⟩
  · rename_i h
    refine iff_of_false (nofun) ?_
    rintro ⟨message, hMessage⟩
    exact h message hMessage

end StaticProbe

namespace Gate

theorem Exchange.recordAll_of_fails {p : StaticProbe} {a : Address} {contacts : List Contact}
    (h : Exchange p.toProbe a contacts) (fails : p.FailsOpening) (c : Counters) :
    c.recordAll contacts = c := by
  cases h with
  | refused _ => rfl
  | served hConnect =>
    obtain ⟨e, hError⟩ := StaticProbe.connect_eq_error_iff.mpr fails
    have hOk : p.connect a = _ := hConnect
    rw [hError] at hOk
    cases hOk

theorem Exchange.recordAll_of_opens {p : StaticProbe} {a : Address} {contacts : List Contact}
    (h : Exchange p.toProbe a contacts) (opens : ¬ p.FailsOpening) (c : Counters) :
    c.recordAll contacts = ⟨c.opened + 1, c.closed + 1⟩ := by
  cases h with
  | refused hConnect => exact absurd (StaticProbe.connect_eq_error_iff.mp ⟨_, hConnect⟩) opens
  | served _ => rfl

/-- The step reaches the probe, and the probe does not fail to open. -/
def Opens (gate : Gate) (p : StaticProbe) (step : Step Counters) : Prop :=
  (∃ a, Cleared gate step.definition a) ∧ ¬ p.FailsOpening

theorem after_eq_of_opens {gate : Gate} {p : StaticProbe} {c : Counters} {d : Definition}
    {known : List Definition} (h : Opens gate p (gate.step p.live c d known)) :
    (gate.step p.live c d known).after = ⟨c.opened + 1, c.closed + 1⟩ := by
  have hDisciplined := disciplined_validate gate p.toProbe d known
  rcases hDisciplined.exchange with hNil | ⟨a, _, _, hExchange⟩
  · exact absurd hNil (hDisciplined.reached h.1)
  · exact hExchange.recordAll_of_opens h.2 c

theorem after_eq_of_not_opens {gate : Gate} {p : StaticProbe} {c : Counters} {d : Definition}
    {known : List Definition} (h : ¬ Opens gate p (gate.step p.live c d known)) :
    (gate.step p.live c d known).after = c := by
  rcases (disciplined_validate gate p.toProbe d known).exchange with
    hNil | ⟨a, cleared, _, hExchange⟩
  · exact congrArg c.recordAll hNil
  · have hFails : p.FailsOpening := Classical.not_not.mp fun hOpens => h ⟨⟨a, cleared⟩, hOpens⟩
    exact hExchange.recordAll_of_fails hFails c

/-- The counters of a step stay balanced: both grow by one if it opens a connection, and else not at
all. -/
structure Balanced (gate : Gate) (p : StaticProbe) (step : Step Counters) : Prop where
  balanced : step.after.opened = step.after.closed
  grown : ∃ n ≤ 1, step.after.opened = step.before.opened + n ∧
    step.after.closed = step.before.closed + n ∧ (n = 1 ↔ Opens gate p step)

theorem balanced_step (gate : Gate) (p : StaticProbe) {c : Counters} (h : c.opened = c.closed)
    (d : Definition) (known : List Definition) :
    Balanced gate p (gate.step p.live c d known) := by
  by_cases hOpens : Opens gate p (gate.step p.live c d known)
  · have hAfter := after_eq_of_opens hOpens
    refine ⟨by rw [hAfter, h], 1, Nat.le_refl 1, ?_, ?_, iff_of_true rfl hOpens⟩ <;>
    · rw [hAfter]
      rfl
  · have hAfter := after_eq_of_not_opens hOpens
    refine ⟨by rw [hAfter, h], 0, Nat.zero_le 1, ?_, ?_, iff_of_false (by decide) hOpens⟩ <;>
    · rw [hAfter]
      rfl

theorem balanced_run (gate : Gate) (p : StaticProbe) {start : Counters}
    (h : start.opened = start.closed) (requests : List (Definition × List Definition)) :
    ∀ step ∈ gate.run p.live start requests, Balanced gate p step :=
  forall_mem_run (fun c => c.opened = c.closed) (fun _ d known hc =>
    have hStep := balanced_step gate p hc d known
    ⟨hStep, hStep.balanced⟩) h requests

/-- In a run of any length each validation shows the probe nothing, a failed attempt to connect, or
one connection that is opened, asked and closed; nothing exactly if the definition is refused before
the probe is needed. So no connection is ever opened for a pattern or for a cluster that is not
listed, and a static probe has closed after each step as many connections as it has opened. -/
theorem probe_discipline (gate : Gate) (requests : List (Definition × List Definition)) :
    (∀ (σ : Type) (live : LiveProbe σ) (start : σ),
      (∀ step ∈ gate.run live start requests,
        Disciplined gate (live.behavior step.before) step.definition step.verdict) ∧
      ∀ a, .opened a ∈ seen (gate.run live start requests) →
        gate.whitelist.Admits a ∧ Topic.IsLiteral a.topic) ∧
    ∀ (p : StaticProbe) (start : Counters), start.opened = start.closed →
      ∀ step ∈ gate.run p.live start requests, Balanced gate p step := by
  refine ⟨fun σ live start => ?_, fun p start h => balanced_run gate p h requests⟩
  have hRun := disciplined_run gate live start requests
  refine ⟨hRun, fun a ha => ?_⟩
  obtain ⟨step, hStep, hOpened⟩ := List.mem_flatMap.mp ha
  have hCleared := (hRun step hStep).cleared_of_opened hOpened
  exact ⟨hCleared.listed, hCleared.literal⟩

/-- A cluster that is not listed, and then one that is. -/
theorem probe_discipline_listed :
    let gate : Gate := ⟨⟨some "b1:9092", none, none, 30000, ∅⟩, ⟨[⟨"b1", 9092⟩], by decide⟩⟩
    let probe := StaticProbe.empty.withTopic "orders" 5
    let requests := [(Definition.ofSource "s" "kafka://b2:9092/orders", []),
      (Definition.ofSource "t" "kafka://b2:9092,b1:9092/orders", [])]
    let a : Address := ⟨[⟨"b1", 9092⟩, ⟨"b2", 9092⟩], "orders", false, by decide⟩
    ∃ step ∈ gate.run probe.live ⟨0, 0⟩ requests,
      step.verdict.contacts = [.opened a, .asked "orders", .closed] ∧
      Disciplined gate probe.toProbe step.definition step.verdict ∧
      gate.whitelist.Admits a ∧ Topic.IsLiteral a.topic ∧ Balanced gate probe step := by
  intro gate probe requests a
  let step := gate.step probe.live ⟨0, 0⟩ (.ofSource "t" "kafka://b2:9092,b1:9092/orders") []
  have hStep : step ∈ gate.run probe.live ⟨0, 0⟩ requests :=
    List.mem_cons_of_mem _ List.mem_cons_self
  have hContacts : step.verdict.contacts = [.opened a, .asked "orders", .closed] := by rfl
  have hOpened : .opened a ∈ seen (gate.run probe.live ⟨0, 0⟩ requests) :=
    List.mem_flatMap.mpr ⟨step, hStep, hContacts ▸ List.mem_cons_self⟩
  obtain ⟨hLive, hStatic⟩ := probe_discipline gate requests
  obtain ⟨hDisciplined, hSeen⟩ := hLive Counters probe.live ⟨0, 0⟩
  obtain ⟨hAdmits, hLiteral⟩ := hSeen a hOpened
  exact ⟨step, hStep, hContacts, hDisciplined step hStep, hAdmits, hLiteral,
    hStatic probe ⟨0, 0⟩ rfl step hStep⟩

end Gate

end StreamAdmission
