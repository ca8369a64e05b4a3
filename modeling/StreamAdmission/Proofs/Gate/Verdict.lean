import StreamAdmission.Proofs.Gate.Findings

/-!
# Verdicts by findings

What a validation comes to is a function of what the gate finds: the refusal, the definition
afterwards, the contacts of the probe and the notices. So a definition is admitted exactly if all
conditions hold, and otherwise the first condition that fails decides the refusal.
-/

namespace StreamAdmission.Gate

namespace Finding

def refusal? (gate : Gate) (d : Definition) : Finding → Option Refusal
  | unreadable e => some (.format d.source.connectionString e.message)
  | pattern _ => some (.wildcardNotAllowed d.source.connectionString)
  | unlisted _ => some (.clusterNotWhitelisted d.source.connectionString gate.whitelist.render)
  | unreachable _ e => some (.internal e.message)
  | unanswered _ e => some (.internal e.message)
  | unavailable a => some (.topicUnavailable a.topic)
  | mismatched a declared actual => some (.partitionCountMismatch a.topic declared actual)
  | undecodable _ _ e => some (.internal ("Malformed start-position metadata: " ++ e.message))
  | uncovered _ _ gaps => some (.startPositionIncomplete d.name gaps)
  | admissible _ _ => none

/-- The fault behind a finding, if the definition is refused for no fault of its own. -/
def fault? : Finding → Option Fault
  | unreachable _ e => some (.metadata e)
  | unanswered _ e => some (.metadata e)
  | undecodable _ _ e => some (.startPosition e)
  | _ => none

/-- The definition afterwards. -/
def rewrite (gate : Gate) (d : Definition) : Finding → Definition
  | unreadable _ => d
  | admissible a n => writeBack (gate.settings.fillDefaults d) ⟨a, n⟩
  | _ => gate.settings.fillDefaults d

/-- What the probe gets to see on the way to a finding. -/
def contacts : Finding → List Contact
  | unreadable _ => []
  | pattern _ => []
  | unlisted _ => []
  | unreachable a _ => [.refused a]
  | unanswered a _ => [.opened a, .asked a.topic, .closed]
  | unavailable a => [.opened a, .asked a.topic, .closed]
  | mismatched a _ _ => [.opened a, .asked a.topic, .closed]
  | undecodable a _ _ => [.opened a, .asked a.topic, .closed]
  | uncovered a _ _ => [.opened a, .asked a.topic, .closed]
  | admissible a _ => [.opened a, .asked a.topic, .closed]

/-- The count that is made known, if none was declared. -/
def countNotices (d : Definition) : Finding → List Notice
  | undecodable a n _ => if d.source.partitions.isNone then [.counted a n] else []
  | uncovered a n _ => if d.source.partitions.isNone then [.counted a n] else []
  | admissible a n => if d.source.partitions.isNone then [.counted a n] else []
  | _ => []

/-- The report of a refusal, or of the fault behind it. -/
def report? (gate : Gate) (d : Definition) (f : Finding) : Option Report :=
  match f.fault? with
  | some fault => some (.unexpected d.name fault)
  | none => (f.refusal? gate d).map (.rejected d.name)

/-- What a validation comes to after a finding. -/
def verdict (gate : Gate) (d : Definition) (known : List Definition) (f : Finding) : Verdict where
  result := match f.refusal? gate d with
    | some refusal => .error refusal
    | none => .ok ()
  definition := f.rewrite gate d
  contacts := f.contacts
  notices := .started d.name :: .registered known.length ::
    (f.countNotices d ++ (f.report? gate d).toList.map .reported)

end Finding

variable {gate : Gate} {probe : Probe} {d : Definition} {a : Address} {n : UInt32}

theorem address_of_parse_error {text : String} {e : AddressError}
    (h : Address.parse text = .error e) : e.address = text := by
  rw [Address.parse] at h
  cases hRead : Address.ofChars text.toList with
  | error fault =>
    rw [hRead] at h
    cases h
    rfl
  | ok a =>
    rw [hRead] at h
    cases h

theorem tryAddress_pattern (h : ¬ Topic.IsLiteral a.topic) :
    gate.tryAddress probe d a =
      ⟨.error (.refused (.wildcardNotAllowed d.source.connectionString)), [], []⟩ := by
  have hPattern : Topic.hasWildcard a.topic = true := by
    rwa [← Topic.hasWildcard_eq_false_iff, Bool.not_eq_false] at h
  rw [tryAddress, if_pos hPattern]

theorem tryAddress_unlisted (literal : Topic.IsLiteral a.topic)
    (h : ¬ gate.whitelist.Admits a) :
    gate.tryAddress probe d a =
      ⟨.error (.refused (.clusterNotWhitelisted d.source.connectionString
        gate.whitelist.render)), [], []⟩ := by
  have hLiteral := Topic.hasWildcard_eq_false_iff.mpr literal
  have hAllows : gate.whitelist.allows a = false := by
    rwa [← Whitelist.allows_iff, Bool.not_eq_true] at h
  simp [tryAddress, hLiteral, hAllows]

/-- What is left of the trial of an address once the probe may be asked. -/
theorem tryAddress_cleared (h : Cleared gate d a) {counted : Except Stop UInt32}
    {contacts : List Contact}
    (hCount : countPartitions probe a d.source.partitions = (counted, contacts)) :
    gate.tryAddress probe d a =
      ⟨counted.bind fun n => (checkStart d n).map fun _ => ⟨a, n⟩, contacts,
        Gate.countNotices a d.source.partitions counted⟩ := by
  have hLiteral := Topic.hasWildcard_eq_false_iff.mpr h.literal
  have hAllows := Whitelist.allows_iff.mpr h.listed
  simp only [tryAddress, hLiteral, hAllows, hCount]
  cases counted with
  | error stop => rfl
  | ok n => cases hStart : checkStart d n <;> simp [Except.bind, Except.map, hStart]

theorem countPartitions_of_error {e : MetadataError} (h : probe.connect a = .error e)
    (declared : Option UInt32) :
    countPartitions probe a declared = (.error (.failed (.metadata e)), [.refused a]) := by
  rw [countPartitions, Probe.withConnection_of_error h]

theorem countPartitions_of_ok {answer : String → Reply} (h : probe.connect a = .ok answer)
    (declared : Option UInt32) :
    countPartitions probe a declared = (reconcile a.topic declared (answer a.topic),
      [.opened a, .asked a.topic, .closed]) := by
  rw [countPartitions, Probe.withConnection_of_ok h]
  rfl

theorem countPartitions_of_agrees (counts : probe.Counts a n)
    {declared : Option UInt32} (agrees : declared = none ∨ declared = some n) :
    countPartitions probe a declared = (.ok n, [.opened a, .asked a.topic, .closed]) := by
  obtain ⟨answer, hConnect, hAnswer⟩ := counts
  rw [countPartitions_of_ok hConnect, hAnswer]
  rcases agrees with rfl | rfl
  · rfl
  · simp [reconcile]

theorem checkStart_undecodable {text : String} {e : Json.Error}
    (given : d.metadata.get? "start-position" = some text)
    (h : StartPositions.decode text = .error e) (n : UInt32) :
    checkStart d n = .error (.failed (.startPosition e)) := by
  have hText : d.startPosition? = some text := given
  simp [checkStart, hText, h]

theorem checkStart_uncovered {text : String} {s : StartPositions} {gaps : Gaps}
    (given : d.metadata.get? "start-position" = some text)
    (decodes : StartPositions.decode text = .ok s) (h : ¬ s.Covers n) (hGaps : s.GapsOf n gaps) :
    checkStart d n = .error (.refused (.startPositionIncomplete d.name gaps)) := by
  have hText : d.startPosition? = some text := given
  have hSame : s.coverage n = gaps := (s.gapsOf_coverage n).unique hGaps
  have hSome : gaps.isEmpty = false := by
    rwa [← hGaps.isEmpty_iff, Bool.not_eq_true] at h
  simp [checkStart, hText, decodes, hSame, hSome]

theorem checkStart_covered
    (h : d.metadata.get? "start-position" = none ∨
      ∃ text s, d.metadata.get? "start-position" = some text ∧
        StartPositions.decode text = .ok s ∧ s.Covers n) :
    checkStart d n = .ok () := by
  rcases h with hNone | ⟨text, s, given, decodes, hCovers⟩
  · have hText : d.startPosition? = none := hNone
    simp [checkStart, hText]
  · have hText : d.startPosition? = some text := given
    have hEmpty := (s.gapsOf_coverage n).isEmpty_iff.mpr hCovers
    simp [checkStart, hText, decodes, hEmpty]

theorem tryAddress_counted (h : Counted gate probe d a n) :
    gate.tryAddress probe d a =
      ⟨(checkStart d n).map fun _ => ⟨a, n⟩, [.opened a, .asked a.topic, .closed],
        if d.source.partitions.isNone then [.counted a n] else []⟩ :=
  tryAddress_cleared h.toCleared (countPartitions_of_agrees h.counts h.agrees)

theorem Cleared.fillDefaults (h : Cleared gate d a) :
    Cleared gate (gate.settings.fillDefaults d) a :=
  ⟨h.reads, h.literal, h.listed⟩

theorem Counted.fillDefaults (h : Counted gate probe d a n) :
    Counted gate probe (gate.settings.fillDefaults d) a n :=
  ⟨h.toCleared.fillDefaults, h.counts, h.agrees⟩

/-- A validation comes to what its finding says. -/
theorem validate_eq_verdict {f : Finding} (h : Finds gate probe d f) (known : List Definition) :
    gate.validate probe d known = f.verdict gate d known := by
  cases h with
  | unreadable h =>
    simp only [validate, h, address_of_parse_error h]
    rfl
  | pattern reads h =>
    simp only [validate, reads, tryAddress_pattern h]
    rfl
  | unlisted reads literal h =>
    simp only [validate, reads, tryAddress_unlisted literal h]
    rfl
  | unreachable cleared h =>
    simp only [validate, cleared.reads,
      tryAddress_cleared cleared.fillDefaults (countPartitions_of_error h _)]
    rfl
  | unanswered cleared connects h =>
    simp only [validate, cleared.reads,
      tryAddress_cleared cleared.fillDefaults (countPartitions_of_ok connects _), h]
    rfl
  | unavailable cleared connects h =>
    simp only [validate, cleared.reads,
      tryAddress_cleared cleared.fillDefaults (countPartitions_of_ok connects _), h]
    rfl
  | mismatched cleared counts declared h =>
    obtain ⟨answer, connects, hAnswer⟩ := counts
    have hDeclared : (gate.settings.fillDefaults d).source.partitions = some _ := declared
    simp only [validate, cleared.reads,
      tryAddress_cleared cleared.fillDefaults (countPartitions_of_ok connects _), hAnswer,
      hDeclared, reconcile, if_neg h]
    rfl
  | undecodable counted given h =>
    simp only [validate, counted.reads, tryAddress_counted counted.fillDefaults,
      checkStart_undecodable (d := gate.settings.fillDefaults d) given h]
    rfl
  | uncovered counted given decodes h hGaps =>
    simp only [validate, counted.reads, tryAddress_counted counted.fillDefaults,
      checkStart_uncovered (d := gate.settings.fillDefaults d) given decodes h hGaps]
    rfl
  | admissible h =>
    simp only [validate, h.reads, tryAddress_counted h.toCounted.fillDefaults,
      checkStart_covered (d := gate.settings.fillDefaults d) h.covered]
    simp only [Finding.verdict, Finding.countNotices, Finding.report?, Finding.refusal?,
      Finding.fault?, Option.map_none, Option.toList_none, List.map_nil, List.append_nil]
    rfl

theorem result_eq_ok_iff {known : List Definition} :
    (gate.validate probe d known).result = .ok () ↔ ∃ a n, Admissible gate probe d a n := by
  constructor
  · intro h
    obtain ⟨f, hf⟩ := exists_finds gate probe d
    rw [validate_eq_verdict hf] at h
    cases hf with
    | admissible hAll => exact ⟨_, _, hAll⟩
    | _ => cases h
  · rintro ⟨a, n, h⟩
    rw [validate_eq_verdict (.admissible h)]
    rfl

theorem result_eq_error_iff {known : List Definition} {r : Refusal} :
    (gate.validate probe d known).result = .error r ↔
      ∃ f, Finds gate probe d f ∧ f.refusal? gate d = some r := by
  have hResult : ∀ f : Finding, (f.verdict gate d known).result = .error r ↔
      f.refusal? gate d = some r := by
    intro f
    cases f <;> simp [Finding.verdict, Finding.refusal?]
  constructor
  · intro h
    obtain ⟨f, hf⟩ := exists_finds gate probe d
    rw [validate_eq_verdict hf, hResult] at h
    exact ⟨f, hf, h⟩
  · rintro ⟨f, hf, h⟩
    rw [validate_eq_verdict hf, hResult]
    exact h

/-- A definition is admitted exactly if all conditions hold for some address and count. Otherwise
the refusal is that of the finding, which names the first condition that fails. -/
theorem validate_result (gate : Gate) (probe : Probe) (d : Definition) (known : List Definition) :
    ((gate.validate probe d known).result = .ok () ↔ ∃ a n, Admissible gate probe d a n) ∧
      ∀ r, (gate.validate probe d known).result = .error r ↔
        ∃ f, Finds gate probe d f ∧ f.refusal? gate d = some r :=
  ⟨result_eq_ok_iff, fun _ => result_eq_error_iff⟩

end StreamAdmission.Gate
