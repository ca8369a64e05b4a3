import StreamAdmission.Probe.Static
import StreamAdmission.Proofs.Gate.Verdict

/-!
# What a validation leaves alone

A refused definition keeps its name, its source and its metadata, an admitted one its name and its
metadata. The destination gets the serdes it lacks as soon as the address can be read, whatever
is found after that.
-/

namespace StreamAdmission.Gate

/-- A serde before and after the default for it has been filled in. -/
inductive SerdeFilled (default : Option String) : Option String → Option String → Prop where
  | kept (serde : String) : SerdeFilled default (some serde) (some serde)
  | filled {serde : String} (set : default = some serde)
    (notBlank : ¬ Text.IsBlankText serde.toList) : SerdeFilled default none (some serde)
  | unset (h : ∀ serde, default = some serde → Text.IsBlankText serde.toList) :
    SerdeFilled default none none

/-- A destination before and after the defaults have been filled in. -/
inductive DestinationFilled (s : Settings) : Option Destination → Option Destination → Prop where
  | missing : DestinationFilled s none none
  | present {before after : Destination}
    (connectionString : after.connectionString = before.connectionString)
    (keySerde : SerdeFilled s.defaultKeySerde before.keySerde after.keySerde)
    (valueSerde : SerdeFilled s.defaultValueSerde before.valueSerde after.valueSerde) :
    DestinationFilled s (some before) (some after)

theorem serdeFilled_or (default serde : Option String) :
    SerdeFilled default serde (serde.or (Settings.nonBlank? default)) := by
  cases serde with
  | some serde => exact .kept serde
  | none =>
    cases default with
    | none => exact .unset fun _ h => nomatch h
    | some text =>
      rw [Option.none_or, Settings.nonBlank?, Option.filter_some]
      split
      · rename_i h
        refine .filled rfl fun hBlank => ?_
        exact (of_decide_eq_true h) (Text.trim_eq_nil_iff.mpr hBlank)
      · rename_i h
        refine .unset fun serde hSerde => ?_
        cases hSerde
        exact Text.trim_eq_nil_iff.mp (by simpa using h)

theorem destinationFilled_map (s : Settings) (destination : Option Destination) :
    DestinationFilled s destination (destination.map s.fillSerdes) := by
  cases destination with
  | none => exact .missing
  | some t =>
    exact .present rfl (serdeFilled_or s.defaultKeySerde t.keySerde)
      (serdeFilled_or s.defaultValueSerde t.valueSerde)

section
variable {gate : Gate} {probe : Probe} {d : Definition}

theorem Finds.rewrite_destination {f : Finding} (h : Finds gate probe d f) {a : Address}
    (reads : Address.parse d.source.connectionString = .ok a) :
    (f.rewrite gate d).destination = d.destination.map gate.settings.fillSerdes := by
  cases h with
  | unreadable h =>
    rw [reads] at h
    cases h
  | _ => rfl

theorem definition_of_parse_error {e : AddressError}
    (h : Address.parse d.source.connectionString = .error e) (known : List Definition) :
    (gate.validate probe d known).definition = d := by
  rw [validate_eq_verdict (.unreadable h)]
  rfl

theorem destination_of_parse_ok {a : Address}
    (reads : Address.parse d.source.connectionString = .ok a) (known : List Definition) :
    (gate.validate probe d known).definition.destination =
      d.destination.map gate.settings.fillSerdes := by
  obtain ⟨f, hf⟩ := exists_finds gate probe d
  rw [validate_eq_verdict hf]
  exact hf.rewrite_destination reads

theorem destinationFilled_of_parse_ok {a : Address}
    (reads : Address.parse d.source.connectionString = .ok a) (known : List Definition) :
    DestinationFilled gate.settings d.destination
      (gate.validate probe d known).definition.destination := by
  rw [destination_of_parse_ok reads]
  exact destinationFilled_map gate.settings d.destination

theorem kept_of_refused {known : List Definition} {r : Refusal}
    (h : (gate.validate probe d known).result = .error r) :
    (gate.validate probe d known).definition.name = d.name ∧
      (gate.validate probe d known).definition.source = d.source ∧
      (gate.validate probe d known).definition.metadata = d.metadata := by
  obtain ⟨f, hf, hr⟩ := result_eq_error_iff.mp h
  rw [validate_eq_verdict hf]
  cases f with
  | admissible a n => cases hr
  | _ => exact ⟨rfl, rfl, rfl⟩

/-- Exactly an address that cannot be read is refused for its format. -/
theorem kind_eq_format_iff {known : List Definition} {r : Refusal}
    (h : (gate.validate probe d known).result = .error r) :
    r.kind = .format ↔ ∃ e, Address.parse d.source.connectionString = .error e := by
  constructor
  · intro hKind
    obtain ⟨f, hf, hr⟩ := result_eq_error_iff.mp h
    cases hf with
    | unreadable hParse => exact ⟨_, hParse⟩
    | _ => cases hr <;> cases hKind
  · rintro ⟨e, hParse⟩
    rw [validate_eq_verdict (.unreadable hParse)] at h
    cases h
    rfl

theorem destination_congr {gate' : Gate} {probe' : Probe} {d' : Definition}
    (hSettings : gate'.settings = gate.settings) (hDestination : d'.destination = d.destination)
    (hReads : (∃ a, Address.parse d'.source.connectionString = .ok a) ↔
      ∃ a, Address.parse d.source.connectionString = .ok a) (known known' : List Definition) :
    (gate'.validate probe' d' known').definition.destination =
      (gate.validate probe d known).definition.destination := by
  cases h : Address.parse d.source.connectionString with
  | ok a =>
    obtain ⟨a', h'⟩ := hReads.mpr ⟨a, h⟩
    rw [destination_of_parse_ok h, destination_of_parse_ok h', hSettings, hDestination]
  | error e =>
    cases h' : Address.parse d'.source.connectionString with
    | ok a' =>
      obtain ⟨a, ha⟩ := hReads.mp ⟨a', h'⟩
      rw [h] at ha
      cases ha
    | error e' => rw [definition_of_parse_error h, definition_of_parse_error h', hDestination]

end

/-- A refused definition changes in its destination only, and not at all if its address cannot be
read; an admitted one gets the canonical address and the partition count as well. -/
theorem validate_frame (gate : Gate) (probe : Probe) (d : Definition) (known : List Definition) :
    let verdict := gate.validate probe d known
    (∀ r, verdict.result = .error r →
      verdict.definition.name = d.name ∧ verdict.definition.source = d.source ∧
        verdict.definition.metadata = d.metadata ∧
        (r.kind = .format → verdict.definition = d) ∧
        (r.kind ≠ .format →
          DestinationFilled gate.settings d.destination verdict.definition.destination)) ∧
    (verdict.result = .ok () →
      verdict.definition.name = d.name ∧ verdict.definition.metadata = d.metadata ∧
        DestinationFilled gate.settings d.destination verdict.definition.destination ∧
        ∃ a n, Address.parse d.source.connectionString = .ok a ∧ probe.Counts a n ∧
          verdict.definition.source = ⟨a.canonical, some n⟩) ∧
    ∀ (gate' : Gate) (probe' : Probe) (d' : Definition) (known' : List Definition),
      gate'.settings = gate.settings → d'.destination = d.destination →
      ((∃ a, Address.parse d'.source.connectionString = .ok a) ↔
        ∃ a, Address.parse d.source.connectionString = .ok a) →
      (gate'.validate probe' d' known').definition.destination =
        verdict.definition.destination := by
  refine ⟨?_, ?_, fun gate' probe' d' known' hSettings hDestination hReads =>
    destination_congr hSettings hDestination hReads known known'⟩
  · intro r h
    obtain ⟨hName, hSource, hMetadata⟩ := kept_of_refused h
    refine ⟨hName, hSource, hMetadata, fun hFormat => ?_, fun hOther => ?_⟩
    · obtain ⟨e, hParse⟩ := (kind_eq_format_iff h).mp hFormat
      exact definition_of_parse_error hParse known
    · cases hParse : Address.parse d.source.connectionString with
      | error e => exact absurd ((kind_eq_format_iff h).mpr ⟨e, hParse⟩) hOther
      | ok a => exact destinationFilled_of_parse_ok hParse known
  · intro h
    obtain ⟨a, n, hAll⟩ := result_eq_ok_iff.mp h
    have hVerdict := validate_eq_verdict (.admissible hAll) known
    refine ⟨?_, ?_, destinationFilled_of_parse_ok hAll.reads known, a, n, hAll.reads, hAll.counts,
      ?_⟩ <;> rw [hVerdict] <;> rfl

namespace Orders

/-- A gate with a key serde to fill in and a blank value serde. -/
def gate : Gate := ⟨⟨none, some " string ", some "  ", 30000, ∅⟩, .unrestricted⟩

/-- A cluster with one topic of five partitions. -/
def cluster : Probe := (StaticProbe.empty.withTopic "orders" 5).toProbe

/-- A stream whose destination has no serdes. -/
def stream (address : String) (declared : Option UInt32) : Definition :=
  ⟨"mirror", ⟨address, declared⟩, some ⟨"", none, none⟩, ∅⟩

/-- A stream without a topic. -/
def unread : Definition := stream " kafka://b1:9092 " none

/-- A stream with a wrong count. -/
def refused : Definition := stream " kafka://b2:9092,b1:9092/orders " (some 4)

def admitted : Definition := stream " kafka://b2:9092,b1:9092/orders " none

/-- Of the three streams the last gets the canonical address and the count; it and the second get the
same serdes. -/
theorem validate_frame_orders :
    (∃ r, (gate.validate cluster unread []).result = .error r ∧ r.kind = .format ∧
      (gate.validate cluster unread []).definition = unread) ∧
    (∃ r, (gate.validate cluster refused []).result = .error r ∧ r.kind ≠ .format ∧
      (gate.validate cluster refused []).definition.source = refused.source ∧
      DestinationFilled gate.settings refused.destination
        (gate.validate cluster refused []).definition.destination) ∧
    (gate.validate cluster admitted []).result = .ok () ∧
    (∃ a, Address.parse admitted.source.connectionString = .ok a ∧ cluster.Counts a 5 ∧
      a.canonical = "kafka://b1:9092,b2:9092/orders" ∧
      (gate.validate cluster admitted []).definition.source =
        ⟨"kafka://b1:9092,b2:9092/orders", some 5⟩) ∧
    (gate.validate cluster refused []).definition.destination =
      (gate.validate cluster admitted []).definition.destination := by
  have hUnread : (gate.validate cluster unread []).result =
      .error (.format " kafka://b1:9092 " "missing '/<topic>' section") := by rfl
  have hRefused : (gate.validate cluster refused []).result =
      .error (.partitionCountMismatch "orders" 4 5) := by rfl
  have hAdmitted : (gate.validate cluster admitted []).result = .ok () := by rfl
  obtain ⟨_, _, _, hFormat, _⟩ := (validate_frame gate cluster unread []).1 _ hUnread
  obtain ⟨_, hSource, _, _, hOther⟩ := (validate_frame gate cluster refused []).1 _ hRefused
  obtain ⟨_, _, _, a, n, hReads, hCounts, hSame⟩ :=
    (validate_frame gate cluster admitted []).2.1 hAdmitted
  have hWritten : (gate.validate cluster admitted []).definition.source =
      ⟨"kafka://b1:9092,b2:9092/orders", some 5⟩ := by decide +kernel
  rw [hWritten, Source.mk.injEq, Option.some.injEq] at hSame
  obtain ⟨hText, rfl⟩ := hSame
  exact ⟨⟨_, hUnread, rfl, hFormat rfl⟩, ⟨_, hRefused, nofun, hSource, hOther nofun⟩, hAdmitted,
    ⟨a, hReads, hCounts, hText.symm, hWritten⟩,
    (validate_frame gate cluster admitted []).2.2 gate cluster refused [] rfl rfl Iff.rfl⟩

end Orders

end StreamAdmission.Gate
