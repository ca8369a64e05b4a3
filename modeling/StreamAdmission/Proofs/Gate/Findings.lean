import StreamAdmission.Gate.Admission
import StreamAdmission.Proofs.Broker.Topic
import StreamAdmission.Proofs.Stream.Coverage

/-!
# Findings of a gate

The conditions for admission, said without the checks, and what a gate finds about a definition:
that all of them hold, or the first that fails. Something is found about every definition.
-/

namespace StreamAdmission

/-- The whitelist is empty or holds a broker of the address. -/
def Whitelist.Admits (w : Whitelist) (a : Address) : Prop :=
  w.endpoints = [] ∨ ∃ e ∈ a.brokers, e ∈ w.endpoints

theorem Whitelist.allows_iff {w : Whitelist} {a : Address} :
    w.allows a = true ↔ w.Admits a := by
  simp [allows, isEmpty, contains, Admits]

/-- The probe connects and answers `n` for the topic of the address. -/
def Probe.Counts (probe : Probe) (a : Address) (n : UInt32) : Prop :=
  ∃ answer, probe.connect a = .ok answer ∧ answer a.topic = .ok (some n)

namespace Gate

/-- The conditions under which the probe is asked about a definition. -/
structure Cleared (gate : Gate) (d : Definition) (a : Address) : Prop where
  reads : Address.parse d.source.connectionString = .ok a
  literal : Topic.IsLiteral a.topic
  listed : gate.whitelist.Admits a

/-- The conditions under which the start positions are looked at. -/
structure Counted (gate : Gate) (probe : Probe) (d : Definition) (a : Address) (n : UInt32) : Prop
    extends Cleared gate d a where
  counts : probe.Counts a n
  agrees : d.source.partitions = none ∨ d.source.partitions = some n

/-- All conditions for the admission of a definition. -/
structure Admissible (gate : Gate) (probe : Probe) (d : Definition) (a : Address) (n : UInt32) :
    Prop extends Counted gate probe d a n where
  covered : d.metadata.get? "start-position" = none ∨
    ∃ text s, d.metadata.get? "start-position" = some text ∧
      StartPositions.decode text = .ok s ∧ s.Covers n

/-- What can be found about a definition. -/
inductive Finding where
  | unreadable (error : AddressError)
  | pattern (address : Address)
  | unlisted (address : Address)
  | unreachable (address : Address) (error : MetadataError)
  | unanswered (address : Address) (error : MetadataError)
  | unavailable (address : Address)
  | mismatched (address : Address) (declared actual : UInt32)
  | undecodable (address : Address) (partitions : UInt32) (error : Json.Error)
  | uncovered (address : Address) (partitions : UInt32) (gaps : Gaps)
  | admissible (address : Address) (partitions : UInt32)

/-- What a gate finds: each finding but the last names a condition that fails, and those before it
hold. -/
inductive Finds (gate : Gate) (probe : Probe) (d : Definition) : Finding → Prop where
  | unreadable {e : AddressError} (h : Address.parse d.source.connectionString = .error e) :
    Finds gate probe d (.unreadable e)
  | pattern {a : Address} (reads : Address.parse d.source.connectionString = .ok a)
    (h : ¬ Topic.IsLiteral a.topic) : Finds gate probe d (.pattern a)
  | unlisted {a : Address} (reads : Address.parse d.source.connectionString = .ok a)
    (literal : Topic.IsLiteral a.topic) (h : ¬ gate.whitelist.Admits a) :
    Finds gate probe d (.unlisted a)
  | unreachable {a : Address} {e : MetadataError} (cleared : Cleared gate d a)
    (h : probe.connect a = .error e) : Finds gate probe d (.unreachable a e)
  | unanswered {a : Address} {answer : String → Reply} {e : MetadataError}
    (cleared : Cleared gate d a) (connects : probe.connect a = .ok answer)
    (h : answer a.topic = .error e) : Finds gate probe d (.unanswered a e)
  | unavailable {a : Address} {answer : String → Reply} (cleared : Cleared gate d a)
    (connects : probe.connect a = .ok answer) (h : answer a.topic = .ok none) :
    Finds gate probe d (.unavailable a)
  | mismatched {a : Address} {m n : UInt32} (cleared : Cleared gate d a)
    (counts : probe.Counts a n) (declared : d.source.partitions = some m) (h : m ≠ n) :
    Finds gate probe d (.mismatched a m n)
  | undecodable {a : Address} {n : UInt32} {text : String} {e : Json.Error}
    (counted : Counted gate probe d a n) (given : d.metadata.get? "start-position" = some text)
    (h : StartPositions.decode text = .error e) : Finds gate probe d (.undecodable a n e)
  | uncovered {a : Address} {n : UInt32} {text : String} {s : StartPositions} {gaps : Gaps}
    (counted : Counted gate probe d a n) (given : d.metadata.get? "start-position" = some text)
    (decodes : StartPositions.decode text = .ok s) (h : ¬ s.Covers n)
    (gapsOf : s.GapsOf n gaps) : Finds gate probe d (.uncovered a n gaps)
  | admissible {a : Address} {n : UInt32} (h : Admissible gate probe d a n) :
    Finds gate probe d (.admissible a n)

section
variable {gate : Gate} {probe : Probe} {d : Definition} {a : Address} {n : UInt32}

theorem Counted.exists_finds (h : Counted gate probe d a n) : ∃ f, Finds gate probe d f := by
  cases hStart : d.metadata.get? "start-position" with
  | none => exact ⟨_, .admissible ⟨h, Or.inl hStart⟩⟩
  | some text =>
    cases hDecode : StartPositions.decode text with
    | error e => exact ⟨_, .undecodable h hStart hDecode⟩
    | ok s =>
      by_cases hCovers : s.Covers n
      · exact ⟨_, .admissible ⟨h, Or.inr ⟨text, s, hStart, hDecode, hCovers⟩⟩⟩
      · exact ⟨_, .uncovered h hStart hDecode hCovers (s.gapsOf_coverage n)⟩

theorem Cleared.exists_finds (h : Cleared gate d a) (probe : Probe) :
    ∃ f, Finds gate probe d f := by
  cases hConnect : probe.connect a with
  | error e => exact ⟨_, .unreachable h hConnect⟩
  | ok answer =>
    rcases hAnswer : answer a.topic with e | _ | n
    · exact ⟨_, .unanswered h hConnect hAnswer⟩
    · exact ⟨_, .unavailable h hConnect hAnswer⟩
    have hCounts : probe.Counts a n := ⟨answer, hConnect, hAnswer⟩
    cases hDeclared : d.source.partitions with
    | none => exact Counted.exists_finds ⟨h, hCounts, Or.inl hDeclared⟩
    | some m =>
      by_cases hm : m = n
      · exact Counted.exists_finds ⟨h, hCounts, Or.inr (hm ▸ hDeclared)⟩
      · exact ⟨_, .mismatched h hCounts hDeclared hm⟩

/-- Something is found about every definition. -/
theorem exists_finds (gate : Gate) (probe : Probe) (d : Definition) :
    ∃ f, Finds gate probe d f := by
  cases hParse : Address.parse d.source.connectionString with
  | error e => exact ⟨_, .unreadable hParse⟩
  | ok a =>
    by_cases hLiteral : Topic.IsLiteral a.topic
    · by_cases hAdmits : gate.whitelist.Admits a
      · exact Cleared.exists_finds ⟨hParse, hLiteral, hAdmits⟩ probe
      · exact ⟨_, .unlisted hParse hLiteral hAdmits⟩
    · exact ⟨_, .pattern hParse hLiteral⟩

end

end Gate

end StreamAdmission
