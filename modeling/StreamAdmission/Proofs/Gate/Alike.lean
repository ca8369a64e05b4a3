import StreamAdmission.Probe.Static
import StreamAdmission.Proofs.Gate.Revalidation

/-!
# Definitions that a gate cannot tell apart

All that a gate looks at in a definition is the address that its source spells, the declared count
and the start positions. Two definitions that agree in these are both admitted, with one source, or
both refused in the same way, each refusal naming its own text and its own stream.
-/

namespace StreamAdmission

/-- The refusal with other names for the address and for the stream, where it names them. -/
def Refusal.rename (address stream : String) : Refusal → Refusal
  | .format _ reason => .format address reason
  | .wildcardNotAllowed _ => .wildcardNotAllowed address
  | .clusterNotWhitelisted _ whitelist => .clusterNotWhitelisted address whitelist
  | .topicUnavailable topic => .topicUnavailable topic
  | .partitionCountMismatch topic declared actual => .partitionCountMismatch topic declared actual
  | .startPositionIncomplete _ gaps => .startPositionIncomplete stream gaps
  | .internal reason => .internal reason

theorem Refusal.kind_rename (address stream : String) (r : Refusal) :
    (r.rename address stream).kind = r.kind := by
  cases r <;> rfl

namespace Gate

theorem Finding.refusal?_rename (gate : Gate) (d d' : Definition) (f : Finding) :
    f.refusal? gate d' =
      (f.refusal? gate d).map (Refusal.rename d'.source.connectionString d'.name) := by
  cases f <;> rfl

theorem Finding.source_eq_of_admitted {gate : Gate} {d d' : Definition} {f : Finding}
    (h : f.refusal? gate d = none) : (f.rewrite gate d').source = (f.rewrite gate d).source := by
  cases f with
  | admissible a n => rfl
  | _ => cases h

/-- Two definitions with equal addresses, declared counts and start positions come to the same,
whatever else is in them and whatever streams are registered. -/
theorem validate_alike {gate : Gate} {probe : Probe} {d d' : Definition} (h : Alike d d')
    (known known' : List Definition) :
    let first := gate.validate probe d known
    let second := gate.validate probe d' known'
    ((first.result = .ok () ∧ second.result = .ok () ∧
        second.definition.source = first.definition.source) ∨
      ∃ r r', first.result = .error r ∧ second.result = .error r' ∧ r'.kind = r.kind ∧
        r' = r.rename d'.source.connectionString d'.name ∧
        r = r'.rename d.source.connectionString d.name) ∧
    second.contacts = first.contacts := by
  intro first second
  obtain ⟨f, hf⟩ := exists_finds gate probe d
  have hFirst : first = f.verdict gate d known := validate_eq_verdict hf known
  have hSecond : second = f.verdict gate d' known' := validate_eq_verdict (h.finds hf) known'
  have hRename := f.refusal?_rename gate d d'
  have hBack := f.refusal?_rename gate d' d
  rw [hFirst, hSecond]
  refine ⟨?_, rfl⟩
  cases hRefusal : f.refusal? gate d with
  | none =>
    rw [hRefusal] at hRename
    left
    refine ⟨?_, ?_, f.source_eq_of_admitted hRefusal⟩
    · simp only [Finding.verdict, hRefusal]
    · simp only [Finding.verdict, hRename, Option.map_none]
  | some r =>
    rw [hRefusal, Option.map_some] at hRename
    rw [hRefusal, hRename, Option.map_some] at hBack
    right
    refine ⟨r, _, ?_, ?_, Refusal.kind_rename _ _ r, rfl, Option.some.inj hBack⟩
    · simp only [Finding.verdict, hRefusal]
    · simp only [Finding.verdict, hRename]

namespace Spelled

/-- A stream whose address is written with blanks, a sign and leading zeros. -/
def padded : Definition :=
  ⟨"s", ⟨" kafka://b2:+09092,b1:9092/orders ", some 5⟩, none, ∅⟩

/-- Another stream from the same topic, with a destination and an owner. -/
def owned : Definition :=
  ⟨"t", ⟨"kafka://b1:9092, b2:9092/orders", some 5⟩, some ⟨"", none, none⟩,
    (∅ : Table String String).insert "owner" "u"⟩

def cluster : Probe := (StaticProbe.empty.withTopic "orders" 5).toProbe

/-- A gate that lists another cluster. -/
def restricted : Gate := ⟨⟨some "b3:1", none, none, 30000, ∅⟩, ⟨[⟨"b3", 1⟩], by decide⟩⟩

def unrestricted : Gate := ⟨.standard, .unrestricted⟩

/-- Both streams are refused by one gate, each with its own text, and admitted by the other. -/
theorem validate_alike_spelled :
    Alike padded owned ∧
    (restricted.validate cluster padded []).result =
      .error (.clusterNotWhitelisted " kafka://b2:+09092,b1:9092/orders "
        restricted.whitelist.render) ∧
    (restricted.validate cluster owned [padded]).result =
      .error (.clusterNotWhitelisted "kafka://b1:9092, b2:9092/orders" restricted.whitelist.render) ∧
    (unrestricted.validate cluster padded []).result = .ok () ∧
    (unrestricted.validate cluster owned [padded]).result = .ok () ∧
    (unrestricted.validate cluster owned [padded]).contacts =
      (unrestricted.validate cluster padded []).contacts := by
  have hAlike : Alike padded owned :=
    ⟨⟨⟨[⟨"b1", 9092⟩, ⟨"b2", 9092⟩], "orders", false, by decide⟩, by rfl, by rfl⟩, by rfl, by rfl⟩
  have hRefused : (restricted.validate cluster padded []).result =
    .error (.clusterNotWhitelisted " kafka://b2:+09092,b1:9092/orders "
      restricted.whitelist.render) := by rfl
  have hAdmitted : (unrestricted.validate cluster padded []).result = .ok () := by rfl
  refine ⟨hAlike, hRefused, ?_, hAdmitted, ?_, (validate_alike hAlike [] [padded]).2⟩
  · rcases (validate_alike hAlike [] [padded]).1 with ⟨hOk, _⟩ | ⟨r, r', hr, hr', _, hRename, _⟩
    · rw [hRefused] at hOk
      cases hOk
    · rw [hRefused] at hr
      cases hr
      rw [hr', hRename]
      rfl
  · rcases (validate_alike hAlike [] [padded]).1 with ⟨_, hOk, _⟩ | ⟨r, _, hr, _⟩
    · exact hOk
    · rw [hAdmitted] at hr
      cases hr

end Spelled

end Gate

end StreamAdmission
