import StreamAdmission.Broker.Address
import StreamAdmission.Proofs.Broker.Entry

/-!
# Canonical addresses

An address that was read has a proper broker list and a trimmed topic without a slash. The canonical
text of any such address is read back as the same address.
-/

namespace StreamAdmission.Address

open Text

/-- An address as reading gives it. -/
structure WellFormed (a : Address) : Prop where
  brokers : Endpoint.BrokerList a.brokers
  topic_ne_nil : a.topic.toList ≠ []
  topic_trimmed : IsTrimmed a.topic.toList
  topic_free : '/' ∉ a.topic.toList

theorem parse_eq_ok_iff {text : String} {a : Address} :
    parse text = .ok a ↔ ofChars text.toList = .ok a := by
  rw [parse, mapError_eq_ok_iff]

theorem ofEndpoints_brokers (a : Address) : ofEndpoints a.brokers a.topic a.secure = a :=
  Address.ext (Endpoint.sort_eq_self a.ordered) rfl rfl

theorem wellFormed_of_parse {text : String} {a : Address} (h : parse text = .ok a) :
    a.WellFormed := by
  rw [parse_eq_ok_iff, ofChars] at h
  split at h
  · cases h
  · rename_i secure rest _
    split at h
    · cases h
    · rename_i before topic hSplit
      split at h
      · cases h
      · rename_i hTopic
        split at h
        · cases h
        · rename_i endpoints hEndpoints
          cases h
          obtain ⟨_, hFree⟩ := splitLast?_eq_some_iff.mp hSplit
          refine ⟨(Endpoint.brokerList_of_readEntries hEndpoints).sort, ?_, ?_, ?_⟩ <;>
            rw [ofEndpoints, String.toList_ofList]
          · exact hTopic
          · exact isTrimmed_trim topic
          · exact fun hSlash => hFree (mem_of_mem_trim hSlash)

theorem stripScheme?_scheme_append (secure : Bool) (rest : List Char) :
    stripScheme? (scheme secure ++ rest) = some (secure, rest) := by
  cases secure <;> rfl

theorem isTrimmed_scheme (secure : Bool) : IsTrimmed (scheme secure) := by
  have hFirst : (scheme secure).head? = some 'k' := by cases secure <;> rfl
  have hLast : (scheme secure).getLast? = some '/' := by cases secure <;> rfl
  constructor
  · intro c hc
    rw [hFirst] at hc
    cases hc
    rfl
  · intro c hc
    rw [hLast] at hc
    cases hc
    rfl

theorem scheme_ne_nil (secure : Bool) : scheme secure ≠ [] := by
  cases secure <;> decide

theorem parse_canonical_of_wellFormed {a : Address} (h : a.WellFormed) :
    parse a.canonical = .ok a := by
  have hTrim : trim a.canonical.toList = a.canonical.toList := by
    have hEnds := (isTrimmed_scheme a.secure).append h.topic_trimmed (scheme_ne_nil a.secure)
      h.topic_ne_nil (a.bootstrapChars ++ ['/'])
    have hText : a.canonical.toList =
        scheme a.secure ++ (a.bootstrapChars ++ ['/']) ++ a.topic.toList := by
      simp [canonical]
    rw [hText]
    exact trim_eq_self hEnds
  have hScheme : stripScheme? a.canonical.toList =
      some (a.secure, a.bootstrapChars ++ '/' :: a.topic.toList) := by
    rw [canonical, String.toList_ofList, List.append_assoc, stripScheme?_scheme_append]
  have hSplit : splitLast? '/' (a.bootstrapChars ++ '/' :: a.topic.toList) =
      some (a.bootstrapChars, a.topic.toList) :=
    splitLast?_eq_some_iff.mpr ⟨rfl, h.topic_free⟩
  have hBrokers : Endpoint.readEntries a.bootstrapChars = .ok a.brokers :=
    Endpoint.readEntries_join h.brokers
  rw [parse_eq_ok_iff, ofChars, hTrim, hScheme]
  simp only [hSplit, hBrokers, trim_eq_self h.topic_trimmed, h.topic_ne_nil, if_false,
    String.ofList_toList, ofEndpoints_brokers]

theorem canonical_injective {a b : Address} (ha : a.WellFormed) (hb : b.WellFormed)
    (h : a.canonical = b.canonical) : a = b := by
  have hSame := parse_canonical_of_wellFormed ha
  rw [h, parse_canonical_of_wellFormed hb] at hSame
  exact (Except.ok.inj hSame).symm

/-- The canonical text of an address that was read is read as the same address. So taking the
canonical text twice is taking it once, and texts of one canonical text are read as one address. -/
theorem parse_canonical :
    (∀ text a, parse text = .ok a → parse a.canonical = .ok a) ∧
      (∀ text text', (parse text).map canonical = .ok text' →
        (parse text').map canonical = .ok text') ∧
      ∀ s t a b, parse s = .ok a → parse t = .ok b → (a.canonical = b.canonical ↔ a = b) := by
  have again : ∀ text a, parse text = .ok a → parse a.canonical = .ok a :=
    fun _ _ h => parse_canonical_of_wellFormed (wellFormed_of_parse h)
  refine ⟨again, ?_, ?_⟩
  · intro text text' h
    cases hRead : parse text with
    | error e =>
      rw [hRead] at h
      cases h
    | ok a =>
      rw [hRead] at h
      cases h
      rw [again text a hRead]
      rfl
  · intro s t a b hs ht
    refine ⟨canonical_injective (wellFormed_of_parse hs) (wellFormed_of_parse ht), ?_⟩
    rintro rfl
    rfl

/-- Spaces, a plus sign, leading zeros, a bracketed host, an endpoint given twice, and a topic that
holds separators. -/
theorem parse_canonical_spaced :
    ∃ a b, parse " kafkassl:// b2:+09092 ,[::1]:00007, B1:1,B1:1 / a:b,c kafka: " = .ok a ∧
      parse "kafka://b2:9092/a:b,c kafka:" = .ok b ∧ parse a.canonical = .ok a ∧
      (parse a.canonical).map canonical = .ok a.canonical ∧
      (a.canonical = b.canonical ↔ a = b) := by
  have ha : parse " kafkassl:// b2:+09092 ,[::1]:00007, B1:1,B1:1 / a:b,c kafka: " =
      .ok ⟨[⟨"B1", 1⟩, ⟨"B1", 1⟩, ⟨"[::1]", 7⟩, ⟨"b2", 9092⟩], "a:b,c kafka:", true, by decide⟩ := by
    rfl
  have hb : parse "kafka://b2:9092/a:b,c kafka:" =
      .ok ⟨[⟨"b2", 9092⟩], "a:b,c kafka:", false, by decide⟩ := by rfl
  have hText := congrArg (Except.map canonical) ha
  exact ⟨_, _, ha, hb, parse_canonical.1 _ _ ha, parse_canonical.2.1 _ _ hText,
    parse_canonical.2.2 _ _ _ _ ha hb⟩

end StreamAdmission.Address
