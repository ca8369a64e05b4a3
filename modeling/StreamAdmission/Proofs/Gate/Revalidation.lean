import StreamAdmission.Proofs.Broker.Canonical
import StreamAdmission.Proofs.Gate.Verdict

/-!
# Validating again

A gate finds the same about a definition after it has rewritten it, so validating the outcome of a
validation gives the same result and changes nothing more.
-/

namespace StreamAdmission

theorem Settings.fillSerdes_fillSerdes (s : Settings) (t : Destination) :
    s.fillSerdes (s.fillSerdes t) = s.fillSerdes t := by
  simp only [fillSerdes, Option.or_assoc, Option.or_self]

theorem Settings.fillDefaults_fillDefaults (s : Settings) (d : Definition) :
    s.fillDefaults (s.fillDefaults d) = s.fillDefaults d := by
  cases hDestination : d.destination with
  | none => simp only [fillDefaults, hDestination, Option.map_none]
  | some t => simp only [fillDefaults, hDestination, Option.map_some, fillSerdes_fillSerdes]

namespace Gate

variable {gate : Gate} {probe : Probe} {d d' : Definition} {a : Address} {n : UInt32}

/-- Two definitions that look the same to a gate: one address, one declared count, one text of start
positions. -/
structure Alike (d d' : Definition) : Prop where
  reads : ∃ a, Address.parse d.source.connectionString = .ok a ∧
    Address.parse d'.source.connectionString = .ok a
  partitions : d'.source.partitions = d.source.partitions
  startPosition : d'.metadata.get? "start-position" = d.metadata.get? "start-position"

theorem Alike.parse_eq_ok (h : Alike d d')
    (reads : Address.parse d.source.connectionString = .ok a) :
    Address.parse d'.source.connectionString = .ok a := by
  obtain ⟨b, hb, hb'⟩ := h.reads
  rw [reads] at hb
  rwa [Except.ok.inj hb]

theorem Alike.cleared (h : Alike d d') (hc : Cleared gate d a) : Cleared gate d' a :=
  ⟨h.parse_eq_ok hc.reads, hc.literal, hc.listed⟩

theorem Alike.counted (h : Alike d d') (hc : Counted gate probe d a n) :
    Counted gate probe d' a n :=
  ⟨h.cleared hc.toCleared, hc.counts, by rw [h.partitions]; exact hc.agrees⟩

theorem Alike.finds (h : Alike d d') {f : Finding} (hf : Finds gate probe d f) :
    Finds gate probe d' f := by
  cases hf with
  | unreadable hParse =>
    obtain ⟨b, hb, _⟩ := h.reads
    rw [hParse] at hb
    cases hb
  | pattern reads hf => exact .pattern (h.parse_eq_ok reads) hf
  | unlisted reads literal hf => exact .unlisted (h.parse_eq_ok reads) literal hf
  | unreachable cleared hf => exact .unreachable (h.cleared cleared) hf
  | unanswered cleared connects hf => exact .unanswered (h.cleared cleared) connects hf
  | unavailable cleared connects hf => exact .unavailable (h.cleared cleared) connects hf
  | mismatched cleared counts declared hf =>
    exact .mismatched (h.cleared cleared) counts (h.partitions.trans declared) hf
  | undecodable counted given hf =>
    exact .undecodable (h.counted counted) (h.startPosition.trans given) hf
  | uncovered counted given decodes hf hGaps =>
    exact .uncovered (h.counted counted) (h.startPosition.trans given) decodes hf hGaps
  | admissible hf =>
    exact .admissible ⟨h.counted hf.toCounted, by rw [h.startPosition]; exact hf.covered⟩

theorem alike_fillDefaults (reads : Address.parse d.source.connectionString = .ok a)
    (s : Settings) : Alike d (s.fillDefaults d) :=
  ⟨⟨a, reads, reads⟩, rfl, rfl⟩

/-- An admitted definition is admissible with the address and the count written back to it. -/
theorem Admissible.writeBack (h : Admissible gate probe d a n) :
    Admissible gate probe (writeBack (gate.settings.fillDefaults d) ⟨a, n⟩) a n := by
  have hCanonical := Address.parse_canonical_of_wellFormed (Address.wellFormed_of_parse h.reads)
  exact ⟨⟨⟨hCanonical, h.literal, h.listed⟩, h.counts, Or.inr rfl⟩, h.covered⟩

theorem Finds.rewrite {f : Finding} (h : Finds gate probe d f) :
    Finds gate probe (f.rewrite gate d) f := by
  have hFilled : ∀ {a : Address}, Address.parse d.source.connectionString = .ok a →
      Finds gate probe (gate.settings.fillDefaults d) f :=
    fun reads => (alike_fillDefaults reads gate.settings).finds h
  cases h with
  | unreadable hf => exact .unreadable hf
  | pattern reads _ => exact hFilled reads
  | unlisted reads _ _ => exact hFilled reads
  | unreachable cleared _ => exact hFilled cleared.reads
  | unanswered cleared _ _ => exact hFilled cleared.reads
  | unavailable cleared _ _ => exact hFilled cleared.reads
  | mismatched cleared _ _ _ => exact hFilled cleared.reads
  | undecodable counted _ _ => exact hFilled counted.reads
  | uncovered counted _ _ _ _ => exact hFilled counted.reads
  | admissible hf => exact .admissible hf.writeBack

theorem Finding.refusal?_rewrite (gate : Gate) (d : Definition) (f : Finding) :
    f.refusal? gate (f.rewrite gate d) = f.refusal? gate d := by
  cases f <;> rfl

theorem Finding.rewrite_rewrite (gate : Gate) (d : Definition) (f : Finding) :
    f.rewrite gate (f.rewrite gate d) = f.rewrite gate d := by
  have hFill := gate.settings.fillDefaults_fillDefaults d
  cases f with
  | unreadable e => rfl
  | admissible a n =>
    have hDestination := congrArg Definition.destination hFill
    simp only [rewrite, writeBack, Settings.fillDefaults] at hDestination ⊢
    rw [hDestination]
  | _ => exact hFill

/-- Validating what a validation has left gives the same result and leaves it as it is, whether the
definition was admitted or refused. -/
theorem validate_again (gate : Gate) (probe : Probe) (d : Definition)
    (known known' : List Definition) :
    let first := gate.validate probe d known
    let second := gate.validate probe first.definition known'
    second.result = first.result ∧ second.definition = first.definition := by
  intro first second
  obtain ⟨f, hf⟩ := exists_finds gate probe d
  have hFirst : first = f.verdict gate d known := validate_eq_verdict hf known
  have hSecond : second = f.verdict gate first.definition known' := by
    refine validate_eq_verdict ?_ known'
    rw [hFirst]
    exact hf.rewrite
  rw [hSecond, hFirst]
  refine ⟨?_, f.rewrite_rewrite gate d⟩
  simp only [Finding.verdict, f.refusal?_rewrite]

end Gate

end StreamAdmission
