import StreamAdmission.Proofs.Gate.Run

/-!
# Reports of a run

While definitions are validated the reporter is told of every failure, once and in order, and of
nothing else. A refusal with a name is handed over as it is returned. Behind an internal one stands a
fault: a cluster that could not be reached or asked, or start positions that could not be decoded. The
causes of a fault are followed from one error to that from which it comes, until one comes from none.
-/

namespace StreamAdmission

namespace Origin

/-- The texts of an error and of those behind it in turn, up to one that comes from no other. -/
inductive Chain : Origin → List String → Prop where
  | last {e : Origin} (h : e.origin? = none) : Chain e [e.message]
  | behind {e next : Origin} {texts : List String} (h : e.origin? = some next)
    (others : Chain next texts) : Chain e (e.message :: texts)

theorem chain_other (text : String) (behind : List String) :
    Chain (.other text behind) (text :: behind) := by
  induction behind generalizing text with
  | nil => exact .last rfl
  | cons next behind ih => exact .behind rfl (ih next)

theorem chain_metadata (e : MetadataError) : Chain (.metadata e) (e.message :: e.causes) := by
  have hChain : ∀ cause : Option Underlying, e.cause? = cause →
      Chain (.metadata e) (e.message :: MetadataError.causes.chain cause) := by
    intro cause hCause
    cases cause with
    | none => exact .last (by rw [origin?, hCause]; rfl)
    | some cause => exact .behind (by rw [origin?, hCause]; rfl) (chain_other cause.text cause.behind)
  cases e with
  | connectionUnavailable message cause => exact hChain cause rfl
  | fetch topic message cause => exact hChain cause rfl

end Origin

/-- The calls of the reporter in a validation. -/
def Verdict.reports (verdict : Verdict) : List Report := verdict.notices.filterMap Notice.report?

/-- The validation does not admit the definition. -/
def Verdict.fails (verdict : Verdict) : Bool := !verdict.result.isOk

namespace Gate

/-- A validation breaks off for no reason of the definition's own, with a fault and the errors behind
it, the nearest first. -/
inductive Disturbed (gate : Gate) (probe : Probe) (d : Definition) : Fault → List String → Prop where
  | opening {a : Address} {e : MetadataError} {chain : List String} (cleared : Cleared gate d a)
    (h : probe.connect a = .error e) (ends : Origin.Chain (.metadata e) chain) :
    Disturbed gate probe d (.metadata e) chain
  | fetching {a : Address} {answer : String → Reply} {e : MetadataError} {chain : List String}
    (cleared : Cleared gate d a) (connects : probe.connect a = .ok answer)
    (h : answer a.topic = .error e) (ends : Origin.Chain (.metadata e) chain) :
    Disturbed gate probe d (.metadata e) chain
  | decoding {a : Address} {n : UInt32} {text : String} {e : Json.Error}
    (counted : Counted gate probe d a n) (given : d.metadata.get? "start-position" = some text)
    (h : StartPositions.decode text = .error e) :
    Disturbed gate probe d (.startPosition e) [e.message]

/-- How a refusal is reported. -/
inductive ReportedAs (gate : Gate) (probe : Probe) (d : Definition) : Refusal → Report → Prop where
  | rejected {r : Refusal} (named : r.kind ≠ .internal) :
    ReportedAs gate probe d r (.rejected d.name r)
  | unexpected {fault : Fault} {chain : List String} (disturbed : Disturbed gate probe d fault chain)
    (behind : fault.causes = chain) :
    ReportedAs gate probe d (.internal fault.message) (.unexpected d.name fault)

/-- What the reporter is told of a validation. -/
structure Reported (gate : Gate) (probe : Probe) (d : Definition) (verdict : Verdict) : Prop where
  silent : verdict.result = .ok () → verdict.reports = []
  once : ∀ r, verdict.result = .error r →
    ∃ report, verdict.reports = [report] ∧ ReportedAs gate probe d r report
  internal_iff : (∃ reason, verdict.result = .error (.internal reason)) ↔
    ∃ fault chain, Disturbed gate probe d fault chain

section
variable {gate : Gate} {probe : Probe} {d : Definition}

theorem reports_verdict (f : Finding) (known : List Definition) :
    (f.verdict gate d known).reports = (f.report? gate d).toList := by
  have hCount : (f.countNotices d).filterMap Notice.report? = [] := by
    unfold Finding.countNotices
    split <;> first | split <;> rfl | rfl
  rw [Verdict.reports, Finding.verdict, List.filterMap_cons_none rfl, List.filterMap_cons_none rfl,
    List.filterMap_append, hCount, List.nil_append, List.filterMap_map]
  exact List.filterMap_some

theorem Finds.disturbed {f : Finding} (h : Finds gate probe d f) {fault : Fault}
    (hFault : f.fault? = some fault) : Disturbed gate probe d fault fault.causes := by
  cases h with
  | unreachable cleared hConnect =>
    cases hFault
    exact .opening cleared hConnect (Origin.chain_metadata _)
  | unanswered cleared connects hAnswer =>
    cases hFault
    exact .fetching cleared connects hAnswer (Origin.chain_metadata _)
  | undecodable counted given hDecode =>
    cases hFault
    exact .decoding counted given hDecode
  | _ => cases hFault

theorem Disturbed.finds {fault : Fault} {chain : List String}
    (h : Disturbed gate probe d fault chain) :
    ∃ f, Finds gate probe d f ∧ f.fault? = some fault := by
  cases h with
  | opening cleared hConnect => exact ⟨_, .unreachable cleared hConnect, rfl⟩
  | fetching cleared connects hAnswer => exact ⟨_, .unanswered cleared connects hAnswer, rfl⟩
  | decoding counted given hDecode => exact ⟨_, .undecodable counted given hDecode, rfl⟩

theorem refusal?_of_fault {f : Finding} {fault : Fault} (h : f.fault? = some fault) :
    f.refusal? gate d = some (.internal fault.message) := by
  cases f <;> cases h <;> rfl

theorem kind_ne_internal {f : Finding} (h : f.fault? = none) {r : Refusal}
    (hRefusal : f.refusal? gate d = some r) : r.kind ≠ .internal := by
  intro hKind
  cases f with
  | unreachable _ _ => cases h
  | unanswered _ _ => cases h
  | undecodable _ _ _ => cases h
  | _ => cases hRefusal <;> cases hKind

theorem refusal?_of_error {f : Finding} {known : List Definition} {r : Refusal}
    (h : (f.verdict gate d known).result = .error r) : f.refusal? gate d = some r := by
  cases f <;> cases h <;> rfl

theorem report?_of_ok {f : Finding} {known : List Definition}
    (h : (f.verdict gate d known).result = .ok ()) : f.report? gate d = none := by
  cases f with
  | admissible a n => rfl
  | _ => cases h

theorem reported_validate (gate : Gate) (probe : Probe) (d : Definition) (known : List Definition) :
    Reported gate probe d (gate.validate probe d known) := by
  obtain ⟨f, hf⟩ := exists_finds gate probe d
  rw [validate_eq_verdict hf]
  refine ⟨fun hOk => ?_, fun r hr => ?_, ?_, ?_⟩
  · rw [reports_verdict, report?_of_ok hOk]
    rfl
  · have hRefusal := refusal?_of_error hr
    rw [reports_verdict, Finding.report?]
    cases hFault : f.fault? with
    | none =>
      rw [hRefusal]
      exact ⟨.rejected d.name r, rfl, .rejected (kind_ne_internal hFault hRefusal)⟩
    | some fault =>
      obtain rfl : .internal fault.message = r :=
        Option.some.inj ((refusal?_of_fault hFault).symm.trans hRefusal)
      exact ⟨.unexpected d.name fault, rfl, .unexpected (hf.disturbed hFault) rfl⟩
  · rintro ⟨reason, hReason⟩
    cases hFault : f.fault? with
    | none => exact absurd rfl (kind_ne_internal hFault (refusal?_of_error hReason))
    | some fault => exact ⟨fault, _, hf.disturbed hFault⟩
  · rintro ⟨fault, _, hDisturbed⟩
    -- The disturbance may be another finding than `f`, but the validation has one result only.
    obtain ⟨other, hOther, hFault⟩ := hDisturbed.finds
    have hResult : (gate.validate probe d known).result = .error (.internal fault.message) :=
      result_eq_error_iff.mpr ⟨other, hOther, refusal?_of_fault hFault⟩
    rw [validate_eq_verdict hf] at hResult
    exact ⟨fault.message, hResult⟩

end

variable {σ : Type}

theorem reported_run (gate : Gate) (live : LiveProbe σ) (start : σ)
    (requests : List (Definition × List Definition)) :
    ∀ step ∈ gate.run live start requests,
      Reported gate (live.behavior step.before) step.definition step.verdict :=
  forall_mem_run (fun _ => True)
    (fun s d known _ => ⟨reported_validate gate (live.behavior s) d known, trivial⟩)
    trivial requests

/-- The report is the one of a failed step. -/
def Step.ReportedBy (gate : Gate) (live : LiveProbe σ) (step : Step σ) (report : Report) : Prop :=
  ∃ r, step.verdict.result = .error r ∧
    ReportedAs gate (live.behavior step.before) step.definition r report

theorem forall₂_reportedBy {gate : Gate} {live : LiveProbe σ} {steps : List (Step σ)}
    (h : ∀ step ∈ steps,
      Reported gate (live.behavior step.before) step.definition step.verdict) :
    List.Forall₂ (Step.ReportedBy gate live) (steps.filter (·.verdict.fails))
      (steps.flatMap (·.verdict.reports)) := by
  induction steps with
  | nil => exact .nil
  | cons step steps ih =>
    rw [List.forall_mem_cons] at h
    obtain ⟨hStep, hSteps⟩ := h
    rw [List.flatMap_cons]
    cases hResult : step.verdict.result with
    | ok _ =>
      have hFails : step.verdict.fails = false := by rw [Verdict.fails, hResult]; rfl
      rw [List.filter_cons, hFails, if_neg Bool.false_ne_true, hStep.silent hResult, List.nil_append]
      exact ih hSteps
    | error r =>
      have hFails : step.verdict.fails = true := by rw [Verdict.fails, hResult]; rfl
      obtain ⟨report, hReports, hReported⟩ := hStep.once r hResult
      rw [List.filter_cons, hFails, if_pos rfl, hReports, List.singleton_append]
      exact .cons ⟨r, hResult, hReported⟩ (ih hSteps)

/-- In a run of any length the reporter gets one call for each failure, in their order, and none for
a success. An internal refusal is reported with the fault behind it, and all others as they are. -/
theorem reports_run (gate : Gate) (live : LiveProbe σ) (start : σ)
    (requests : List (Definition × List Definition)) :
    List.Forall₂ (Step.ReportedBy gate live)
      ((gate.run live start requests).filter (·.verdict.fails))
      ((gate.run live start requests).flatMap (·.verdict.reports)) ∧
    ∀ step ∈ gate.run live start requests,
      Reported gate (live.behavior step.before) step.definition step.verdict :=
  ⟨forall₂_reportedBy (reported_run gate live start requests),
    reported_run gate live start requests⟩

/-- A pattern, a definition that is admitted, one whose start positions are cut off, and one for which
the cluster is gone: the attempt to connect timed out since there was no route. -/
theorem reports_run_three :
    let gate : Gate := ⟨⟨none, none, none, 30000, ∅⟩, .unrestricted⟩
    let gone : MetadataError :=
      .connectionUnavailable "no broker" (some ⟨"timed out", "TimedOut", ["no route"]⟩)
    let live : LiveProbe Nat :=
      ⟨fun uses => ⟨fun _ => if uses < 2 then .ok fun _ => .ok (some 5) else .error gone⟩,
        fun uses contacts => if contacts = [] then uses else uses + 1⟩
    let requests := [(Definition.ofSource "s" "kafka://b1:9092/o*", []),
      (Definition.ofSource "t" "kafka://b1:9092/orders", []),
      ((Definition.ofSource "u" "kafka://b1:9092/orders").withMetadata "start-position" "\x7b", []),
      (Definition.ofSource "v" "kafka://b1:9092/orders", [])]
    let steps := gate.run live 0 requests
    steps.flatMap (·.verdict.reports) =
        [.rejected "s" (.wildcardNotAllowed "kafka://b1:9092/o*"),
          .unexpected "u" (.startPosition ⟨.objectEnds, 1, 1⟩), .unexpected "v" (.metadata gone)] ∧
      Fault.causes (.metadata gone) =
        ["Connection unavailable: no broker", "timed out", "no route"] ∧
      Origin.Chain (.metadata gone)
        ["Connection unavailable: no broker", "timed out", "no route"] ∧
      List.Forall₂ (Step.ReportedBy gate live) (steps.filter (·.verdict.fails))
        (steps.flatMap (·.verdict.reports)) ∧
      ∀ step ∈ steps, Reported gate (live.behavior step.before) step.definition step.verdict := by
  intro gate gone live requests steps
  exact ⟨by rfl, rfl, .behind rfl (.behind rfl (.last rfl)), reports_run gate live 0 requests⟩

end Gate

end StreamAdmission
