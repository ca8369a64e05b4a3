import StreamAdmission.Broker.Whitelist
import StreamAdmission.Gate.Refusal

/-!
# Notices

What a gate makes known while it works. Refusals and faults are also reported; the standard
reporter writes them to the log, one line for a refusal, and for a fault one line more for each of
its causes.
-/

namespace StreamAdmission

inductive LogLevel where
  | debug
  | info
  | warn
  | error
  deriving DecidableEq, Repr

def LogLevel.name : LogLevel → String
  | .debug => "DEBUG"
  | .info => "INFO"
  | .warn => "WARN"
  | .error => "ERROR"

structure LogLine where
  level : LogLevel
  text : String
  deriving DecidableEq, Repr

def LogLine.render (l : LogLine) : String := l.level.name ++ " " ++ l.text

/-- A call of the reporter. -/
inductive Report where
  | rejected (stream : String) (refusal : Refusal)
  | unexpected (stream : String) (fault : Fault)
  deriving DecidableEq, Repr

inductive Notice where
  | restricted (whitelist : Whitelist)
  | started (stream : String)
  | registered (count : Nat)
  | counted (address : Address) (partitions : UInt32)
  | reported (report : Report)
  deriving DecidableEq, Repr

/-- One line for an error and one for each of those behind it, until one comes from no other. -/
def Origin.logLines (e : Origin) : List LogLine :=
  ⟨.error, "  caused by: " ++ e.message⟩ ::
    match h : e.origin? with
    | none => []
    | some next =>
      have := depth_lt_of_origin? h
      next.logLines
termination_by e.depth

/-- The standard reporter: missing offsets are a warning, all other refusals are errors. -/
def Report.logLines : Report → List LogLine
  | .rejected stream refusal =>
    [match refusal.kind with
      | .startPositionIncomplete =>
        ⟨.warn, "[SourceValidationGate] " ++ stream ++ ": " ++ refusal.message⟩
      | kind =>
        ⟨.error, "[SourceValidationGate] " ++ stream ++ " rejected (" ++ kind.name ++ "): " ++
          refusal.message⟩]
  | .unexpected stream fault =>
    ⟨.error, "[SourceValidationGate] Initialization of " ++ stream ++ " threw an error: " ++
      fault.details⟩ :: fault.origin.logLines

namespace Notice

def logLines : Notice → List LogLine
  | restricted whitelist =>
    [⟨.info, "[SourceValidationGate] Restricting sources to clusters [" ++ whitelist.render ++ "]"⟩]
  | started stream => [⟨.info, "Initialize datastream " ++ stream⟩]
  | registered count =>
    [⟨.debug, "[SourceValidationGate] " ++ Refusal.numberText count ++
      " datastreams already registered"⟩]
  | counted address partitions =>
    [⟨.info, "Kafka source " ++ address.canonical ++ " has " ++
      Refusal.numberText partitions.toNat ++ " partitions."⟩]
  | reported report => report.logLines

/-- The report made by the notice, if it is one. -/
def report? : Notice → Option Report
  | reported report => some report
  | _ => none

end Notice

end StreamAdmission
