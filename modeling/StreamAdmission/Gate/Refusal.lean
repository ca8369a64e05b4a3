import StreamAdmission.Probe.Basic
import StreamAdmission.Stream.StartPositions

/-!
# Refusals

Why a stream definition is not admitted, in the words its caller sees, and the faults behind the
refusals that are not the definition's own.
-/

namespace StreamAdmission

inductive RefusalKind where
  | format
  | wildcardNotAllowed
  | clusterNotWhitelisted
  | topicUnavailable
  | partitionCountMismatch
  | startPositionIncomplete
  | internal
  deriving DecidableEq, Repr

def RefusalKind.name : RefusalKind → String
  | .format => "format"
  | .wildcardNotAllowed => "wildcard-not-allowed"
  | .clusterNotWhitelisted => "cluster-not-whitelisted"
  | .topicUnavailable => "topic-unavailable"
  | .partitionCountMismatch => "partition-count-mismatch"
  | .startPositionIncomplete => "start-position-incomplete"
  | .internal => "internal"

inductive Refusal where
  | format (address reason : String)
  | wildcardNotAllowed (address : String)
  | clusterNotWhitelisted (address whitelist : String)
  | topicUnavailable (topic : String)
  | partitionCountMismatch (topic : String) (declared actual : UInt32)
  | startPositionIncomplete (stream : String) (gaps : Gaps)
  | internal (reason : String)
  deriving DecidableEq, Repr

namespace Refusal

def kind : Refusal → RefusalKind
  | format .. => .format
  | wildcardNotAllowed .. => .wildcardNotAllowed
  | clusterNotWhitelisted .. => .clusterNotWhitelisted
  | topicUnavailable .. => .topicUnavailable
  | partitionCountMismatch .. => .partitionCountMismatch
  | startPositionIncomplete .. => .startPositionIncomplete
  | internal .. => .internal

/-- Numbers between brackets, separated by a comma and a space. -/
def listText (numbers : List Int) : String :=
  String.ofList ('[' :: Text.join [',', ' '] (numbers.map Text.signedDecimal) ++ [']'])

def numberText (n : Nat) : String := String.ofList (Text.decimal n)

def message : Refusal → String
  | format address reason => "Invalid connection string '" ++ address ++ "': " ++ reason
  | wildcardNotAllowed address => "Wildcard characters are not allowed in " ++ address
  | clusterNotWhitelisted address whitelist =>
    "Kafka connector is not white-listed for the cluster " ++ address ++
      ". Current white-listed clusters [" ++ whitelist ++ "]"
  | topicUnavailable topic =>
    "Can't get partition info from kafka for topic '" ++ topic ++
      "'. Very likely that auto topic creation is disabled on the broker and the topic " ++
      "doesn't exist"
  | partitionCountMismatch topic declared actual =>
    "Source is configured with " ++ numberText declared.toNat ++ " partitions, but the topic " ++
      topic ++ " actually has " ++ numberText actual.toNat ++ " partitions"
  | startPositionIncomplete stream gaps =>
    "Missing partitions starting offset for datastream " ++ stream ++ ": missing partitions " ++
      listText (gaps.missing.map Int.ofNat) ++ ", unexpected partitions " ++
      listText gaps.unexpected
  | internal reason => "Initialization failed: " ++ reason

end Refusal

/-- What goes wrong while a definition is checked and is not a fault of its source. -/
inductive Fault where
  | metadata (error : MetadataError)
  | startPosition (error : Json.Error)
  deriving DecidableEq, Repr

namespace Fault

def message : Fault → String
  | metadata error => error.message
  | startPosition error => "Malformed start-position metadata: " ++ error.message

/-- The causes behind the fault, the nearest first. -/
def causes : Fault → List String
  | metadata error => error.message :: error.causes
  | startPosition error => [error.message]

def details : Fault → String
  | metadata error => "Metadata(" ++ error.details ++ ")"
  | startPosition error =>
    "StartPosition(Error(" ++ Text.escaped error.cause.message ++ ", line: " ++
      Refusal.numberText error.line ++ ", column: " ++ Refusal.numberText error.column ++ "))"

end Fault

/-- An error from which a fault or another error comes. -/
inductive Origin where
  | metadata (error : MetadataError)
  | json (error : Json.Error)
  | other (text : String) (behind : List String)
  deriving DecidableEq, Repr

def Fault.origin : Fault → Origin
  | metadata error => .metadata error
  | startPosition error => .json error

namespace Origin

def message : Origin → String
  | metadata error => error.message
  | json error => error.message
  | other text _ => text

/-- The error from which an error comes, if there is one. -/
def origin? : Origin → Option Origin
  | metadata error => error.cause?.map fun cause => other cause.text cause.behind
  | json _ => none
  | other _ [] => none
  | other _ (text :: behind) => some (other text behind)

/-- How many errors stand behind an error. -/
def depth : Origin → Nat
  | metadata error => match error.cause? with
    | none => 0
    | some cause => cause.behind.length + 1
  | json _ => 0
  | other _ behind => behind.length

theorem depth_lt_of_origin? {e next : Origin} (h : e.origin? = some next) :
    next.depth < e.depth := by
  unfold origin? at h
  split at h
  · rename_i error
    obtain ⟨cause, hCause, rfl⟩ := Option.map_eq_some_iff.mp h
    simp [depth, hCause]
  · cases h
  · cases h
  · cases h
    simp [depth]

end Origin

end StreamAdmission
