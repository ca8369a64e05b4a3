import StreamAdmission.Broker.Address
import StreamAdmission.Text.Escaped

/-!
# Metadata probes

A probe opens a connection to the cluster of an address; a connection tells how many partitions a
topic has. What is done with a connection is a session: a finite run of questions, each of which may
depend on the answers before it. `bracket` opens a connection, runs a session on it, and closes it,
whatever the session comes to. A connection may answer by what it was asked before; those of a probe
are steady.
-/

namespace StreamAdmission

/-- An error behind a failure: its text, what a log shows of it, and the texts of the errors behind it
in turn, the nearest first. -/
structure Underlying where
  text : String
  details : String
  behind : List String
  deriving DecidableEq, Repr

/-- A text alone stands for an error with nothing behind it. -/
instance : Coe String Underlying := ⟨fun text => ⟨text, Text.escaped text, []⟩⟩

/-- A failure to connect with a cluster or to ask it, perhaps with an underlying cause. -/
inductive MetadataError where
  | connectionUnavailable (message : String) (cause : Option Underlying)
  | fetch (topic message : String) (cause : Option Underlying)
  deriving DecidableEq, Repr

namespace MetadataError

def message : MetadataError → String
  | connectionUnavailable message _ => "Connection unavailable: " ++ message
  | fetch topic message _ => "Failed to fetch metadata for topic '" ++ topic ++ "': " ++ message

/-- The error from which the failure comes, if it names one. -/
def cause? : MetadataError → Option Underlying
  | connectionUnavailable _ cause => cause
  | fetch _ _ cause => cause

/-- The causes behind the failure, the nearest first. -/
def causes : MetadataError → List String
  | connectionUnavailable _ cause => chain cause
  | fetch _ _ cause => chain cause
where
  chain : Option Underlying → List String
    | none => []
    | some cause => cause.text :: cause.behind

/-- The failure with all its parts, for a log. -/
def details : MetadataError → String
  | connectionUnavailable message cause =>
    "ConnectionUnavailable \x7b message: " ++ Text.escaped message ++ ", source: " ++
      causeDetails cause ++ " \x7d"
  | fetch topic message cause =>
    "Fetch \x7b topic: " ++ Text.escaped topic ++ ", message: " ++ Text.escaped message ++
      ", source: " ++ causeDetails cause ++ " \x7d"
where
  causeDetails : Option Underlying → String
    | none => "None"
    | some cause => "Some(" ++ cause.details ++ ")"

end MetadataError

/-- The answer to a question for a partition count; the topic may have none that is known. -/
abbrev Reply := Except MetadataError (Option UInt32)

/-- A connection in use: its answer to a topic, given the topics that it was asked for before. -/
abbrev LiveConnection := List String → String → Reply

/-- A connection that answers a topic in the same way each time. -/
def LiveConnection.steady (answer : String → Reply) : LiveConnection := fun _ => answer

/-- A probe: connecting either fails or gives the answers of a steady connection. -/
structure Probe where
  connect : Address → Except MetadataError (String → Reply)

/-- What a probe gets to see. -/
inductive Contact where
  | refused (address : Address)
  | opened (address : Address)
  | asked (topic : String)
  | closed
  deriving DecidableEq, Repr

/-- What is done with a connection until there is a result. -/
inductive Session (α : Type) where
  | done (result : α)
  | ask (topic : String) (next : Reply → Session α)

namespace Session

variable {α : Type}

/-- The result of a session on a connection, and the questions that it asks; some topics may have
been asked for already. -/
def converse (connection : LiveConnection) : List String → Session α → α × List Contact
  | _, done result => (result, [])
  | asked, ask topic next =>
    let (result, contacts) :=
      converse connection (asked ++ [topic]) (next (connection asked topic))
    (result, .asked topic :: contacts)

/-- Asks for some topics in turn and stops at the first failure. -/
def askAll : List String → Session (Except MetadataError (List (Option UInt32)))
  | [] => done (.ok [])
  | topic :: topics => ask topic fun
    | .error e => done (.error e)
    | .ok count => prepend count (askAll topics)
where
  prepend (count : Option UInt32) : Session (Except MetadataError (List (Option UInt32))) →
      Session (Except MetadataError (List (Option UInt32)))
    | done result => done (result.map (count :: ·))
    | ask topic next => ask topic fun reply => prepend count (next reply)

end Session

section
variable {α ε : Type}

/-- Runs a session on a connection that is opened before it and closed after it. If the connection
cannot be opened the session does not run, and there is nothing to close. -/
def bracket (connect : Address → Except MetadataError LiveConnection) (address : Address)
    (failed : MetadataError → ε) (session : Session (Except ε α)) : Except ε α × List Contact :=
  match connect address with
  | .error e => (.error (failed e), [.refused address])
  | .ok connection =>
    let (result, contacts) := session.converse connection []
    (result, .opened address :: contacts ++ [.closed])

def Probe.withConnection (probe : Probe) (address : Address) (failed : MetadataError → ε)
    (session : Session (Except ε α)) : Except ε α × List Contact :=
  bracket (fun a => (probe.connect a).map .steady) address failed session

variable {probe : Probe} {address : Address} {failed : MetadataError → ε}
  {session : Session (Except ε α)}

theorem Probe.withConnection_of_error {e : MetadataError} (h : probe.connect address = .error e) :
    probe.withConnection address failed session = (.error (failed e), [.refused address]) := by
  rw [withConnection, bracket, h]
  rfl

theorem Probe.withConnection_of_ok {answer : String → Reply}
    (h : probe.connect address = .ok answer) :
    probe.withConnection address failed session =
      ((session.converse (.steady answer) []).1,
        .opened address :: (session.converse (.steady answer) []).2 ++ [.closed]) := by
  rw [withConnection, bracket, h]
  rfl

end

end StreamAdmission
