import StreamAdmission.Broker.Topic
import StreamAdmission.Gate.Notice
import StreamAdmission.Settings.Basic
import StreamAdmission.Stream.Definition

/-!
# The admission gate

A gate admits a stream definition if its source address can be read, names no topic pattern, belongs
to a whitelisted cluster, and agrees with what the cluster tells about the topic: the declared
partition count, if any, and the start positions, if any. The first check that fails decides the
refusal. The source of an admitted definition becomes canonical and gets its partition count;
otherwise it stays as it was. Serde defaults are filled in as soon as the address can be read.
-/

namespace StreamAdmission

/-- A gate: the settings and the whitelist read from them. -/
structure Gate where
  settings : Settings
  whitelist : Whitelist
  deriving DecidableEq

inductive Stop where
  | refused (refusal : Refusal)
  | failed (fault : Fault)
  deriving DecidableEq, Repr

/-- What is written back to an admitted definition. -/
structure Admission where
  address : Address
  partitions : UInt32
  deriving DecidableEq, Repr

/-- A check of an address and its topic: what it comes to, and what it did on the way. -/
structure Trial where
  outcome : Except Stop Admission
  contacts : List Contact
  notices : List Notice

/-- What a validation comes to: its result, the definition afterwards, what the probe got to see,
and what was made known. -/
structure Verdict where
  result : Except Refusal Unit
  definition : Definition
  contacts : List Contact
  notices : List Notice

namespace Settings

/-- Fills in the serdes that a destination lacks. -/
def fillSerdes (s : Settings) (d : Destination) : Destination :=
  { d with
    keySerde := d.keySerde.or s.effectiveKeySerde
    valueSerde := d.valueSerde.or s.effectiveValueSerde }

def fillDefaults (s : Settings) (d : Definition) : Definition :=
  { d with destination := d.destination.map s.fillSerdes }

end Settings

namespace Gate

/-- Makes a gate; the whitelist is read once, here. -/
def ofSettings (settings : Settings) : Except SettingsError Gate :=
  match Whitelist.ofSetting settings.whiteListedClusters with
  | .error e => .error (.whitelist e)
  | .ok whitelist => .ok ⟨settings, whitelist⟩

/-- What is made known when the gate is made. -/
def notices (gate : Gate) : List Notice :=
  if gate.whitelist.isEmpty then [] else [.restricted gate.whitelist]

/-- Compares the answer for a topic with the declared partition count. -/
def reconcile (topic : String) (declared : Option UInt32) : Reply → Except Stop UInt32
  | .error e => .error (.failed (.metadata e))
  | .ok none => .error (.refused (.topicUnavailable topic))
  | .ok (some actual) =>
    match declared with
    | none => .ok actual
    | some declared =>
      if declared = actual then .ok actual
      else .error (.refused (.partitionCountMismatch topic declared actual))

def countPartitions (probe : Probe) (address : Address) (declared : Option UInt32) :
    Except Stop UInt32 × List Contact :=
  probe.withConnection address (fun e => .failed (.metadata e))
    (.ask address.topic fun reply => .done (reconcile address.topic declared reply))

/-- What is made known of a partition count that was not declared. -/
def countNotices (address : Address) (declared : Option UInt32) :
    Except Stop UInt32 → List Notice
  | .ok actual => if declared.isNone then [.counted address actual] else []
  | .error _ => []

/-- Checks that the start positions of a definition, if it has any, cover the topic. -/
def checkStart (d : Definition) (partitions : UInt32) : Except Stop Unit :=
  match d.startPosition? with
  | none => .ok ()
  | some text =>
    match StartPositions.decode text with
    | .error e => .error (.failed (.startPosition e))
    | .ok positions =>
      let gaps := positions.coverage partitions
      if gaps.isEmpty then .ok () else .error (.refused (.startPositionIncomplete d.name gaps))

/-- Checks a definition whose address has been read. -/
def tryAddress (gate : Gate) (probe : Probe) (d : Definition) (address : Address) : Trial :=
  if Topic.hasWildcard address.topic then
    ⟨.error (.refused (.wildcardNotAllowed d.source.connectionString)), [], []⟩
  else if !gate.whitelist.allows address then
    ⟨.error (.refused (.clusterNotWhitelisted d.source.connectionString gate.whitelist.render)),
      [], []⟩
  else
    let (counted, contacts) := countPartitions probe address d.source.partitions
    let notices := countNotices address d.source.partitions counted
    match counted with
    | .error stop => ⟨.error stop, contacts, notices⟩
    | .ok partitions =>
      match checkStart d partitions with
      | .error stop => ⟨.error stop, contacts, notices⟩
      | .ok () => ⟨.ok ⟨address, partitions⟩, contacts, notices⟩

/-- The definition after it has been admitted. -/
def writeBack (d : Definition) (a : Admission) : Definition :=
  { d with source := ⟨a.address.canonical, some a.partitions⟩ }

/-- What a trial comes to for the definition it was made of. -/
def conclude (d : Definition) (trial : Trial) : Verdict :=
  match trial.outcome with
  | .ok admission => ⟨.ok (), writeBack d admission, trial.contacts, trial.notices⟩
  | .error (.refused refusal) =>
    ⟨.error refusal, d, trial.contacts,
      trial.notices ++ [.reported (.rejected d.name refusal)]⟩
  | .error (.failed fault) =>
    ⟨.error (.internal fault.message), d, trial.contacts,
      trial.notices ++ [.reported (.unexpected d.name fault)]⟩

/-- Validates a definition; `known` are the streams registered already. -/
def validate (gate : Gate) (probe : Probe) (d : Definition) (known : List Definition) : Verdict :=
  let verdict :=
    match Address.parse d.source.connectionString with
    | .error e =>
      conclude d ⟨.error (.refused (.format e.address e.message)), [], []⟩
    | .ok address =>
      let filled := gate.settings.fillDefaults d
      conclude filled (gate.tryAddress probe filled address)
  { verdict with notices := .started d.name :: .registered known.length :: verdict.notices }

end Gate

end StreamAdmission
