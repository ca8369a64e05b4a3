import StreamAdmission.Probe.Basic
import StreamAdmission.Table

/-!
# Static probes

Probes that answer from a fixed table of topics, or fail in a fixed way. A bench holds any number of
them and the connections they opened, and counts for every family of clones how many connections
were opened and how many were closed. A connection answers from the table its probe had when it was
opened.
-/

namespace StreamAdmission

/-- A failure that a static probe is set to. -/
inductive InjectedFailure where
  | opening (message : String)
  | fetching (message : String)
  deriving DecidableEq, Repr

structure StaticProbe where
  topics : Table String UInt32
  failure : Option InjectedFailure
  deriving DecidableEq

namespace StaticProbe

protected def empty : StaticProbe := ⟨∅, none⟩

def withTopic (p : StaticProbe) (topic : String) (partitions : UInt32) : StaticProbe :=
  { p with topics := p.topics.insert topic partitions }

/-- Every attempt to connect fails. -/
def unreachable (p : StaticProbe) (message : String) : StaticProbe :=
  { p with failure := some (.opening message) }

/-- Connecting works and every question fails. -/
def failingFetch (p : StaticProbe) (message : String) : StaticProbe :=
  { p with failure := some (.fetching message) }

/-- The answers of a connection opened now. -/
def answer (p : StaticProbe) (topic : String) : Reply :=
  match p.failure with
  | some (.fetching message) => .error (.fetch topic message none)
  | _ => .ok (p.topics.get? topic)

def connect (p : StaticProbe) (address : Address) : Except MetadataError (String → Reply) :=
  match p.failure with
  | some (.opening message) =>
    .error (.connectionUnavailable (message ++ " (" ++ address.bootstrapServers ++ ")") none)
  | _ => .ok p.answer

def toProbe (p : StaticProbe) : Probe := ⟨p.connect⟩

end StaticProbe

/-- How many connections were opened and how many were closed. -/
structure Counters where
  opened : Nat
  closed : Nat
  deriving DecidableEq, Repr, Inhabited

namespace Counters

def record (c : Counters) : Contact → Counters
  | .opened _ => { c with opened := c.opened + 1 }
  | .closed => { c with closed := c.closed + 1 }
  | .refused _ => c
  | .asked _ => c

def recordAll (c : Counters) (contacts : List Contact) : Counters := contacts.foldl record c

end Counters

/-- A connection on a bench, with the probe as it was when the connection was opened. -/
structure BenchConnection where
  probe : StaticProbe
  family : Nat
  isOpen : Bool

/-- Static probes, each in a family of clones, the connections opened on them, and the counters of
the families. -/
@[ext]
structure Bench where
  probes : List (StaticProbe × Nat)
  connections : List BenchConnection
  counters : List Counters

/-- What can be done on a bench; probes and connections are named by their numbers. A session is run on
a connection of its own, which is closed after it. -/
inductive BenchStep where
  | withTopic (probe : Nat) (topic : String) (partitions : UInt32)
  | unreachable (probe : Nat) (message : String)
  | failingFetch (probe : Nat) (message : String)
  | clone (probe : Nat)
  | create
  | connect (probe : Nat) (address : Address)
  | ask (connection : Nat) (topic : String)
  | close (connection : Nat)
  | session (probe : Nat) (address : Address)
    (session : Session (Except MetadataError (List (Option UInt32))))

/-- Asks for some topics in turn on a connection of its own. -/
def BenchStep.withConnection (probe : Nat) (address : Address) (topics : List String) : BenchStep :=
  .session probe address (Session.askAll topics)

inductive BenchOutcome where
  | done
  | probe (number : Nat)
  | connection (number : Nat)
  | count (partitions : Option UInt32)
  | counts (partitions : List (Option UInt32))
  | failed (error : MetadataError)
  | unknown

namespace Bench

def start : Bench := ⟨[(.empty, 0)], [], [⟨0, 0⟩]⟩

/-- Records contacts in the counters of a family. -/
def record (b : Bench) (family : Nat) (contacts : List Contact) : Bench :=
  { b with counters := b.counters.modify family (·.recordAll contacts) }

def modifyProbe (b : Bench) (number : Nat) (change : StaticProbe → StaticProbe) : Bench :=
  { b with probes := b.probes.modify number fun (probe, family) => (change probe, family) }

def countersOf (b : Bench) (number : Nat) : Counters :=
  match b.probes[number]? with
  | some (_, family) => b.counters[family]?.getD default
  | none => default

def step (b : Bench) : BenchStep → BenchOutcome × Bench
  | .withTopic number topic partitions =>
    (.done, b.modifyProbe number (·.withTopic topic partitions))
  | .unreachable number message => (.done, b.modifyProbe number (·.unreachable message))
  | .failingFetch number message => (.done, b.modifyProbe number (·.failingFetch message))
  | .clone number =>
    match b.probes[number]? with
    | some probe => (.probe b.probes.length, { b with probes := b.probes ++ [probe] })
    | none => (.unknown, b)
  | .create =>
    (.probe b.probes.length,
      { b with
        probes := b.probes ++ [(.empty, b.counters.length)]
        counters := b.counters ++ [⟨0, 0⟩] })
  | .connect number address =>
    match b.probes[number]? with
    | none => (.unknown, b)
    | some (probe, family) =>
      match probe.connect address with
      | .error e => (.failed e, b.record family [.refused address])
      | .ok _ =>
        (.connection b.connections.length,
          { b.record family [.opened address] with
            connections := b.connections ++ [⟨probe, family, true⟩] })
  | .ask number topic =>
    match b.connections[number]? with
    | none => (.unknown, b)
    | some connection =>
      match connection.probe.answer topic with
      | .error e => (.failed e, b)
      | .ok count => (.count count, b)
  | .close number =>
    match b.connections[number]? with
    | none => (.unknown, b)
    | some connection =>
      if connection.isOpen then
        (.done,
          { b.record connection.family [.closed] with
            connections := b.connections.modify number ({ · with isOpen := false }) })
      else (.done, b)
  | .session number address session =>
    match b.probes[number]? with
    | none => (.unknown, b)
    | some (probe, family) =>
      let (result, contacts) := probe.toProbe.withConnection address id session
      match result with
      | .error e => (.failed e, b.record family contacts)
      | .ok counts => (.counts counts, b.record family contacts)

def run (b : Bench) (steps : List BenchStep) : Bench := steps.foldl (fun b s => (b.step s).2) b

end Bench

end StreamAdmission
