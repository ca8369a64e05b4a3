import StreamAdmission.Gate.Admission
import StreamAdmission.Settings.File

/-!
# Command line

The arguments name a definition, perhaps a settings file, and any number of definitions registered
already. A run loads the settings, makes the gate, reads the definition and then the known ones in
turn; the first failure ends it. Otherwise the definition is validated. The log goes to the error
output, before what the run itself has to say there. The options that ask for help or for the version
are left out.
-/

namespace StreamAdmission.CommandLine

structure Arguments where
  definition : String
  config : Option String
  known : List String
  deriving DecidableEq, Repr

inductive OptionName where
  | definition
  | config
  | known
  deriving DecidableEq, Repr

def longName? (name : List Char) : Option OptionName :=
  if name = "definition".toList then some .definition
  else if name = "config".toList then some .config
  else if name = "known".toList then some .known
  else none

def shortName? : Char → Option OptionName
  | 'd' => some .definition
  | 'c' => some .config
  | _ => none

/-- An argument: an option with or without its value, the mark that ends the options, or a value. -/
inductive Argument where
  | option (name : OptionName) (value : Option (List Char))
  | endMark
  | value (text : List Char)
  | unknown
  deriving DecidableEq, Repr

/-- The text behind an equals sign, if there is one in front. -/
def afterEquals : List Char → List Char
  | '=' :: rest => rest
  | text => text

/-- Reads one argument. A single minus sign is a value. -/
def Argument.ofChars (text : List Char) : Argument :=
  match text with
  | ['-', '-'] => .endMark
  | '-' :: '-' :: rest =>
    match longName? (rest.takeWhile (· ≠ '=')) with
    | none => .unknown
    | some name =>
      match rest.dropWhile (· ≠ '=') with
      | [] => .option name none
      | _ :: given => .option name (some given)
  | '-' :: c :: rest =>
    match shortName? c with
    | none => .unknown
    | some name => .option name (if rest = [] then none else some (afterEquals rest))
  | _ => .value text

/-- Pairs each option with its value, which is not empty. Nothing else may be given. -/
def pairs? : List Argument → Option (List (OptionName × String))
  | [] => some []
  | [.endMark] => some []
  | .option name (some value) :: rest => pair name value (pairs? rest)
  | .option name none :: .value value :: rest => pair name value (pairs? rest)
  | _ => none
where
  pair (name : OptionName) (value : List Char) (rest : Option (List (OptionName × String))) :
      Option (List (OptionName × String)) :=
    if value = [] then none else rest.map ((name, String.ofList value) :: ·)

def valuesOf (name : OptionName) (pairs : List (OptionName × String)) : List String :=
  (pairs.filter (·.1 = name)).map (·.2)

def Arguments.parse? (args : List String) : Option Arguments := do
  let pairs ← pairs? (args.map fun arg => Argument.ofChars arg.toList)
  match valuesOf .definition pairs, valuesOf .config pairs with
  | [definition], [] => some ⟨definition, none, valuesOf .known pairs⟩
  | [definition], [config] => some ⟨definition, some config, valuesOf .known pairs⟩
  | _, _ => none

/-- What ends a run before the definition is validated. -/
inductive Failure where
  | settings (error : SettingsError)
  | unreadable (path : String) (error : ReadError)
  | invalid (path : String) (error : Json.Error)
  deriving DecidableEq, Repr

def Failure.message (words : DecoderWords) : Failure → String
  | settings error => error.message words
  | unreadable path error => "Failed to read " ++ path ++ ": " ++ error.message
  | invalid path error => "Invalid definition " ++ path ++ ": " ++ error.message

inductive Outcome where
  | misused (args : List String)
  | failed (failure : Failure)
  | refused (refusal : Refusal)
  | admitted (definition : Definition)

/-- The exit code and the two outputs of a run. -/
structure Output where
  exitCode : Nat
  stdout : String
  stderr : String
  deriving DecidableEq, Repr

/-- What is written by libraries: the words of the decoders, the lines of a log as far as and in the
form in which the logger is set to write them, and what is said of arguments that are not understood. -/
structure Console where
  decoders : DecoderWords
  log : List LogLine → String
  usage : List String → String

/-- What an outcome gives, but for the log. -/
def Outcome.output (console : Console) : Outcome → Output
  | misused args => ⟨2, "", console.usage args⟩
  | failed failure => ⟨1, "", "error: " ++ failure.message console.decoders ++ "\n"⟩
  | refused refusal => ⟨2, "", refusal.kind.name ++ ": " ++ refusal.message ++ "\n"⟩
  | admitted definition => ⟨0, definition.document.pretty ++ "\n", ""⟩

/-- What reads the text of a file. A path is a text; paths that are not encoded in UTF-8, which a
system may allow, are left out. -/
abbrev FileReader := String → Except ReadError String

def readDefinition (read : FileReader) (path : String) : Except Failure Definition :=
  match read path with
  | .error e => .error (.unreadable path e)
  | .ok text =>
    match Definition.decode text with
    | .error e => .error (.invalid path e)
    | .ok definition => .ok definition

def readDefinitions (read : FileReader) : List String → Except Failure (List Definition)
  | [] => .ok []
  | path :: paths =>
    match readDefinition read path with
    | .error e => .error e
    | .ok definition =>
      match readDefinitions read paths with
      | .error e => .error e
      | .ok definitions => .ok (definition :: definitions)

def loadSettings (read : FileReader) : Option String → Except SettingsError Settings
  | none => .ok .standard
  | some path => Settings.ofFile read path

def loadGate (read : FileReader) (config : Option String) : Except Failure Gate :=
  match loadSettings read config with
  | .error e => .error (.settings e)
  | .ok settings =>
    match Gate.ofSettings settings with
    | .error e => .error (.settings e)
    | .ok gate => .ok gate

/-- What a run comes to, what the probe got to see of it, and what was made known. -/
structure Run where
  outcome : Outcome
  contacts : List Contact
  notices : List Notice

def Run.log (run : Run) : List LogLine := run.notices.flatMap Notice.logLines

def Run.output (console : Console) (run : Run) : Output :=
  let own := run.outcome.output console
  { own with stderr := console.log run.log ++ own.stderr }

/-- Runs with arguments that were read, on the probe that the settings give. -/
def run (read : FileReader) (probe : Settings → Probe) (arguments : Arguments) : Run :=
  match loadGate read arguments.config with
  | .error failure => ⟨.failed failure, [], []⟩
  | .ok gate =>
    match readDefinition read arguments.definition with
    | .error failure => ⟨.failed failure, [], gate.notices⟩
    | .ok definition =>
      match readDefinitions read arguments.known with
      | .error failure => ⟨.failed failure, [], gate.notices⟩
      | .ok known =>
        let verdict := gate.validate (probe gate.settings) definition known
        let notices := gate.notices ++ verdict.notices
        match verdict.result with
        | .ok () => ⟨.admitted verdict.definition, verdict.contacts, notices⟩
        | .error refusal => ⟨.refused refusal, verdict.contacts, notices⟩

def execute (read : FileReader) (probe : Settings → Probe) (args : List String) : Run :=
  match Arguments.parse? args with
  | none => ⟨.misused args, [], []⟩
  | some arguments => run read probe arguments

end StreamAdmission.CommandLine
