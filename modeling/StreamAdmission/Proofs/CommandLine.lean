import StreamAdmission.CommandLine
import StreamAdmission.Files
import StreamAdmission.Proofs.Gate.Run

/-!
# Runs that no cluster gets to see

The inputs of a run stand in a fixed order, and how one of them fails is told from it alone. The first
that fails ends the run with its message, whatever the others are like. If none fails and the probe is
not used, the definition is turned away for a reason that its text and the settings give; what is
registered already has no part in it. Nothing is written to the standard output, and to the other one
what the logger makes of the lines logged so far and then the message.
-/

namespace StreamAdmission

namespace Gate

/-- The definition is refused for its address alone. -/
inductive TurnsAway (gate : Gate) (d : Definition) : Refusal → Prop where
  | unreadable {e : AddressError} (h : Address.parse d.source.connectionString = .error e) :
    TurnsAway gate d (.format d.source.connectionString e.message)
  | pattern {a : Address} (reads : Address.parse d.source.connectionString = .ok a)
    (h : ¬ Topic.IsLiteral a.topic) :
    TurnsAway gate d (.wildcardNotAllowed d.source.connectionString)
  | unlisted {a : Address} (reads : Address.parse d.source.connectionString = .ok a)
    (literal : Topic.IsLiteral a.topic) (h : ¬ gate.whitelist.Admits a) :
    TurnsAway gate d (.clusterNotWhitelisted d.source.connectionString gate.whitelist.render)

variable {gate : Gate} {probe : Probe} {d : Definition} {r : Refusal}

theorem TurnsAway.validate (h : TurnsAway gate d r) (probe : Probe) (known : List Definition) :
    (gate.validate probe d known).result = .error r ∧
      (gate.validate probe d known).contacts = [] ∧
      (gate.validate probe d known).notices =
        [.started d.name, .registered known.length, .reported (.rejected d.name r)] := by
  cases h with
  | unreadable h =>
    rw [validate_eq_verdict (.unreadable h)]
    exact ⟨rfl, rfl, rfl⟩
  | pattern reads h =>
    rw [validate_eq_verdict (.pattern reads h)]
    exact ⟨rfl, rfl, rfl⟩
  | unlisted reads literal h =>
    rw [validate_eq_verdict (.unlisted reads literal h)]
    exact ⟨rfl, rfl, rfl⟩

theorem TurnsAway.logLines (h : TurnsAway gate d r) : (Report.rejected d.name r).logLines =
    [⟨.error, "[SourceValidationGate] " ++ d.name ++ " rejected (" ++ r.kind.name ++ "): " ++
      r.message⟩] := by
  cases h <;> rfl

/-- A validation that does not use the probe turns the definition away. -/
theorem exists_turnsAway {known : List Definition}
    (h : (gate.validate probe d known).contacts = []) : ∃ r, TurnsAway gate d r := by
  obtain ⟨f, hf⟩ := exists_finds gate probe d
  rw [validate_eq_verdict hf] at h
  cases hf with
  | unreadable unread => exact ⟨_, .unreadable unread⟩
  | pattern reads wild => exact ⟨_, .pattern reads wild⟩
  | unlisted reads literal unlisted => exact ⟨_, .unlisted reads literal unlisted⟩
  -- everything else is found after an attempt to connect
  | _ => cases h

end Gate

namespace CommandLine

/-! ### Inputs -/

/-- What a run needs: the settings, the whitelist in them, and definitions. -/
inductive Input where
  | settings (config : Option String)
  | whitelist (config : Option String)
  | definition (path : String)

/-- The inputs of a run in the order in which they are looked at. -/
def Arguments.inputs (arguments : Arguments) : List Input :=
  .settings arguments.config :: .whitelist arguments.config :: .definition arguments.definition ::
    arguments.known.map .definition

variable {read : FileReader} {probe : Settings → Probe} {arguments : Arguments} {failure : Failure}

/-- How an input fails. A whitelist needs settings to stand in, and only what can be read is
decoded. -/
inductive Fails (read : FileReader) : Input → Failure → Prop where
  | settings {config : Option String} {e : SettingsError}
    (h : loadSettings read config = .error e) : Fails read (.settings config) (.settings e)
  | whitelist {config : Option String} {s : Settings} {e : AddressError}
    (loads : loadSettings read config = .ok s)
    (h : Whitelist.ofSetting s.whiteListedClusters = .error e) :
    Fails read (.whitelist config) (.settings (.whitelist e))
  | unreadable {path : String} {e : ReadError} (h : read path = .error e) :
    Fails read (.definition path) (.unreadable path e)
  | undecodable {path text : String} {e : Json.Error} (reads : read path = .ok text)
    (h : Definition.decode text = .error e) : Fails read (.definition path) (.invalid path e)

/-- The first of the inputs that fails fails so. -/
inductive FirstFails (read : FileReader) : List Input → Failure → Prop where
  | here {input : Input} {failure : Failure} (later : List Input) (h : Fails read input failure) :
    FirstFails read (input :: later) failure
  | later {input : Input} {inputs : List Input} {failure : Failure}
    (passes : ∀ f, ¬ Fails read input f) (h : FirstFails read inputs failure) :
    FirstFails read (input :: inputs) failure

def NoneFails (read : FileReader) (inputs : List Input) : Prop :=
  ∀ input ∈ inputs, ∀ failure, ¬ Fails read input failure

theorem noneFails_or_firstFails (read : FileReader) (inputs : List Input) :
    NoneFails read inputs ∨ ∃ failure, FirstFails read inputs failure := by
  induction inputs with
  | nil => exact Or.inl nofun
  | cons input inputs ih =>
    by_cases hInput : ∃ failure, Fails read input failure
    · obtain ⟨failure, h⟩ := hInput
      exact Or.inr ⟨failure, .here inputs h⟩
    · have hPasses := not_exists.mp hInput
      rcases ih with hNone | ⟨failure, h⟩
      · exact Or.inl (List.forall_mem_cons.mpr ⟨hPasses, hNone⟩)
      · exact Or.inr ⟨failure, .later hPasses h⟩

theorem FirstFails.not_noneFails {inputs : List Input} (h : FirstFails read inputs failure) :
    ¬ NoneFails read inputs := by
  induction h with
  | here later h => exact fun hNone => hNone _ List.mem_cons_self _ h
  | later _ _ ih => exact fun hNone => ih (List.forall_mem_cons.mp hNone).2

/-! ### Reading them -/

theorem loadGate_of_firstFails {config : Option String}
    (h : FirstFails read [.settings config, .whitelist config] failure) :
    loadGate read config = .error failure := by
  cases h with
  | here _ h =>
    cases h with
    | settings h => rw [loadGate, h]
  | later _ h =>
    cases h with
    | here _ h =>
      cases h with
      | whitelist loads h =>
        rw [loadGate, loads]
        simp only [Gate.ofSettings, h]
    | later _ h => cases h

theorem exists_loadGate {config : Option String}
    (hSettings : ∀ f, ¬ Fails read (.settings config) f)
    (hWhitelist : ∀ f, ¬ Fails read (.whitelist config) f) :
    ∃ gate, loadGate read config = .ok gate := by
  rw [loadGate]
  cases hLoad : loadSettings read config with
  | error e => exact absurd (.settings hLoad) (hSettings _)
  | ok s =>
    simp only [Gate.ofSettings]
    cases hSetting : Whitelist.ofSetting s.whiteListedClusters with
    | error e => exact absurd (.whitelist hLoad hSetting) (hWhitelist _)
    | ok w => exact ⟨_, rfl⟩

theorem readDefinition_of_fails {path : String} (h : Fails read (.definition path) failure) :
    readDefinition read path = .error failure := by
  cases h with
  | unreadable h => rw [readDefinition, h]
  | undecodable reads h =>
    rw [readDefinition, reads]
    simp only [h]

theorem exists_readDefinition {path : String} (h : ∀ f, ¬ Fails read (.definition path) f) :
    ∃ d, readDefinition read path = .ok d := by
  rw [readDefinition]
  cases hRead : read path with
  | error e => exact absurd (.unreadable hRead) (h _)
  | ok text =>
    cases hDecode : Definition.decode text with
    | error e => exact absurd (.undecodable hRead hDecode) (h _)
    | ok d => exact ⟨d, by simp only [hDecode]⟩

theorem readDefinitions_of_firstFails {paths : List String}
    (h : FirstFails read (paths.map .definition) failure) :
    readDefinitions read paths = .error failure := by
  induction paths with
  | nil => cases h
  | cons path paths ih =>
    rw [readDefinitions]
    cases h with
    | here _ h => rw [readDefinition_of_fails h]
    | later passes h =>
      obtain ⟨d, hd⟩ := exists_readDefinition passes
      rw [hd]
      simp only [ih h]

theorem exists_readDefinitions {paths : List String}
    (h : NoneFails read (paths.map .definition)) :
    ∃ known, readDefinitions read paths = .ok known := by
  induction paths with
  | nil => exact ⟨[], rfl⟩
  | cons path paths ih =>
    obtain ⟨hFirst, hOthers⟩ := List.forall_mem_cons.mp h
    obtain ⟨d, hd⟩ := exists_readDefinition hFirst
    obtain ⟨known, hKnown⟩ := ih hOthers
    exact ⟨d :: known, by rw [readDefinitions, hd]; simp only [hKnown]⟩

theorem length_of_readDefinitions {paths : List String} {known : List Definition}
    (h : readDefinitions read paths = .ok known) : known.length = paths.length := by
  induction paths generalizing known with
  | nil =>
    cases h
    rfl
  | cons path paths ih =>
    rw [readDefinitions] at h
    split at h
    · cases h
    · split at h
      · cases h
      · rename_i others hOthers
        cases h
        rw [List.length_cons, List.length_cons, ih hOthers]

/-! ### Messages and lines of the log -/

/-- The words in which a failure is told. -/
inductive Failure.Told (words : DecoderWords) : Failure → String → Prop where
  | unreadableSettings (path : String) (e : ReadError) : Told words (.settings (.unreadable path e))
    ("Failed to read config file " ++ path ++ ": " ++ e.message)
  | invalidToml (text : String) : Told words (.settings (.invalidToml text))
    ("Invalid TOML config: " ++ words.toml text)
  | invalidYaml (text : String) : Told words (.settings (.invalidYaml text))
    ("Invalid YAML config: " ++ words.yaml text)
  | unsupportedFormat (path : String) : Told words (.settings (.unsupportedFormat path))
    ("Unsupported config file format: " ++ path ++ " (expected .toml, .yaml or .yml)")
  | invalidValue (key : String) (e : Text.NumeralError) : Told words (.settings (.invalidValue key e))
    ("Invalid value for '" ++ key ++ "': " ++ e.message)
  | whitelist (e : AddressError) : Told words (.settings (.whitelist e))
    ("Invalid whiteListedClusters: " ++ e.message)
  | unreadable (path : String) (e : ReadError) : Told words (.unreadable path e)
    ("Failed to read " ++ path ++ ": " ++ e.message)
  | undecodable (path : String) (e : Json.Error) : Told words (.invalid path e)
    ("Invalid definition " ++ path ++ ": " ++ e.message)

theorem Failure.told_iff {words : DecoderWords} {failure : Failure} {text : String} :
    failure.Told words text ↔ failure.message words = text := by
  constructor
  · rintro ⟨⟩ <;> rfl
  · rintro rfl
    cases failure with
    | settings error => cases error <;> constructor
    | unreadable path error => constructor
    | invalid path error => constructor

/-- The one line of a gate that restricts sources. -/
def restrictionLog (gate : Gate) : List LogLine :=
  if gate.whitelist.endpoints = [] then []
  else [⟨.info, "[SourceValidationGate] Restricting sources to clusters [" ++
    gate.whitelist.render ++ "]"⟩]

theorem flatMap_notices (gate : Gate) :
    gate.notices.flatMap Notice.logLines = restrictionLog gate := by
  by_cases h : gate.whitelist.endpoints = [] <;>
    simp [Gate.notices, restrictionLog, Whitelist.isEmpty, Notice.logLines, h]

/-- What is logged before a definition is read. -/
inductive GateLogs (read : FileReader) (config : Option String) : List LogLine → Prop where
  | unmade {failure : Failure} (h : loadGate read config = .error failure) : GateLogs read config []
  | made {gate : Gate} (loads : loadGate read config = .ok gate) :
    GateLogs read config (restrictionLog gate)

theorem GateLogs.unique {config : Option String} {log log' : List LogLine}
    (h : GateLogs read config log) (h' : GateLogs read config log') : log = log' := by
  cases h with
  | unmade h =>
    cases h' with
    | unmade _ => rfl
    | made loads =>
      rw [h] at loads
      cases loads
  | made loads =>
    cases h' with
    | unmade h =>
      rw [h] at loads
      cases loads
    | made loads' =>
      rw [loads] at loads'
      cases loads'
      rfl

/-! ### Runs -/

/-- The first input that fails is among those of the gate, or the definition, or registered already. -/
theorem FirstFails.reads (h : FirstFails read arguments.inputs failure) :
    loadGate read arguments.config = .error failure ∨
      ∃ gate, loadGate read arguments.config = .ok gate ∧
        (readDefinition read arguments.definition = .error failure ∨
          ∃ d, readDefinition read arguments.definition = .ok d ∧
            FirstFails read (arguments.known.map .definition) failure) := by
  cases h with
  | here _ h => exact Or.inl (loadGate_of_firstFails (.here _ h))
  | later hSettings h =>
    cases h with
    | here _ h => exact Or.inl (loadGate_of_firstFails (.later hSettings (.here _ h)))
    | later hWhitelist h =>
      obtain ⟨gate, hGate⟩ := exists_loadGate hSettings hWhitelist
      refine Or.inr ⟨gate, hGate, ?_⟩
      cases h with
      | here _ h => exact Or.inl (readDefinition_of_fails h)
      | later hDefinition h =>
        obtain ⟨d, hd⟩ := exists_readDefinition hDefinition
        exact Or.inr ⟨d, hd, h⟩

/-- The run stops at the first input that fails. -/
theorem run_of_firstFails (h : FirstFails read arguments.inputs failure) (probe : Settings → Probe) :
    ∃ notices, run read probe arguments = ⟨.failed failure, [], notices⟩ ∧
      GateLogs read arguments.config (notices.flatMap Notice.logLines) := by
  rcases h.reads with hGate | ⟨gate, hGate, hRest⟩
  · exact ⟨[], by simp only [run, hGate], .unmade hGate⟩
  · refine ⟨gate.notices, ?_, flatMap_notices gate ▸ .made hGate⟩
    rcases hRest with hd | ⟨d, hd, hKnown⟩
    · simp only [run, hGate, hd]
    · simp only [run, hGate, hd, readDefinitions_of_firstFails hKnown]

/-- If no input fails, the definition is validated. -/
theorem exists_loaded (h : NoneFails read arguments.inputs) :
    ∃ gate d known, loadGate read arguments.config = .ok gate ∧
      readDefinition read arguments.definition = .ok d ∧
      readDefinitions read arguments.known = .ok known := by
  simp only [NoneFails, Arguments.inputs, List.forall_mem_cons] at h
  obtain ⟨hSettings, hWhitelist, hDefinition, hKnown⟩ := h
  obtain ⟨gate, hGate⟩ := exists_loadGate hSettings hWhitelist
  obtain ⟨d, hd⟩ := exists_readDefinition hDefinition
  obtain ⟨known, hKnown⟩ := exists_readDefinitions hKnown
  exact ⟨gate, d, known, hGate, hd, hKnown⟩

theorem run_of_turnsAway {gate : Gate} {d : Definition} {refusal : Refusal}
    (none : NoneFails read arguments.inputs) (loads : loadGate read arguments.config = .ok gate)
    (reads : readDefinition read arguments.definition = .ok d) (h : gate.TurnsAway d refusal)
    (probe : Settings → Probe) :
    run read probe arguments = ⟨.refused refusal, [], gate.notices ++
      [.started d.name, .registered arguments.known.length, .reported (.rejected d.name refusal)]⟩ := by
  obtain ⟨_, _, known, _, _, hKnown⟩ := exists_loaded none
  obtain ⟨hResult, hContacts, hNotices⟩ := h.validate (probe gate.settings) known
  simp only [run, loads, reads, hKnown, hResult, hContacts, hNotices, length_of_readDefinitions hKnown]

theorem exists_turnsAway_of_silent (none : NoneFails read arguments.inputs)
    (h : (run read probe arguments).contacts = []) :
    ∃ gate d refusal, loadGate read arguments.config = .ok gate ∧
      readDefinition read arguments.definition = .ok d ∧ gate.TurnsAway d refusal := by
  obtain ⟨gate, d, known, loads, reads, hKnown⟩ := exists_loaded none
  have hContacts : (gate.validate (probe gate.settings) d known).contacts = [] := by
    simp only [run, loads, reads, hKnown] at h
    cases hResult : (gate.validate (probe gate.settings) d known).result <;>
      simpa only [hResult] using h
  obtain ⟨refusal, hRefusal⟩ := Gate.exists_turnsAway hContacts
  exact ⟨gate, d, refusal, loads, reads, hRefusal⟩

/-- What is written and with which exit code, told from the inputs. The message stands behind what the
logger writes. -/
inductive Decides (console : Console) (read : FileReader) (arguments : Arguments) : Output → Prop where
  | failed {failure : Failure} {log : List LogLine} {text : String}
    (h : FirstFails read arguments.inputs failure) (logs : GateLogs read arguments.config log)
    (told : failure.Told console.decoders text) :
    Decides console read arguments ⟨1, "", console.log log ++ ("error: " ++ text ++ "\n")⟩
  | refused {gate : Gate} {d : Definition} {refusal : Refusal}
    (none : NoneFails read arguments.inputs) (loads : loadGate read arguments.config = .ok gate)
    (reads : readDefinition read arguments.definition = .ok d) (h : gate.TurnsAway d refusal) :
    Decides console read arguments ⟨2, "",
      console.log (restrictionLog gate ++ [
        ⟨.info, "Initialize datastream " ++ d.name⟩,
        ⟨.debug, "[SourceValidationGate] " ++
          String.ofList (Text.decimal arguments.known.length) ++ " datastreams already registered"⟩,
        ⟨.error, "[SourceValidationGate] " ++ d.name ++ " rejected (" ++ refusal.kind.name ++ "): " ++
          refusal.message⟩]) ++
      (refusal.kind.name ++ ": " ++ refusal.message ++ "\n")⟩

variable {console : Console}

theorem Decides.output_eq {output : Output} (h : Decides console read arguments output)
    (probe : Settings → Probe) : (run read probe arguments).output console = output := by
  cases h with
  | failed h logs told =>
    obtain ⟨notices, hRun, hLogs⟩ := run_of_firstFails h probe
    rw [hRun, logs.unique hLogs, ← Failure.told_iff.mp told]
    rfl
  | refused none loads reads h =>
    rw [run_of_turnsAway none loads reads h, Run.output, Run.log, List.flatMap_append,
      flatMap_notices]
    simp only [List.flatMap_cons, List.flatMap_nil, Notice.logLines, h.logLines]
    rfl

theorem exists_decides (console : Console) (h : (run read probe arguments).contacts = []) :
    ∃ output, Decides console read arguments output := by
  rcases noneFails_or_firstFails read arguments.inputs with none | ⟨failure, h⟩
  · obtain ⟨gate, d, refusal, loads, reads, hRefusal⟩ := exists_turnsAway_of_silent none h
    exact ⟨_, .refused none loads reads hRefusal⟩
  · obtain ⟨_, _, hLogs⟩ := run_of_firstFails h probe
    exact ⟨_, .failed h hLogs (Failure.told_iff.mpr rfl)⟩

theorem loadGate_congr {read' : FileReader} {config : Option String}
    (h : ∀ path, config = some path → read' path = read path) :
    loadGate read' config = loadGate read config := by
  cases config with
  | none => rfl
  | some path => simp only [loadGate, loadSettings, Settings.ofFile, h path rfl]

theorem readDefinition_congr {read' : FileReader} {path : String} (h : read' path = read path) :
    readDefinition read' path = readDefinition read path := by
  rw [readDefinition, readDefinition, h]

/-- With other definitions registered, as long as these can be decoded, the inputs still pass. -/
theorem NoneFails.of_known {read' : FileReader} {known : List String}
    (none : NoneFails read arguments.inputs)
    (hConfig : ∀ path, arguments.config = some path → read' path = read path)
    (hDefinition : read' arguments.definition = read arguments.definition)
    (hKnown : NoneFails read' (known.map .definition)) :
    NoneFails read' { arguments with known := known }.inputs := by
  obtain ⟨gate, d, _, loads, reads, _⟩ := exists_loaded none
  rw [← loadGate_congr hConfig] at loads
  rw [← readDefinition_congr hDefinition] at reads
  rcases noneFails_or_firstFails read' { arguments with known := known }.inputs with
    none | ⟨failure, h⟩
  · exact none
  · rcases h.reads with hGate | ⟨_, _, hd | ⟨_, _, h⟩⟩
    · rw [hGate] at loads
      cases loads
    · rw [hd] at reads
      cases reads
    · exact absurd hKnown h.not_noneFails

/-- A run that shows the probe nothing writes what the first input that fails gives, and else what the
definition is turned away for, which depends neither on the probe nor on what is registered already. Of
the definitions registered already only the number is logged. -/
theorem output_of_silent_run (h : (run read probe arguments).contacts = []) :
    (∀ console output, (run read probe arguments).output console = output ↔
      Decides console read arguments output) ∧
    (NoneFails read arguments.inputs →
      ∀ (read' : FileReader) (probe' : Settings → Probe) (known : List String),
        (∀ path, arguments.config = some path → read' path = read path) →
        read' arguments.definition = read arguments.definition →
        NoneFails read' (known.map .definition) →
        let other := run read' probe' { arguments with known := known }
        other.outcome = (run read probe arguments).outcome ∧ other.contacts = [] ∧
          (known.length = arguments.known.length → other = run read probe arguments)) := by
  constructor
  · intro console output
    constructor
    · intro hOutput
      obtain ⟨output', hDecides⟩ := exists_decides console h
      rwa [← hOutput, hDecides.output_eq probe]
    · intro hDecides
      exact hDecides.output_eq probe
  · intro none read' probe' known hConfig hDefinition hKnown other
    obtain ⟨gate, d, refusal, loads, reads, hRefusal⟩ := exists_turnsAway_of_silent none h
    have hRun := run_of_turnsAway none loads reads hRefusal probe
    -- the other run has the same gate and definition, so it turns the definition away as well
    rw [← loadGate_congr hConfig] at loads
    rw [← readDefinition_congr hDefinition] at reads
    have hOther := run_of_turnsAway (none.of_known hConfig hDefinition hKnown) loads reads hRefusal
      probe'
    rw [hRun, show other = _ from hOther]
    refine ⟨rfl, rfl, fun hLength => ?_⟩
    simp only [hLength]

/-- Settings that list one cluster, settings with a timeout below zero, a definition for another
cluster, and two more definitions, of which one breaks off. -/
def shelf : FileTree := .ofPaths [
  ("c.toml", .file "whiteListedClusters = \"b1:9092\"\n".toUTF8),
  ("below.toml", .file "metadataTimeoutMs = -1\n".toUTF8),
  ("d.json", .file "[\"s\",[\"kafka://b2:9092/orders\"]]".toUTF8),
  ("known.json", .file "[\"t\",[\"\"]]".toUTF8),
  ("cut.json", .file "[\"t\"".toUTF8)]

/-- A logger that writes errors only, each with the time in front, and a decoder that points at the
timeout below zero. -/
def terminal : Console where
  decoders := ⟨fun _ => "TOML parse error at line 1, column 21\n  |\n1 | metadataTimeoutMs = -1\n" ++
    "  |                     ^^\ninvalid value: integer `-1`, expected u64\n", fun _ => ""⟩
  log lines := String.join ((lines.filter (·.level = .error)).map fun line =>
    "[2026-01-01T00:00:00Z ERROR streamgate::core::validation::reporter] " ++ line.text ++ "\n")
  usage _ := ""

/-- The cluster is not listed; with a definition that breaks off among those registered already the run
stops there, and does not come to the file that is not found; and with a timeout below zero it stops
before any definition. -/
theorem output_of_silent_run_shelf :
    let probe : Settings → Probe := fun _ => StaticProbe.empty.toProbe
    let turned : Arguments := ⟨"d.json", some "c.toml", ["known.json"]⟩
    let stopped : Arguments := ⟨"d.json", some "c.toml", ["known.json", "cut.json", "lost.json"]⟩
    let unloaded : Arguments := ⟨"lost.json", some "below.toml", ["cut.json"]⟩
    ((run shelf.read probe turned).contacts = [] ∧ NoneFails shelf.read turned.inputs ∧
      (run shelf.read probe stopped).contacts = [] ∧
      (run shelf.read probe unloaded).contacts = []) ∧
    Decides terminal shelf.read turned ⟨2, "",
      "[2026-01-01T00:00:00Z ERROR streamgate::core::validation::reporter] " ++
        "[SourceValidationGate] s rejected (cluster-not-whitelisted): Kafka connector is not " ++
        "white-listed for the cluster kafka://b2:9092/orders. " ++
        "Current white-listed clusters [b1:9092]\n" ++
      "cluster-not-whitelisted: Kafka connector is not white-listed for the cluster " ++
        "kafka://b2:9092/orders. Current white-listed clusters [b1:9092]\n"⟩ ∧
    (run shelf.read probe { turned with known := [] }).outcome =
      (run shelf.read probe turned).outcome ∧
    Decides terminal shelf.read stopped ⟨1, "", "error: Invalid definition cut.json: " ++
      "EOF while parsing a list at line 1 column 4\n"⟩ ∧
    Decides terminal shelf.read unloaded ⟨1, "", "error: Invalid TOML config: " ++
      "TOML parse error at line 1, column 21\n  |\n1 | metadataTimeoutMs = -1\n" ++
      "  |                     ^^\ninvalid value: integer `-1`, expected u64\n\n"⟩ := by
  intro probe turned stopped unloaded
  let listed : Whitelist := ⟨[⟨"b1", 9092⟩], by decide⟩
  have hGate : loadGate shelf.read (some "c.toml") =
      .ok ⟨⟨some "b1:9092", none, none, 30000, ∅⟩, listed⟩ := by rfl
  have hd : readDefinition shelf.read "d.json" = .ok (.ofSource "s" "kafka://b2:9092/orders") := by
    have hText : shelf.read "d.json" = .ok "[\"s\",[\"kafka://b2:9092/orders\"]]" := rfl
    rw [readDefinition, hText]
    decide +kernel
  have hKnown : readDefinition shelf.read "known.json" = .ok (.ofSource "t" "") := by
    have hText : shelf.read "known.json" = .ok "[\"t\",[\"\"]]" := rfl
    rw [readDefinition, hText]
    decide +kernel
  have hCut : readDefinition shelf.read "cut.json" =
      .error (.invalid "cut.json" ⟨.listEnds, 1, 4⟩) := by
    have hText : shelf.read "cut.json" = .ok "[\"t\"" := rfl
    rw [readDefinition, hText]
    decide +kernel
  have hTurned : run shelf.read probe turned =
      ⟨.refused (.clusterNotWhitelisted "kafka://b2:9092/orders" listed.render), [],
        [.restricted listed, .started "s", .registered 1, .reported (.rejected "s"
          (.clusterNotWhitelisted "kafka://b2:9092/orders" listed.render))]⟩ := by
    simp only [run, turned, hGate, hd, readDefinitions, hKnown]
    rfl
  have hStopped : run shelf.read probe stopped =
      ⟨.failed (.invalid "cut.json" ⟨.listEnds, 1, 4⟩), [], [.restricted listed]⟩ := by
    simp only [run, stopped, hGate, hd, readDefinitions, hKnown, hCut]
    rfl
  have hUnloaded : run shelf.read probe unloaded =
      ⟨.failed (.settings (.invalidToml "metadataTimeoutMs = -1\n")), [], []⟩ := by rfl
  have hNone : NoneFails shelf.read turned.inputs := by
    rcases noneFails_or_firstFails shelf.read turned.inputs with hNone | ⟨failure, h⟩
    · exact hNone
    · obtain ⟨_, hFailed, _⟩ := run_of_firstFails h probe
      rw [hTurned] at hFailed
      cases hFailed
  obtain ⟨hDecides, hSame⟩ := output_of_silent_run (congrArg Run.contacts hTurned)
  obtain ⟨hStops, _⟩ := output_of_silent_run (congrArg Run.contacts hStopped)
  obtain ⟨hFails, _⟩ := output_of_silent_run (congrArg Run.contacts hUnloaded)
  refine ⟨⟨congrArg Run.contacts hTurned, hNone, congrArg Run.contacts hStopped,
    congrArg Run.contacts hUnloaded⟩, ?_, ?_, ?_, ?_⟩
  · apply (hDecides _ _).mp
    rw [hTurned]
    decide +kernel
  · exact (hSame hNone shelf.read probe [] (fun _ _ => rfl) rfl nofun).1
  · apply (hStops _ _).mp
    rw [hStopped]
    decide +kernel
  · apply (hFails _ _).mp
    rw [hUnloaded]
    decide +kernel

end CommandLine

end StreamAdmission
