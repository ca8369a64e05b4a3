import StreamAdmission.Probe.Basic

/-!
# Connections between opening and closing

A session is told by its dialogue: the questions it asks with the answers it gets, where each question
may depend on the answers before it, and each answer on the questions. Whatever session is run, all its
questions stand between one opening and one closing, and its result is passed on; if the connection
cannot be opened the session has no part in what happens.
-/

namespace StreamAdmission

/-- Questions with the answers to them, in order. -/
abbrev Dialogue := List (String × Reply)

def Dialogue.contacts (dialogue : Dialogue) : List Contact :=
  dialogue.map fun exchange => .asked exchange.1

/-- The answers of the dialogue are those of the connection, some topics being asked for before. -/
inductive LiveConnection.Gives (connection : LiveConnection) : List String → Dialogue → Prop where
  | nil (asked : List String) : Gives connection asked []
  | cons {asked : List String} {topic : String} {dialogue : Dialogue}
    (h : Gives connection (asked ++ [topic]) dialogue) :
    Gives connection asked ((topic, connection asked topic) :: dialogue)

namespace Session

variable {α : Type}

/-- The session asks the questions of the dialogue, given its answers, and comes to the result. -/
inductive Follows : Session α → Dialogue → α → Prop where
  | done (result : α) : Follows (.done result) [] result
  | ask {topic : String} {next : Reply → Session α} {reply : Reply} {dialogue : Dialogue}
    {result : α} (h : Follows (next reply) dialogue result) :
    Follows (.ask topic next) ((topic, reply) :: dialogue) result

/-- Every session comes to an end on every connection. -/
theorem exists_dialogue (connection : LiveConnection) (asked : List String) (session : Session α) :
    ∃ dialogue result, connection.Gives asked dialogue ∧ session.Follows dialogue result := by
  induction session generalizing asked with
  | done result => exact ⟨[], result, .nil asked, .done result⟩
  | ask topic next ih =>
    obtain ⟨dialogue, result, hGives, hFollows⟩ := ih (connection asked topic) (asked ++ [topic])
    exact ⟨_, result, .cons hGives, .ask hFollows⟩

/-- The dialogue decides what is asked and what comes of it. -/
theorem converse_of_follows {connection : LiveConnection} {asked : List String}
    {session : Session α} {dialogue : Dialogue} {result : α} (hFollows : session.Follows dialogue result)
    (hGives : connection.Gives asked dialogue) :
    session.converse connection asked = (result, dialogue.contacts) := by
  induction hFollows generalizing asked with
  | done result => rfl
  | ask h ih =>
    cases hGives with
    | cons hGives =>
      rw [converse, ih hGives]
      rfl

end Session

section
variable {α ε : Type}

/-- What a session may come to and what may be seen of it: an attempt to connect that fails, or an
opened connection, the questions of the session, and one closing behind the last of them. -/
inductive Brackets (connect : Address → Except MetadataError LiveConnection) (address : Address)
    (failed : MetadataError → ε) (session : Session (Except ε α)) :
    Except ε α × List Contact → Prop where
  | refused {e : MetadataError} (h : connect address = .error e) :
    Brackets connect address failed session (.error (failed e), [.refused address])
  | served {connection : LiveConnection} {dialogue : Dialogue} {result : Except ε α}
    (h : connect address = .ok connection) (gives : connection.Gives [] dialogue)
    (follows : session.Follows dialogue result) :
    Brackets connect address failed session
      (result, .opened address :: dialogue.contacts ++ [.closed])

theorem Brackets.eq_bracket {connect : Address → Except MetadataError LiveConnection}
    {address : Address} {failed : MetadataError → ε} {session : Session (Except ε α)}
    {outcome : Except ε α × List Contact} (h : Brackets connect address failed session outcome) :
    bracket connect address failed session = outcome := by
  cases h with
  | refused h => rw [bracket, h]
  | served h gives follows =>
    rw [bracket, h]
    simp only [Session.converse_of_follows follows gives]

theorem brackets_bracket (connect : Address → Except MetadataError LiveConnection)
    (address : Address) (failed : MetadataError → ε) (session : Session (Except ε α)) :
    Brackets connect address failed session (bracket connect address failed session) := by
  cases hConnect : connect address with
  | error e =>
    have h : Brackets connect address failed session (.error (failed e), [.refused address]) :=
      .refused hConnect
    rwa [← h.eq_bracket] at h
  | ok connection =>
    obtain ⟨dialogue, result, hGives, hFollows⟩ := session.exists_dialogue connection []
    have h : Brackets connect address failed session
        (result, .opened address :: dialogue.contacts ++ [.closed]) :=
      .served hConnect hGives hFollows
    rwa [← h.eq_bracket] at h

/-- A session on a connection comes to its own result, and is seen as its questions between one opening
and one closing. If the connection cannot be opened this failure is the result and nothing else is seen.
Both hold whether or not the connection answers by what it was asked before. -/
theorem withConnection_brackets (address : Address) (failed : MetadataError → ε)
    (session : Session (Except ε α)) (outcome : Except ε α × List Contact) :
    (∀ connect : Address → Except MetadataError LiveConnection,
      bracket connect address failed session = outcome ↔
        Brackets connect address failed session outcome) ∧
    ∀ probe : Probe, probe.withConnection address failed session = outcome ↔
      Brackets (fun a => (probe.connect a).map .steady) address failed session outcome := by
  have hBracket : ∀ connect : Address → Except MetadataError LiveConnection,
      bracket connect address failed session = outcome ↔
        Brackets connect address failed session outcome := by
    intro connect
    constructor
    · rintro rfl
      exact brackets_bracket connect address failed session
    · exact Brackets.eq_bracket
  exact ⟨hBracket, fun probe => hBracket fun a => (probe.connect a).map .steady⟩

end

end StreamAdmission
