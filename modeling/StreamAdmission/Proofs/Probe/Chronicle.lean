import StreamAdmission.Proofs.Probe.History

/-!
# Chronicles of a bench

What was done on a bench, told without counters: the history of each probe, how often each connection
was closed, and which sessions got a connection. The probes, the connections and the counters of the
bench can be read off its chronicle.
-/

namespace StreamAdmission

/-! ### Modified lists -/

section
variable {α β : Type}

theorem map_modify {f : α → α} {f' : β → β} {g : α → β}
    (h : ∀ a, g (f a) = f' (g a)) (l : List α) (i : Nat) :
    (l.modify i f).map g = (l.map g).modify i f' := by
  refine List.ext_getElem? fun j => ?_
  rw [List.getElem?_map, List.getElem?_modify, List.getElem?_modify, List.getElem?_map]
  cases l[j]? with
  | none => rfl
  | some a =>
    simp only [Option.map_eq_map, Option.map_some]
    split
    · rw [h]
    · rfl

theorem modify_eq_self_of {f : α → α} {l : List α} {i : Nat} {a : α}
    (h : l[i]? = some a) (hf : f a = a) : l.modify i f = l := by
  refine List.ext_getElem? fun j => ?_
  rw [List.getElem?_modify]
  by_cases hj : i = j
  · rw [← hj, h]
    simp [hf]
  · simp [hj]

theorem forall_mem_modify {P : α → Prop} {f : α → α} {l : List α} (i : Nat)
    (h : ∀ a ∈ l, P a) (hf : ∀ a, P a → P (f a)) : ∀ a ∈ l.modify i f, P a := by
  intro a ha
  obtain ⟨j, hj⟩ := List.mem_iff_getElem?.mp ha
  rw [List.getElem?_modify] at hj
  obtain ⟨b, hb, rfl⟩ := Option.map_eq_some_iff.mp hj
  have hPb := h b (List.mem_of_getElem? hb)
  split
  · exact hf b hPb
  · exact hPb

theorem countP_modify (p : α → Bool) (f : α → α) {l : List α} {i : Nat} {a : α}
    (h : l[i]? = some a) :
    (l.modify i f).countP p + (if p a then 1 else 0) =
      l.countP p + if p (f a) then 1 else 0 := by
  obtain ⟨hi, _⟩ := List.getElem?_eq_some_iff.mp h
  obtain ⟨front, b, back, rfl, rfl, hModify⟩ := List.exists_of_modify f hi
  obtain rfl : b = a := by simpa using h
  rw [hModify]
  simp only [List.countP_append, List.countP_cons]
  omega

end

/-! ### Chronicles -/

/-- A connection: the history of its probe when it was opened, and how often it has been closed. -/
structure Opened where
  history : List Setting
  family : Nat
  closings : Nat

/-- The probes with their own histories and their families, the number of families, the connections in
the order in which they were opened, and the families of the sessions that got a connection. -/
structure Chronicle where
  probes : List (List Setting × Nat)
  families : Nat
  connections : List Opened
  sessions : List Nat

namespace Chronicle

def start : Chronicle := ⟨[([], 0)], 1, [], []⟩

/-- Adds a setting to the history of a probe. -/
def set (c : Chronicle) (number : Nat) (setting : Setting) : Chronicle :=
  { c with
    probes := c.probes.modify number fun (history, family) => (history ++ [setting], family) }

/-- Closes a connection, perhaps once more. -/
def close (c : Chronicle) (number : Nat) : Chronicle :=
  { c with connections := c.connections.modify number fun k => { k with closings := k.closings + 1 } }

def step (c : Chronicle) : BenchStep → Chronicle
  | .withTopic number topic partitions => c.set number (.topic topic partitions)
  | .unreachable number message => c.set number (.unreachable message)
  | .failingFetch number message => c.set number (.failingFetch message)
  | .clone number => { c with probes := c.probes ++ c.probes[number]?.toList }
  | .create => { c with probes := c.probes ++ [([], c.families)], families := c.families + 1 }
  | .connect number _ =>
    match c.probes[number]? with
    | none => c
    | some (history, family) =>
      if Setting.IsUnreachable history then c
      else { c with connections := c.connections ++ [⟨history, family, 0⟩] }
  | .ask .. => c
  | .close number => c.close number
  | .session number _ _ =>
    match c.probes[number]? with
    | none => c
    | some (history, family) =>
      if Setting.IsUnreachable history then c else { c with sessions := c.sessions ++ [family] }

def run (c : Chronicle) (steps : List BenchStep) : Chronicle := steps.foldl step c

/-- The number of connections that were opened on the probes of a family, those of sessions
included. -/
def opens (c : Chronicle) (family : Nat) : Nat :=
  c.connections.countP (fun k => k.family = family) + c.sessions.count family

/-- The number of connections that were closed at least once. A session leaves its connection
closed. -/
def closedOnce (c : Chronicle) (family : Nat) : Nat :=
  c.connections.countP (fun k => k.family = family ∧ 0 < k.closings) + c.sessions.count family

/-- The number of connections that were never closed. -/
def stillOpen (c : Chronicle) (family : Nat) : Nat :=
  c.connections.countP fun k => k.family = family ∧ k.closings = 0

def counters (c : Chronicle) (family : Nat) : Counters := ⟨c.opens family, c.closedOnce family⟩

def bench (c : Chronicle) : Bench where
  probes := c.probes.map fun (history, family) => (Setting.settled history, family)
  connections := c.connections.map fun k => ⟨Setting.settled k.history, k.family, k.closings = 0⟩
  counters := (List.range c.families).map c.counters

theorem opens_eq_closedOnce_add_stillOpen (c : Chronicle) (family : Nat) :
    c.opens family = c.closedOnce family + c.stillOpen family := by
  have hSplit : c.connections.countP (fun k => k.family = family) =
      c.connections.countP (fun k => k.family = family ∧ 0 < k.closings) +
        c.connections.countP (fun k => k.family = family ∧ k.closings = 0) := by
    induction c.connections with
    | nil => rfl
    | cons k rest ih =>
      simp only [List.countP_cons, ih]
      rcases Nat.eq_zero_or_pos k.closings with hOpen | hClosed
      · by_cases hFamily : k.family = family <;> simp [hFamily, hOpen, Nat.add_assoc]
      · by_cases hFamily : k.family = family
        · simp [hFamily, hClosed, hClosed.ne']
          omega
        · simp [hFamily]
  rw [opens, closedOnce, stillOpen, hSplit]
  omega

/-! ### What a step changes -/

theorem step_connect {c : Chronicle} {number : Nat} {history : List Setting} {family : Nat}
    (hProbe : c.probes[number]? = some (history, family)) (h : ¬ Setting.IsUnreachable history)
    (a : Address) :
    c.step (.connect number a) =
      { c with connections := c.connections ++ [⟨history, family, 0⟩] } := by
  simp only [step, hProbe, if_neg h]

theorem step_session {c : Chronicle} {number : Nat} {history : List Setting} {family : Nat}
    (hProbe : c.probes[number]? = some (history, family)) (h : ¬ Setting.IsUnreachable history)
    (a : Address) (session : Session (Except MetadataError (List (Option UInt32)))) :
    c.step (.session number a session) = { c with sessions := c.sessions ++ [family] } := by
  simp only [step, hProbe, if_neg h]

theorem opens_connect (c : Chronicle) (k : Opened) (family : Nat) :
    ({ c with connections := c.connections ++ [k] } : Chronicle).opens family =
      c.opens family + if k.family = family then 1 else 0 := by
  simp only [opens, List.countP_append, List.countP_singleton, decide_eq_true_eq]
  omega

theorem closedOnce_connect (c : Chronicle) {k : Opened} (h : k.closings = 0) (family : Nat) :
    ({ c with connections := c.connections ++ [k] } : Chronicle).closedOnce family =
      c.closedOnce family := by
  simp [closedOnce, List.countP_append, h]

theorem opens_session (c : Chronicle) (family other : Nat) :
    ({ c with sessions := c.sessions ++ [family] } : Chronicle).opens other =
      c.opens other + if family = other then 1 else 0 := by
  simp only [opens, List.count_append, List.count_singleton, beq_iff_eq, Nat.add_assoc]

theorem closedOnce_session (c : Chronicle) (family other : Nat) :
    ({ c with sessions := c.sessions ++ [family] } : Chronicle).closedOnce other =
      c.closedOnce other + if family = other then 1 else 0 := by
  simp only [closedOnce, List.count_append, List.count_singleton, beq_iff_eq, Nat.add_assoc]

theorem opens_close (c : Chronicle) (number family : Nat) :
    (c.close number).opens family = c.opens family := by
  cases h : c.connections[number]? with
  | none => rw [close, List.modify_eq_self (List.getElem?_eq_none_iff.mp h)]
  | some k =>
    have hCount := countP_modify (fun k => decide (k.family = family))
      (fun k : Opened => { k with closings := k.closings + 1 }) h
    dsimp only at hCount
    simp only [opens, close]
    omega

/-- Only the first closing of a connection counts. -/
theorem closedOnce_close {c : Chronicle} {number : Nat} {k : Opened}
    (h : c.connections[number]? = some k) (family : Nat) :
    (c.close number).closedOnce family =
      c.closedOnce family + if k.family = family ∧ k.closings = 0 then 1 else 0 := by
  have hCount := countP_modify (fun k => decide (k.family = family ∧ 0 < k.closings))
    (fun k : Opened => { k with closings := k.closings + 1 }) h
  simp only [closedOnce, close]
  by_cases hFamily : k.family = family <;> by_cases hOpen : k.closings = 0 <;>
    simp [hFamily, hOpen, Nat.pos_iff_ne_zero] at hCount ⊢ <;> omega

/-! ### Well-formed chronicles -/

/-- Only families that exist occur. -/
structure WellFormed (c : Chronicle) : Prop where
  probes : ∀ p ∈ c.probes, p.2 < c.families
  connections : ∀ k ∈ c.connections, k.family < c.families
  sessions : ∀ family ∈ c.sessions, family < c.families

theorem wellFormed_start : start.WellFormed where
  probes := by simp [start]
  connections := by simp [start]
  sessions := by simp [start]

theorem WellFormed.set {c : Chronicle} (h : c.WellFormed) (number : Nat) (setting : Setting) :
    (c.set number setting).WellFormed :=
  ⟨forall_mem_modify number h.probes fun _ hp => hp, h.connections, h.sessions⟩

theorem WellFormed.step {c : Chronicle} (h : c.WellFormed) (s : BenchStep) :
    (c.step s).WellFormed := by
  cases s with
  | withTopic number topic partitions => exact h.set number _
  | unreachable number message => exact h.set number _
  | failingFetch number message => exact h.set number _
  | clone number =>
    refine ⟨List.forall_mem_append.mpr ⟨h.probes, fun p hp => ?_⟩, h.connections, h.sessions⟩
    exact h.probes p (List.mem_of_getElem? (Option.mem_toList.mp hp))
  | create =>
    have hNew : c.families < c.families + 1 := Nat.lt_succ_self _
    refine ⟨List.forall_mem_append.mpr ⟨fun p hp => ?_, List.forall_mem_singleton.mpr hNew⟩,
      fun k hk => ?_, fun family hf => ?_⟩
    · exact Nat.lt_succ_of_lt (h.probes p hp)
    · exact Nat.lt_succ_of_lt (h.connections k hk)
    · exact Nat.lt_succ_of_lt (h.sessions family hf)
  | connect number a =>
    rw [Chronicle.step]
    split
    · exact h
    rename_i history family hProbe
    split
    · exact h
    have hFamily : family < c.families := h.probes _ (List.mem_of_getElem? hProbe)
    exact ⟨h.probes, List.forall_mem_append.mpr ⟨h.connections,
      List.forall_mem_singleton.mpr hFamily⟩, h.sessions⟩
  | ask number topic => exact h
  | close number =>
    exact ⟨h.probes, forall_mem_modify number h.connections fun _ hk => hk, h.sessions⟩
  | session number a session =>
    rw [Chronicle.step]
    split
    · exact h
    rename_i history family hProbe
    split
    · exact h
    have hFamily : family < c.families := h.probes _ (List.mem_of_getElem? hProbe)
    exact ⟨h.probes, h.connections, List.forall_mem_append.mpr ⟨h.sessions,
      List.forall_mem_singleton.mpr hFamily⟩⟩

/-- Nothing is counted in a family that does not exist yet. -/
theorem WellFormed.counters_new {c : Chronicle} (h : c.WellFormed) :
    c.counters c.families = ⟨0, 0⟩ := by
  have hOpens : c.opens c.families = 0 := by
    rw [opens, Nat.add_eq_zero_iff, List.countP_eq_zero, List.count_eq_zero]
    refine ⟨fun k hk => ?_, fun hf => Nat.lt_irrefl _ (h.sessions _ hf)⟩
    rw [decide_eq_true_eq]
    exact (h.connections k hk).ne
  have hSplit := c.opens_eq_closedOnce_add_stillOpen c.families
  have hClosed : c.closedOnce c.families = 0 := by omega
  rw [counters, hOpens, hClosed]

end Chronicle

end StreamAdmission
