import Mathlib.Data.List.Induction
import StreamAdmission.Proofs.Gate.Run

/-!
# Histories of static probes

What a static probe has been set to, setting after setting. A clone starts with the history of its
original. Of the failures only the last one counts.
-/

namespace StreamAdmission

/-- A setting made on a static probe. -/
inductive Setting where
  | topic (name : String) (partitions : UInt32)
  | unreachable (message : String)
  | failingFetch (message : String)

namespace Setting

def isFailure : Setting → Bool
  | topic .. => false
  | unreachable _ => true
  | failingFetch _ => true

def apply (p : StaticProbe) : Setting → StaticProbe
  | topic name partitions => p.withTopic name partitions
  | unreachable message => p.unreachable message
  | failingFetch message => p.failingFetch message

def lastFailure? (history : List Setting) : Option Setting := (history.filter isFailure).getLast?

/-- The last failure makes every attempt to connect fail. -/
def IsUnreachable (history : List Setting) : Prop :=
  ∃ message, lastFailure? history = some (.unreachable message)

def settled (history : List Setting) : StaticProbe := history.foldl apply .empty

theorem settled_append_singleton (history : List Setting) (setting : Setting) :
    settled (history ++ [setting]) = setting.apply (settled history) := by
  rw [settled, List.foldl_append]
  rfl

theorem lastFailure?_append_singleton (history : List Setting) (setting : Setting) :
    lastFailure? (history ++ [setting]) =
      if setting.isFailure then some setting else lastFailure? history := by
  rw [lastFailure?, List.filter_append, List.filter_singleton]
  cases setting.isFailure with
  | true => exact List.getLast?_concat
  | false => exact congrArg List.getLast? (List.append_nil _)

theorem failsOpening_settled_iff {history : List Setting} :
    (settled history).FailsOpening ↔ IsUnreachable history := by
  induction history using List.reverseRecOn with
  | nil => exact iff_of_false nofun nofun
  | append_singleton history setting ih =>
    rw [settled_append_singleton, IsUnreachable, lastFailure?_append_singleton]
    cases setting with
    | topic name partitions => exact ih
    | unreachable message => exact iff_of_true ⟨message, rfl⟩ ⟨message, rfl⟩
    | failingFetch message =>
      refine iff_of_false nofun ?_
      rintro ⟨other, h⟩
      cases h

/-- Connecting fails exactly if the failure that was set last says so. -/
theorem connect_settled_eq_error_iff {history : List Setting} {a : Address} :
    (∃ e, (settled history).connect a = .error e) ↔ IsUnreachable history :=
  StaticProbe.connect_eq_error_iff.trans failsOpening_settled_iff

instance (history : List Setting) : Decidable (IsUnreachable history) :=
  match h : lastFailure? history with
  | some (.unreachable message) => .isTrue ⟨message, h⟩
  | some (.topic ..) => .isFalse fun ⟨_, h'⟩ => by rw [h] at h'; cases h'
  | some (.failingFetch _) => .isFalse fun ⟨_, h'⟩ => by rw [h] at h'; cases h'
  | none => .isFalse fun ⟨_, h'⟩ => by rw [h] at h'; cases h'

end Setting

end StreamAdmission
