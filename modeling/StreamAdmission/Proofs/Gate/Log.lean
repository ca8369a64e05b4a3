import StreamAdmission.Proofs.Gate.Reports

/-!
# The log of a validation

With the standard reporter a validation logs its start, the number of the streams registered already,
the partition count if none was declared, and then nothing, one line for a refusal, or for a fault one
line and one more for each error behind it.
-/

namespace StreamAdmission

namespace Origin

end Origin

/-- What the standard reporter and the gate itself log of a validation. -/
def Verdict.log (verdict : Verdict) : List LogLine := verdict.notices.flatMap Notice.logLines

namespace Gate

section
variable {gate : Gate} {probe : Probe} {d : Definition}

theorem Cleared.unique {a a' : Address} (h : Cleared gate d a) (h' : Cleared gate d a') : a = a' :=
  Except.ok.inj (h.reads.symm.trans h'.reads)

end

end Gate

end StreamAdmission
