/-!
# Topic patterns

A topic is a pattern if one of `*`, `?` and `.` stands in it, after its first character, and no
backslash stands right before. Each of the three is looked for on its own.
-/

namespace StreamAdmission.Topic

def specials : List Char := ['*', '?', '.']

def escape : Char := '\\'

/-- Looks for a special character up to its first place without an escape, given the character
before the text. -/
def standsFree (special : Char) : Char → List Char → Bool
  | _, [] => false
  | before, c :: rest =>
    if c = special ∧ before ≠ escape then true else standsFree special c rest

def hasWildcard (topic : String) : Bool :=
  match topic.toList with
  | [] => false
  | first :: rest => specials.any fun special => standsFree special first rest

end StreamAdmission.Topic
