import Steward.Text.Search

/-!
# Secrets

A text that is shown as a fixed mark wherever it would be printed, and that is blotted out of the
output of programs that were given it.
-/

namespace Steward

/-- A text that is not to be shown. -/
structure Secret where
  value : String
deriving DecidableEq

namespace Secret

/-- What is shown in place of a secret. -/
def mark : String := "***"

instance : ToString Secret := ⟨fun _ => mark⟩

instance : Repr Secret := ⟨fun _ _ => "Secret(" ++ mark ++ ")"⟩

/-- Whether there is nothing to keep secret. -/
def isEmpty (s : Secret) : Bool := s.value.isEmpty

/-- A text with the occurrences of the secret, taken from the left and without overlap, turned into
the mark. -/
def redact (s : Secret) (text : String) : String :=
  String.ofList (Text.replaceAll s.value.toList mark.toList text.toList)

end Secret

end Steward
