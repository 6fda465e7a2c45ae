import Sic.Text.Number

/-!
# Lists of errors

Several errors found in one go are reported together: how many there are, and each as an item of a
list.
-/

set_option autoImplicit false

namespace Sic

/-- How many errors there are, in words. -/
def errorCount (n : Nat) : Text :=
  if n = 1 then "1 error occurred:" else Text.decimalNat n ++ " errors occurred:"

/-- An error as an item of a list. -/
def errorItem (message : Text) : Text := "\n\t* " ++ message

/-- The wording of errors found together. -/
def errorList (messages : List Text) : Text :=
  errorCount messages.length ++ messages.flatMap errorItem ++ "\n\n"

end Sic
