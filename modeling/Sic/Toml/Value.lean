import Sic.Text.Glyph

/-!
# TOML documents

A document is a sequence of items: a key with its value, or the head of a table or of the next table
in an array of tables.  Of numbers with a fraction and of dates only the kind is kept, since no
setting holds one.
-/

set_option autoImplicit false

namespace Sic

namespace Toml

/-- The parts of a dotted key. -/
abbrev Key := List Text

/-- A value as it is written. -/
inductive Value where
  | string (t : Text)
  | integer (n : Int)
  | float
  | boolean (b : Bool)
  | moment
  | array (items : List Value)
  | table (entries : List (Key × Value))

/-- Whether a value is an array. -/
def Value.isArray : Value → Bool
  | .array _ => true
  | _ => false

/-- An item of a document. -/
inductive Item where
  | pair (key : Key) (value : Value)
  | table (key : Key)
  | arrayTable (key : Key)

end Toml

end Sic
