import Sic.Report.Document

/-!
# Documents in JSON

Every field and every item of a list stands on a line of its own, two spaces further in than what it
belongs to.  Besides what JSON asks for, the characters `<`, `>` and `&` and the two Unicode line
separators are escaped; a byte that is part of no character becomes U+FFFD.
-/

set_option autoImplicit false

namespace Sic

namespace Report

namespace Json

/-- A character inside a string. -/
def escapeChar (c : Char) : Text :=
  if c.toNat = 0x22 || c.toNat = 0x5C then [0x5C, Text.byte c]
  else if c = '\n' then "\\n"
  else if c = '\r' then "\\r"
  else if c = '\t' then "\\t"
  else if c.toNat < 0x20 || c = '<' || c = '>' || c = '&' || c.toNat = 0x2028 || c.toNat = 0x2029
  then "\\u" ++ Text.hexLower 4 c.toNat
  else Text.ofChar c

/-- A glyph inside a string. -/
def escapeGlyph : Glyph → Text
  | .char c => escapeChar c
  | .stray _ => "\\ufffd"

/-- A text as a string. -/
def string (t : Text) : Text := 0x22 :: (Text.glyphs t).flatMap escapeGlyph ++ [0x22]

/-- A new line, some spaces in. -/
def newLine (depth : Nat) : Text := 0x0A :: List.replicate (2 * depth) 0x20

mutual

/-- A part of a document whose own lines begin at a depth. -/
def render (depth : Nat) : Node → Text
  | .text t => string t
  | .list [] => "[]"
  | .list items => 0x5B :: renderItems (depth + 1) true items ++ newLine depth ++ [0x5D]
  | .fields [] => [0x7B, 0x7D]
  | .fields entries => 0x7B :: renderFields (depth + 1) true entries ++ newLine depth ++ [0x7D]

/-- The items of a list, each on its line; `first` tells whether none stands before them. -/
def renderItems (depth : Nat) (first : Bool) : List Node → Text
  | [] => []
  | n :: rest =>
    (if first then [] else [0x2C]) ++ newLine depth ++ render depth n ++
      renderItems depth false rest

/-- The fields of a record, each on its line. -/
def renderFields (depth : Nat) (first : Bool) : List (Text × Node) → Text
  | [] => []
  | (name, n) :: rest =>
    (if first then [] else [0x2C]) ++ newLine depth ++ string name ++ [0x3A, 0x20] ++
      render depth n ++ renderFields depth false rest

end

/-- A document as a text. -/
def text (n : Node) : Text := render 0 n ++ [0x0A]

end Json

end Report

end Sic
