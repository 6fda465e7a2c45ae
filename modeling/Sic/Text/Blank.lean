import Sic.Text.Basic

/-!
# White space

White space is the Unicode property of that name: U+0009 to U+000D, U+0020, U+0085, U+00A0, U+1680,
U+2000 to U+200A, U+2028, U+2029, U+202F, U+205F and U+3000.  In UTF-8 these take one, two or three
bytes, and the first byte of a wide one never occurs inside another character, so they can be found
in any sequence of bytes, valid or not, by looking for their encodings.

`Text.marked` says of every byte of a text whether it belongs to a white-space character.  Fields
and trimming are stated on that marking.
-/

set_option autoImplicit false

namespace Sic

namespace Text

/-- The ASCII white space: tab, line feed, vertical tab, form feed, carriage return and space. -/
def isAsciiBlank (b : UInt8) : Bool := b == 0x20 || (0x09 ≤ b && b ≤ 0x0D)

/-- The two bytes of U+0085 or U+00A0. -/
def isBlank₂ (a b : UInt8) : Bool := a == 0xC2 && (b == 0x85 || b == 0xA0)

/-- The three bytes of U+1680, U+2000 to U+200A, U+2028, U+2029, U+202F, U+205F or U+3000. -/
def isBlank₃ (a b c : UInt8) : Bool :=
  (a == 0xE1 && b == 0x9A && c == 0x80) ||
  (a == 0xE2 && b == 0x80 && ((0x80 ≤ c && c ≤ 0x8A) || c == 0xA8 || c == 0xA9 || c == 0xAF)) ||
  (a == 0xE2 && b == 0x81 && c == 0x9F) ||
  (a == 0xE3 && b == 0x80 && c == 0x80)

/-- Puts a byte before a marked text, marking it and what follows it if they make a white-space
character. -/
def mark (a : UInt8) : List (UInt8 × Bool) → List (UInt8 × Bool)
  | [] => [(a, isAsciiBlank a)]
  | (b, x) :: t =>
    if isBlank₂ a b then (a, true) :: (b, true) :: t
    else
      match t with
      | [] => [(a, isAsciiBlank a), (b, x)]
      | (c, y) :: t =>
        if isBlank₃ a b c then (a, true) :: (b, true) :: (c, true) :: t
        else (a, isAsciiBlank a) :: (b, x) :: (c, y) :: t

/-- Each byte with whether it belongs to a white-space character. -/
def marked (t : Text) : List (UInt8 × Bool) := t.foldr mark []

/-- The bytes of a marked text. -/
def unmarked (m : List (UInt8 × Bool)) : Text := m.map Prod.fst

/-- The fields of a text: its maximal runs without white space. -/
def fields (t : Text) : List Text :=
  ((marked t).splitOnP Prod.snd).filterMap fun m => if m.isEmpty then none else some (unmarked m)

/-- A text without the white space at its two ends. -/
def trim (t : Text) : Text :=
  unmarked (((marked t).dropWhile Prod.snd).reverse.dropWhile Prod.snd).reverse

/-- A text that holds nothing but white space. -/
def isBlank (t : Text) : Bool := (marked t).all Prod.snd

/-- A text without the spaces at its end. -/
def dropSpacesRight (t : Text) : Text := (t.reverse.dropWhile (· == 0x20)).reverse

end Text

end Sic
