import Sic.Text.Glyph
import Sic.Text.Hex
import Sic.Text.Printable

/-!
# Quoted texts

Messages quote the words they speak of.  Between double quotes a printable character stands for
itself; the quote and the backslash are escaped by a backslash, the usual control characters have
their letters, and every other character is given by its code, as is every byte that is part of no
character.
-/

set_option autoImplicit false

namespace Sic

namespace Text

/-- A character between quotes of the kind `quote`. -/
def escapeChar (quote : UInt8) (c : Char) : Text :=
  if c.toNat = quote.toNat || c.toNat = 0x5C then [0x5C, byte c]
  else if isPrintable c then ofChar c
  else if c = '\x07' then "\\a"
  else if c = '\x08' then "\\b"
  else if c = '\x0c' then "\\f"
  else if c = '\n' then "\\n"
  else if c = '\r' then "\\r"
  else if c = '\t' then "\\t"
  else if c = '\x0b' then "\\v"
  else if c.toNat < 0x80 then "\\x" ++ hexLower 2 c.toNat
  else if c.toNat < 0x10000 then "\\u" ++ hexLower 4 c.toNat
  else "\\U" ++ hexLower 8 c.toNat

/-- A glyph between quotes of the kind `quote`. -/
def escapeGlyph (quote : UInt8) : Glyph → Text
  | .char c => escapeChar quote c
  | .stray b => "\\x" ++ hexLower 2 b.toNat

/-- A text in double quotes. -/
def quoted (t : Text) : Text :=
  0x22 :: (glyphs t).flatMap (escapeGlyph 0x22) ++ [0x22]

/-- A character in single quotes. -/
def quotedChar (c : Char) : Text := 0x27 :: escapeChar 0x27 c ++ [0x27]

/-- Whether a text can stand between backquotes: it is valid UTF-8 with no control character but the
tab, no backquote and no byte order mark. -/
def fitsBackquotes (t : Text) : Bool :=
  (glyphs t).all fun
    | .char c =>
      c.toNat ≠ 0x60 && c.toNat ≠ 0x7F && c.toNat ≠ 0xFEFF && (0x20 ≤ c.toNat || c = '\t')
    | .stray _ => false

/-- A text in backquotes or, if it does not fit there, in double quotes. -/
def backquoted (t : Text) : Text :=
  if fitsBackquotes t then 0x60 :: t ++ [0x60] else quoted t

/-- A code point by number, followed by the character itself if that is printable. -/
def codePoint (c : Char) : Text :=
  "U+" ++ (hexNat c.toNat).leftpad 4 0x30 ++
    if isPrintable c then " '" ++ ofChar c ++ "'" else []

end Text

/-- What is wrong with a hexadecimal text, in words.  The offending byte is shown as the code point
of the same number. -/
def HexFault.message : HexFault → Text
  | .badByte b => "encoding/hex: invalid byte: " ++ Text.codePoint (Char.ofNat b.toNat)
  | .oddLength => "encoding/hex: odd length hex string"

end Sic
