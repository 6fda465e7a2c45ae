import Sic.Text.Basic

/-!
# Characters of a text

A text read as UTF-8 is a sequence of glyphs: characters where the bytes encode one, and stray bytes
where they do not.  Only shortest encodings count, and surrogates are no characters.

`Text.glyphs` is computed from the right: a continuation byte is stray until a leading byte on its
left takes it up.
-/

set_option autoImplicit false

namespace Sic

/-- A character of a text, or a byte that is part of none. -/
inductive Glyph where
  | char (c : Char)
  | stray (b : UInt8)
deriving DecidableEq, Repr

namespace Text

/-- A byte that can stand inside a character, behind its first byte. -/
def isContinuation (b : UInt8) : Bool := b &&& 0xC0 == 0x80

/-- The payload of a continuation byte. -/
def payload (b : UInt8) : Nat := (b &&& 0x3F).toNat

/-- The character two bytes encode. -/
def char₂? (a b : UInt8) : Option Char :=
  if a &&& 0xE0 == 0xC0 && isContinuation b then
    let v := (a &&& 0x1F).toNat * 64 + payload b
    if 0x80 ≤ v then some (Char.ofNat v) else none
  else none

/-- The character three bytes encode. -/
def char₃? (a b c : UInt8) : Option Char :=
  if a &&& 0xF0 == 0xE0 && isContinuation b && isContinuation c then
    let v := ((a &&& 0x0F).toNat * 64 + payload b) * 64 + payload c
    if 0x800 ≤ v ∧ ¬ (0xD800 ≤ v ∧ v ≤ 0xDFFF) then some (Char.ofNat v) else none
  else none

/-- The character four bytes encode. -/
def char₄? (a b c d : UInt8) : Option Char :=
  if a &&& 0xF8 == 0xF0 && isContinuation b && isContinuation c && isContinuation d then
    let v := (((a &&& 0x07).toNat * 64 + payload b) * 64 + payload c) * 64 + payload d
    if 0x10000 ≤ v ∧ v ≤ 0x10FFFF then some (Char.ofNat v) else none
  else none

/-- Puts a byte before some glyphs, taking up the stray bytes it makes a character with. -/
def absorb (a : UInt8) (gs : List Glyph) : List Glyph :=
  if a < 0x80 then .char (Char.ofNat a.toNat) :: gs
  else
    match gs with
    | .stray b :: gs₂ =>
      match char₂? a b with
      | some c => .char c :: gs₂
      | none =>
        match gs₂ with
        | .stray c :: gs₃ =>
          match char₃? a b c with
          | some c => .char c :: gs₃
          | none =>
            match gs₃ with
            | .stray d :: gs₄ =>
              match char₄? a b c d with
              | some c => .char c :: gs₄
              | none => .stray a :: gs
            | _ => .stray a :: gs
        | _ => .stray a :: gs
    | _ => .stray a :: gs

/-- The glyphs of a text. -/
def glyphs (t : Text) : List Glyph := t.foldr absorb []

/-- Whether a text is valid UTF-8. -/
def isUtf8 (t : Text) : Bool := (glyphs t).all fun g => g matches .char _

/-- The UTF-8 encoding of a character. -/
def ofChar (c : Char) : Text := String.utf8EncodeChar c

/-- The UTF-8 encoding of a string. -/
def ofString (s : String) : Text := s.toList.flatMap ofChar

/-- A name in a column at least `width` characters wide. -/
def column (width : Nat) (t : Text) : Text := padRight width (glyphs t).length t

/-- The upper case of a text, as far as it is ASCII: besides the ASCII letters only two characters,
U+0131 and U+017F, have an ASCII letter as their upper case.  Two texts of which one is ASCII agree
on this exactly if they agree on their Unicode upper case. -/
def upperAscii (t : Text) : Text :=
  (glyphs t).flatMap fun
    | .char c =>
      if c = 'ı' then [0x49] else if c = 'ſ' then [0x53] else (ofChar c).map upper
    | .stray b => [b]

end Text

end Sic
