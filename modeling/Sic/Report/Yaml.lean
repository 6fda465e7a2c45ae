import Sic.Report.Document
import Sic.Text.Moment
import Sic.Text.Scientific

/-!
# Documents in YAML

Documents are written in block style, two spaces further in for every level.  A text is written
plainly where that reads back as the same text, and otherwise

* in double quotes, if it would read as a number, a date, a truth value or nothing at all, or holds
  a character that cannot stand in YAML as it is;
* in single quotes, if some character in it would be taken for punctuation;
* in base 64, if it is not valid UTF-8.
-/

set_option autoImplicit false

namespace Sic

namespace Report

namespace Yaml

/-! ## What a plain text would be taken for -/

/-- The words for truth values, nothing and the special numbers. -/
def words : List String :=
  ["", "y", "Y", "yes", "Yes", "YES", "on", "On", "ON", "n", "N", "no", "No", "NO", "off", "Off",
    "OFF", "true", "True", "TRUE", "false", "False", "FALSE", "~", "null", "Null", "NULL",
    ".nan", ".NaN", ".NAN", ".inf", ".Inf", ".INF", "+.inf", "+.Inf", "+.INF", "-.inf", "-.Inf",
    "-.INF"]

/-- One of the words. -/
def isWord (t : Text) : Bool := words.any fun w => Text.ofAscii w == t

/-- A text without its underscores. -/
def dropUnderscores (t : Text) : Text := t.filter (· != 0x5F)

/-- A number that begins with a point. -/
def isFraction (t : Text) : Bool :=
  Text.numberUnderscoresOk t && Text.isFloat64 (dropUnderscores t)

/-- A sign and digits behind the base they are written in. -/
def isSignedBased : Text → Bool
  | 0x30 :: 0x62 :: t => fits 2 t
  | 0x30 :: 0x6F :: t => fits 8 t
  | _ => false
where
  /-- Digits of a signed 64-bit number. -/
  fits (base : Nat) (t : Text) : Bool :=
    match Text.intOfDigits? base t with
    | some n => -0x8000000000000000 ≤ n && n < 0x8000000000000000
    | none => false

/-- An integer of 64 bits, with or without a sign. -/
def isInteger (t : Text) : Bool :=
  (Text.int64? t matches .ok _) || (Text.nat64? t matches .ok _) || isSignedBased t

/-- A date, which may be followed by a time of day. -/
def isMoment (t : Text) : Bool :=
  match Text.date? false t with
  | some [] => true
  | some (0x54 :: t) => hasZone t
  | some (0x74 :: t) => hasZone t
  | some (0x20 :: t) => Text.time? false t == some []
  | _ => false
where
  /-- A time of day and its zone. -/
  hasZone (t : Text) : Bool := (Text.time? false t).bind Text.zone? == some []

/-- Minutes and seconds, or further fields of base 60, and a fraction. -/
def isSexagesimalTail : Nat → Text → Bool
  | 0, _ => false
  | bound + 1, t =>
    match t with
    | 0x3A :: t =>
      match t.takeWhile Text.isDigit with
      | [_] => afterField bound (t.dropWhile Text.isDigit)
      | [a, _] => a ≤ 0x35 && afterField bound (t.dropWhile Text.isDigit)
      | _ => false
    | _ => false
where
  /-- What may follow a field. -/
  afterField (bound : Nat) : Text → Bool
    | [] => true
    | 0x2E :: t => t.all fun b => Text.isDigit b || b == 0x5F
    | t => isSexagesimalTail bound t

/-- A number of base 60. -/
def isSexagesimal (t : Text) : Bool :=
  match (Text.splitSign t).2 with
  | b :: t =>
    Text.isDigit b &&
      isSexagesimalTail t.length (t.dropWhile fun b => Text.isDigit b || b == 0x5F)
  | [] => false

/-- Whether a plain text would be taken for something else. -/
def isAmbiguous (t : Text) : Bool :=
  isWord t ||
    match t with
    | [] => true
    | b :: _ =>
      if b == 0x2E then isFraction t
      else if Text.isDigit b || b == 0x2B || b == 0x2D then
        isMoment t || isInteger (dropUnderscores t) || Text.isFloat64 (dropUnderscores t) ||
          isSexagesimal t
      else false

/-! ## Punctuation -/

/-- A character that can stand in a document as it is. -/
def isPlainChar (c : Char) : Bool :=
  (0x20 ≤ c.toNat && c.toNat ≤ 0x7E) ||
    (0xA0 ≤ c.toNat && c.toNat ≤ 0xFFFD && c.toNat ≠ 0xFEFF)

/-- The punctuation that no plain text begins with. -/
def openers : Text := "#,[]\x7b\x7d&*!|>'\x22%@\x60"

/-- A space, or the end of a text. -/
def atGap : Text → Bool
  | [] => true
  | b :: _ => b == 0x20

/-- Whether a text holds a colon before a gap, or a number sign behind one. -/
def hasMark : Text → Bool
  | [] => false
  | b :: t => (b == 0x3A && atGap t) || (b == 0x20 && t.head? == some 0x23) || hasMark t

/-- Whether some character of a text would be taken for punctuation. -/
def isPunctuated (t : Text) : Bool :=
  match t with
  | [] => false
  | b :: rest =>
    openers.contains b || Text.ofAscii "---" <+: t || Text.ofAscii "..." <+: t ||
      ((b == 0x2D || b == 0x3F) && atGap rest) || hasMark t || b == 0x20 ||
      t.getLast? == some 0x20

/-! ## Texts -/

/-- The escape of a character. -/
def escape (c : Char) : Text :=
  match c.toNat with
  | 0x00 => "\\0"
  | 0x07 => "\\a"
  | 0x08 => "\\b"
  | 0x09 => "\\t"
  | 0x0A => "\\n"
  | 0x0B => "\\v"
  | 0x0C => "\\f"
  | 0x0D => "\\r"
  | 0x1B => "\\e"
  | 0x22 => "\\\""
  | 0x5C => "\\\\"
  | 0x85 => "\\N"
  | 0xA0 => "\\_"
  | 0x2028 => "\\L"
  | 0x2029 => "\\P"
  | n =>
    if n ≤ 0xFF then "\\x" ++ Text.hex 2 n
    else if n ≤ 0xFFFF then "\\u" ++ Text.hex 4 n
    else "\\U" ++ Text.hex 8 n

/-- The byte order mark. -/
def orderMark : Char := Char.ofNat 0xFEFF

/-- A glyph in double quotes, where it may be that all characters are to be escaped. -/
def escapeGlyph (all : Bool) : Glyph → Text
  | .char c =>
    if all || c.toNat = 0x22 || c.toNat = 0x5C || !isPlainChar c then escape c else Text.ofChar c
  | .stray b => [b]

/-- A text in double quotes.  Behind a byte order mark at its beginning all characters are
escaped. -/
def doubleQuoted (t : Text) : Text :=
  let glyphs := Text.glyphs t
  let all := glyphs.head? = some (.char orderMark)
  0x22 :: glyphs.flatMap (escapeGlyph all) ++ [0x22]

/-- A text in single quotes. -/
def singleQuoted (t : Text) : Text :=
  0x27 :: t.flatMap (fun b => if b == 0x27 then [0x27, 0x27] else [b]) ++ [0x27]

/-- A digit of base 64. -/
def base64Digit (n : Nat) : UInt8 :=
  if n < 26 then (0x41 + n).toUInt8
  else if n < 52 then (0x61 + (n - 26)).toUInt8
  else if n < 62 then (0x30 + (n - 52)).toUInt8
  else if n = 62 then 0x2B
  else 0x2F

/-- Bytes in base 64, three in four digits. -/
def base64 : List UInt8 → Text
  | [] => []
  | [a] =>
    let n := a.toNat * 65536
    [base64Digit (n / 262144), base64Digit (n / 4096 % 64), 0x3D, 0x3D]
  | [a, b] =>
    let n := a.toNat * 65536 + b.toNat * 256
    [base64Digit (n / 262144), base64Digit (n / 4096 % 64), base64Digit (n / 64 % 64), 0x3D]
  | a :: b :: c :: t =>
    let n := a.toNat * 65536 + b.toNat * 256 + c.toNat
    base64Digit (n / 262144) :: base64Digit (n / 4096 % 64) :: base64Digit (n / 64 % 64) ::
      base64Digit (n % 64) :: base64 t

/-- The length of a line of base 64. -/
def base64Width : Nat := 70

/-- Lines of base 64, at most `bound` of them. -/
def base64Lines : Nat → Text → List Text
  | 0, _ => []
  | bound + 1, t =>
    if t.isEmpty then [] else t.take base64Width :: base64Lines bound (t.drop base64Width)

/-- Some spaces. -/
def spaces (n : Nat) : Text := List.replicate n 0x20

/-- Digits of base 64.  What does not fit on one line follows as a block. -/
def base64Value (indent : Nat) (digits : Text) : Text :=
  if digits.length < base64Width then digits ++ [0x0A]
  else
    0x7C :: 0x0A ::
      (base64Lines digits.length digits).flatMap fun line => spaces indent ++ line ++ [0x0A]

/-- Bytes that are not valid UTF-8. -/
def binary (indent : Nat) (bytes : List UInt8) : Text :=
  "!!binary " ++ base64Value indent (base64 bytes)

/-- A glyph that can stand in a document as it is. -/
def isPlainGlyph : Glyph → Bool
  | .char c => isPlainChar c
  | .stray _ => false

/-- A text and the end of its line; `indent` is where a block of it would begin. -/
def scalar (indent : Nat) (t : Text) : Text :=
  if !Text.isUtf8 t then binary indent t
  else
    (if isAmbiguous t || !(Text.glyphs t).all isPlainGlyph then doubleQuoted t
      else if isPunctuated t then singleQuoted t
      else t) ++ [0x0A]

/-! ## Documents -/

mutual

/-- What follows the name of a field, or the dash of an item, which stand `indent` in. -/
def renderValue (indent : Nat) : Node → Text
  | .text t => 0x20 :: scalar (indent + 2) t
  | .list [] => " []\n"
  | .list items => 0x0A :: renderItems (indent + 2) items
  | .fields [] => [0x20, 0x7B, 0x7D, 0x0A]
  | .fields entries => 0x0A :: renderFields (indent + 2) false entries

/-- An item behind its dash, which stands `indent` in. -/
def renderItem (indent : Nat) : Node → Text
  | .fields (entry :: entries) => 0x20 :: renderFields (indent + 2) true (entry :: entries)
  | n => renderValue indent n

/-- The items of a list. -/
def renderItems (indent : Nat) : List Node → Text
  | [] => []
  | n :: rest => spaces indent ++ [0x2D] ++ renderItem indent n ++ renderItems indent rest

/-- The fields of a record; `opened` tells whether the first goes on in an open line. -/
def renderFields (indent : Nat) (opened : Bool) : List (Text × Node) → Text
  | [] => []
  | (name, n) :: rest =>
    (if opened then [] else spaces indent) ++ name ++ [0x3A] ++ renderValue indent n ++
      renderFields indent false rest

end

/-- A document as a text. -/
def text : Node → Text
  | .fields entries => renderFields 0 false entries
  | .list items => renderItems 0 items
  | .text t => scalar 0 t

end Yaml

end Report

end Sic
