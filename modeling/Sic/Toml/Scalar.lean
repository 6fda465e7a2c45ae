import Sic.Text.Hex
import Sic.Text.Moment
import Sic.Text.Scientific
import Sic.Toml.Value

/-!
# Scalars of a TOML document

Strings, numbers, dates and truth values, read from the front of a document's characters.
-/

set_option autoImplicit false

namespace Sic

namespace Toml

/-- A reader takes a value from the front of some characters. -/
abbrev Reader (α : Type) := List Char → Option (α × List Char)

/-- A space or a tab. -/
def isGap (c : Char) : Bool := c = ' ' || c = '\t'

/-- The end of a line. -/
def isBreak (c : Char) : Bool := c = '\n' || c = '\r'

/-- An ASCII decimal digit. -/
def isDigit (c : Char) : Bool := '0' ≤ c && c ≤ '9'

/-- An ASCII hexadecimal digit. -/
def isHex (c : Char) : Bool := isDigit c || ('a' ≤ c && c ≤ 'f') || ('A' ≤ c && c ≤ 'F')

/-- The text of some characters. -/
def textOf (cs : List Char) : Text := cs.flatMap Text.ofChar

/-- The double quote. -/
def quote : Char := '\x22'

/-- The apostrophe, which quotes literally. -/
def apostrophe : Char := '\x27'

/-! ## Strings -/

/-- The character with the code that hexadecimal digits write. -/
def charOfHex? (digits : List Char) : Option Char := do
  let n ← if digits.all isHex then Text.natOfDigits? 16 (textOf digits) else none
  if n ≤ 0x10FFFF ∧ ¬ (0xD800 ≤ n ∧ n ≤ 0xDFFF) then some (Char.ofNat n) else none

/-- White space between and at the ends of lines. -/
def isLineSpace (c : Char) : Bool := isGap c || isBreak c

/-- Replaces escapes by what they stand for.  If lines are to be joined, a backslash at the end of a
line goes with all white space behind it. -/
def unescape (joins : Bool) (s : List Char) : Option (List Char) :=
  match s with
  | [] => some []
  | '\\' :: 'b' :: t => (unescape joins t).map ('\x08' :: ·)
  | '\\' :: 't' :: t => (unescape joins t).map ('\t' :: ·)
  | '\\' :: 'n' :: t => (unescape joins t).map ('\n' :: ·)
  | '\\' :: 'f' :: t => (unescape joins t).map ('\x0c' :: ·)
  | '\\' :: 'r' :: t => (unescape joins t).map ('\r' :: ·)
  | '\\' :: '\x22' :: t => (unescape joins t).map ('\x22' :: ·)
  | '\\' :: '\\' :: t => (unescape joins t).map ('\\' :: ·)
  | '\\' :: 'u' :: a :: b :: c :: d :: t => do
    let x ← charOfHex? [a, b, c, d]
    let rest ← unescape joins t
    some (x :: rest)
  | '\\' :: 'U' :: a :: b :: c :: d :: e :: f :: g :: h :: t => do
    let x ← charOfHex? [a, b, c, d, e, f, g, h]
    let rest ← unescape joins t
    some (x :: rest)
  | c :: t =>
    if c ≠ '\\' then (unescape joins t).map (c :: ·)
    else if joins && (t.takeWhile isLineSpace).contains '\n' then
      unescape joins (t.dropWhile isLineSpace)
    else none
termination_by s.length
decreasing_by
  all_goals simp only [List.length_cons]
  all_goals first
    | omega
    | have := (List.dropWhile_suffix isLineSpace (l := t)).length_le
      omega

/-- Takes what stands before the closing quote of a string of one line, escapes as they are. -/
def rawLine (acc : List Char) : Reader (List Char)
  | [] => none
  | '\\' :: c :: t => if isBreak c then none else rawLine (c :: '\\' :: acc) t
  | c :: t =>
    if c = quote then some (acc.reverse, t)
    else if isBreak c then none
    else rawLine (c :: acc) t

/-- Reads a string behind its opening quote. -/
def basicString : Reader Text := fun s => do
  let (raw, rest) ← rawLine [] s
  let cs ← unescape false raw
  some (textOf cs, rest)

/-- Reads a literal string behind its opening apostrophe. -/
def literalString : Reader Text := fun s =>
  match s.dropWhile (fun c => c ≠ apostrophe && !isBreak c) with
  | c :: rest =>
    if c = apostrophe then some (textOf (s.takeWhile fun c => c ≠ apostrophe), rest) else none
  | [] => none

/-- Takes what stands before the three closing quotes of a string of several lines.  The string may
end in one or two quotes of its own, but not in three, and a quote that is escaped does not count.
`acc` is what was taken, the last character first. -/
def rawLines (mark : Char) (escapes : Bool) (acc : List Char) : Reader (List Char)
  | [] => none
  | c :: t =>
    if escapes && c = '\\' then
      match t with
      | [] => none
      | d :: t => rawLines mark escapes (d :: '\\' :: acc) t
    else if c = mark then
      match t with
      | d :: e :: rest =>
        if d = mark && e = mark then
          if rest.head? = some mark then
            if acc.take 2 = [mark, mark] && !(escapes && acc[2]? = some '\\') then none
            else rawLines mark escapes (mark :: acc) t
          else some (acc.reverse, rest)
        else rawLines mark escapes (mark :: acc) t
      | _ => rawLines mark escapes (mark :: acc) t
    else rawLines mark escapes (c :: acc) t

/-- A string of several lines without the line break it begins with. -/
def dropFirstBreak : List Char → List Char
  | '\n' :: t => t
  | '\r' :: '\n' :: t => t
  | t => t

/-- Reads a string of several lines behind its three opening quotes. -/
def basicLines : Reader Text := fun s => do
  let (raw, rest) ← rawLines quote true [] s
  let cs ← unescape true (dropFirstBreak raw)
  some (textOf cs, rest)

/-- Reads a literal string of several lines behind its three opening apostrophes. -/
def literalLines : Reader Text := fun s => do
  let (raw, rest) ← rawLines apostrophe false [] s
  some (textOf (dropFirstBreak raw), rest)

/-! ## Numbers and dates -/

/-- Whether every underscore of a number stands behind a digit, and the number ends in one. -/
def underscoresOk (behindDigit : Bool) : List Char → Bool
  | [] => behindDigit
  | c :: t => (c ≠ '_' || behindDigit) && underscoresOk (isHex c) t

/-- Whether a number has a zero before its other digits that does not show its base. -/
def hasLeadingZero : List Char → Bool
  | '0' :: c :: _ => !(c = 'b' || c = 'o' || c = 'x')
  | c :: '0' :: _ :: _ => c = '+' || c = '-'
  | _ => false

/-- An integer of 64 bits. -/
def integerOf? (token : List Char) : Option Value :=
  if underscoresOk false token && !hasLeadingZero token then
    match Text.int64? (textOf token) with
    | .ok n => some (.integer n)
    | .error _ => none
  else none

/-- Whether every point of a number stands before a digit. -/
def pointsOk : List Char → Bool
  | [] => true
  | '.' :: t =>
    match t with
    | [] => false
    | c :: _ => isDigit c && pointsOk t
  | _ :: t => pointsOk t

/-- A number with a fraction or a power of ten. -/
def floatOf? (token : List Char) : Option Value :=
  let parts :=
    (token.splitOnP fun c => c = '.' || c = 'e' || c = 'E').filter fun part => !part.isEmpty
  if parts.all (underscoresOk false) && !hasLeadingZero (parts.headD []) && pointsOk token &&
      Text.isFloat64 (textOf (token.filter (· ≠ '_'))) then
    some .float
  else none

/-- A date, a time of day, or both with or without a time zone. -/
def isMoment (t : Text) : Bool :=
  match Text.date? true t with
  | some [] => true
  | some (0x54 :: t) =>
    match Text.time? true t with
    | some [] => true
    | some t => Text.zone? t == some []
    | none => false
  | some _ => false
  | none => Text.time? true t == some []

/-- A date or a time, the letters of which may be in either case. -/
def momentOf? (token : List Char) : Option Value :=
  let token := ((token.dropWhile isGap).reverse.dropWhile isGap).reverse
  let token := token.map fun c =>
    if c = 'z' then 'Z' else if c = 't' || c = ' ' then 'T' else c
  if isMoment (textOf token) then some .moment else none

/-- A character of a date or a time. -/
def isMomentChar (c : Char) : Bool := isDigit c || "-:Tt .Zz+".toList.contains c

/-- A character of a number with a fraction or a power of ten. -/
def isFloatChar (c : Char) : Bool := isDigit c || "_.-+eE".toList.contains c

/-- Reads a value from the longest run of certain characters. -/
def readToken (p : Char → Bool) (of? : List Char → Option Value) : Reader Value := fun s =>
  (of? (s.takeWhile p)).map fun v => (v, s.dropWhile p)

/-- Reads a decimal number, which may begin with a sign. -/
def decimalNumber : Reader Value := fun s =>
  let isSign := fun c => c = '+' || c = '-'
  let sign := s.takeWhile isSign
  let isPart := fun c => isDigit c || c = '_'
  let digits := s.dropWhile isSign
  match (digits.dropWhile isPart).head? with
  | some c =>
    if c = '.' || c = 'e' || c = 'E' then
      (floatOf? (sign ++ digits.takeWhile isFloatChar)).map fun v =>
        (v, digits.dropWhile isFloatChar)
    else
      (integerOf? (sign ++ digits.takeWhile isPart)).map fun v => (v, digits.dropWhile isPart)
  | none => (integerOf? (sign ++ digits)).map fun v => (v, [])

/-- Reads a decimal number, a date or a time, which all begin with a digit. -/
def numberOrMoment : Reader Value := fun s =>
  match (s.dropWhile isDigit).head? with
  | some c => if c = '-' || c = ':' then readToken isMomentChar momentOf? s else decimalNumber s
  | none => decimalNumber s

/-- Reads a number that shows its base, behind the base. -/
def basedNumber (base : Char) (isDigit : Char → Bool) : Reader Value := fun s =>
  match s with
  | c :: _ =>
    if isDigit c then
      let isPart := fun c => isDigit c || c = '_'
      (integerOf? ('0' :: base :: s.takeWhile isPart)).map fun v => (v, s.dropWhile isPart)
    else none
  | [] => none

/-- Reads a number, a date or a time that begins with a digit. -/
def unsigned : Reader Value
  | '0' :: 'b' :: t => basedNumber 'b' (fun c => c = '0' || c = '1') t
  | '0' :: 'o' :: t => basedNumber 'o' (fun c => '0' ≤ c && c ≤ '7') t
  | '0' :: 'x' :: t => basedNumber 'x' isHex t
  | '0' :: c :: t => if isDigit c then numberOrMoment ('0' :: c :: t) else decimalNumber ('0' :: c :: t)
  | s => numberOrMoment s

/-- Reads a number that begins with a sign. -/
def signed (sign : Char) : Reader Value
  | 'i' :: 'n' :: 'f' :: t => some (.float, t)
  | 'n' :: 'a' :: 'n' :: t => some (.float, t)
  | '0' :: 'b' :: _ => none
  | '0' :: 'o' :: _ => none
  | '0' :: 'x' :: _ => none
  | c :: t => if isDigit c then decimalNumber (sign :: c :: t) else none
  | [] => none

end Toml

end Sic
