import Sic.Text.Number

/-!
# Dates and times in texts

Which texts write a date or a time of day that exists.  A field of a date or a time has two digits;
where `padded` is false a leading zero may be left out.
-/

set_option autoImplicit false

namespace Sic

namespace Text

/-- Reads one or two digits. -/
def shortNumber? (padded : Bool) : Text → Option (Nat × Text)
  | a :: b :: t =>
    if isDigit a && isDigit b then some ((a.toNat - 0x30) * 10 + (b.toNat - 0x30), t)
    else if isDigit a && !padded then some (a.toNat - 0x30, b :: t)
    else none
  | [a] => if isDigit a && !padded then some (a.toNat - 0x30, []) else none
  | [] => none

/-- Reads four digits. -/
def year? : Text → Option (Nat × Text)
  | a :: b :: c :: d :: t => (natOfDigits? 10 [a, b, c, d]).map fun n => (n, t)
  | _ => none

/-- Reads a given byte. -/
def expect? (b : UInt8) : Text → Option Text
  | a :: t => if a = b then some t else none
  | [] => none

/-- Whether a year has a 29th of February. -/
def isLeap (year : Nat) : Bool := year % 4 == 0 && (year % 100 != 0 || year % 400 == 0)

/-- The number of days in a month. -/
def daysIn (year month : Nat) : Nat :=
  if month = 2 then if isLeap year then 29 else 28
  else if month = 4 || month = 6 || month = 9 || month = 11 then 30
  else 31

/-- Reads a date that exists. -/
def date? (padded : Bool) (t : Text) : Option Text := do
  let (year, t) ← year? t
  let t ← expect? 0x2D t
  let (month, t) ← shortNumber? padded t
  let t ← expect? 0x2D t
  let (day, t) ← shortNumber? padded t
  if 1 ≤ month && month ≤ 12 && 1 ≤ day && day ≤ daysIn year month then some t else none

/-- What follows a fraction of a second, if there is one. -/
def dropFraction : Text → Text
  | a :: b :: t =>
    if (a = 0x2E || a = 0x2C) && isDigit b then t.dropWhile isDigit else a :: b :: t
  | t => t

/-- Reads a time of day. -/
def time? (padded : Bool) (t : Text) : Option Text := do
  let (hour, t) ← shortNumber? padded t
  let t ← expect? 0x3A t
  let (minute, t) ← shortNumber? padded t
  let t ← expect? 0x3A t
  let (second, t) ← shortNumber? padded t
  if hour < 24 && minute < 60 && second < 60 then some (dropFraction t) else none

/-- Reads a time zone: `Z`, or hours and minutes from it. -/
def zone? : Text → Option Text
  | 0x5A :: t => some t
  | a :: t => do
    if a ≠ 0x2B && a ≠ 0x2D then none
    let (hours, t) ← shortNumber? true t
    let t ← expect? 0x3A t
    let (minutes, t) ← shortNumber? true t
    if hours ≤ 24 && minutes ≤ 60 then some t else none
  | [] => none

end Text

end Sic
