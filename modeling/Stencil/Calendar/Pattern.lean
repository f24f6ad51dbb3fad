import Stencil.Calendar.Date
import Stencil.Number.Integer

/-!
# Dates written by a pattern

A pattern is text with fields such as `%Y`. `Pattern.items` reads it, or fails if a field is unknown, and
`Pattern.write` writes a date by it, or fails if it asks for a time zone.

* `Pattern.write_pattern`: the text of a date is what one such pattern writes.
-/

namespace Stencil

namespace Pattern

/-- Fields that are numbers. -/
inductive Field where
  | year
  | century
  | yearOfCentury
  | weekYear
  | weekYearOfCentury
  | quarter
  | month
  | day
  | weekFromSunday
  | weekFromMonday
  | week
  | weekdayFromSunday
  | weekdayFromMonday
  | dayOfYear
  | hour
  | hour12
  | minute
  | second
  | nanosecond
  | timestamp
  deriving DecidableEq, Repr

/-- What fills a number up to its width. -/
inductive Pad where
  | none
  | zero
  | blank
  deriving DecidableEq, Repr

inductive Item where
  | literal (text : List Char)
  | number (field : Field) (pad : Pad)
  | monthName (long : Bool)
  | weekdayName (long : Bool)
  | halfOfDay (capital : Bool)
  /-- A point and three, six or nine digits, or nothing for a whole second. -/
  | fraction
  | fractionPlaces (point : Bool) (places : Nat)
  /-- Name of or distance to a time zone. -/
  | zone
  deriving DecidableEq, Repr

def monthNames : List String :=
  ["January", "February", "March", "April", "May", "June", "July", "August", "September", "October", "November",
    "December"]

def weekdayNames : List String :=
  ["Monday", "Tuesday", "Wednesday", "Thursday", "Friday", "Saturday", "Sunday"]

/-! ## Reading a pattern -/

def zeroed (field : Field) : Item := .number field .zero

def blanked (field : Field) : Item := .number field .blank

def monthDayYear : List Item :=
  [zeroed .month, .literal ['/'], zeroed .day, .literal ['/'], zeroed .yearOfCentury]

def clock : List Item :=
  [zeroed .hour, .literal [':'], zeroed .minute, .literal [':'], zeroed .second]

/-- The fields named by one character. -/
def itemsOf : Char → Option (List Item)
  | 'A' => some [.weekdayName true]
  | 'B' => some [.monthName true]
  | 'C' => some [zeroed .century]
  | 'D' => some monthDayYear
  | 'F' => some [zeroed .year, .literal ['-'], zeroed .month, .literal ['-'], zeroed .day]
  | 'G' => some [zeroed .weekYear]
  | 'H' => some [zeroed .hour]
  | 'I' => some [zeroed .hour12]
  | 'M' => some [zeroed .minute]
  | 'P' => some [.halfOfDay false]
  | 'R' => some [zeroed .hour, .literal [':'], zeroed .minute]
  | 'S' => some [zeroed .second]
  | 'T' => some clock
  | 'U' => some [zeroed .weekFromSunday]
  | 'V' => some [zeroed .week]
  | 'W' => some [zeroed .weekFromMonday]
  | 'X' => some clock
  | 'Y' => some [zeroed .year]
  | 'Z' => some [.zone]
  | 'a' => some [.weekdayName false]
  | 'b' => some [.monthName false]
  | 'c' =>
    some ([.weekdayName false, .literal [' '], .monthName false, .literal [' '], blanked .day, .literal [' ']] ++ clock
      ++ [.literal [' '], zeroed .year])
  | 'd' => some [zeroed .day]
  | 'e' => some [blanked .day]
  | 'f' => some [zeroed .nanosecond]
  | 'g' => some [zeroed .weekYearOfCentury]
  | 'h' => some [.monthName false]
  | 'j' => some [zeroed .dayOfYear]
  | 'k' => some [blanked .hour]
  | 'l' => some [blanked .hour12]
  | 'm' => some [zeroed .month]
  | 'n' => some [.literal ['\n']]
  | 'p' => some [.halfOfDay true]
  | 'q' => some [.number .quarter .none]
  | 'r' =>
    some [zeroed .hour12, .literal [':'], zeroed .minute, .literal [':'], zeroed .second, .literal [' '],
      .halfOfDay true]
  | 's' => some [.number .timestamp .none]
  | 't' => some [.literal ['\t']]
  | 'u' => some [.number .weekdayFromMonday .none]
  | 'v' => some [blanked .day, .literal ['-'], .monthName false, .literal ['-'], zeroed .year]
  | 'w' => some [.number .weekdayFromSunday .none]
  | 'x' => some monthDayYear
  | 'y' => some [zeroed .yearOfCentury]
  | 'z' => some [.zone]
  | '+' => some [.zone]
  | '%' => some [.literal ['%']]
  | _ => none

def padOf : Char → Option Pad
  | '-' => some .none
  | '0' => some .zero
  | '_' => some .blank
  | _ => none

/-- The field at the start of the text after a `%`, with the number of characters it takes. -/
def readField : List Char → Option (List Item × Nat)
  | '#' :: 'z' :: _ => some ([.zone], 2)
  | ':' :: ':' :: ':' :: 'z' :: _ => some ([.zone], 4)
  | ':' :: ':' :: 'z' :: _ => some ([.zone], 3)
  | ':' :: 'z' :: _ => some ([.zone], 2)
  | '.' :: 'f' :: _ => some ([.fraction], 2)
  | '.' :: '3' :: 'f' :: _ => some ([.fractionPlaces true 3], 3)
  | '.' :: '6' :: 'f' :: _ => some ([.fractionPlaces true 6], 3)
  | '.' :: '9' :: 'f' :: _ => some ([.fractionPlaces true 9], 3)
  | '3' :: 'f' :: _ => some ([.fractionPlaces false 3], 2)
  | '6' :: 'f' :: _ => some ([.fractionPlaces false 6], 2)
  | '9' :: 'f' :: _ => some ([.fractionPlaces false 9], 2)
  | c :: rest =>
    match padOf c with
    | none => (itemsOf c).map (·, 1)
    | some pad =>
      match rest.head?.bind itemsOf with
      | some [.number field _] => some ([.number field pad], 2)
      | _ => none
  | [] => none

/-- The items of a pattern; nothing if a field is unknown. -/
def items : List Char → Option (List Item)
  | [] => some []
  | c :: rest =>
    if c = '%' then
      match readField rest with
      | some (field, n) => (items (rest.drop n)).map (field ++ ·)
      | none => none
    else (items rest).map (.literal [c] :: ·)
termination_by cs => cs.length
decreasing_by all_goals simp; try omega

/-! ## Writing -/

/-- A number of at least `width` characters, to which a sign that is always written comes on top. -/
def writeNumber (width : Nat) (pad : Pad) (signed : Bool) (n : Int) : List Char :=
  let sign := if n < 0 then ['-'] else if signed then ['+'] else []
  let digits := Decimal.digits n.natAbs
  let missing := width + (if signed then 1 else 0) - (sign.length + digits.length)
  match pad with
  | .none => sign ++ digits
  | .zero => sign ++ List.replicate missing '0' ++ digits
  | .blank => List.replicate missing ' ' ++ sign ++ digits

/-- A number of two digits; where it has more, the first character goes on counting after `9`. -/
def writeTwo (pad : Pad) (n : Nat) : List Char :=
  let ones := Char.ofNat ('0'.toNat + n % 10)
  let tens := Char.ofNat ('0'.toNat + n / 10)
  match pad with
  | .none => if n < 10 then [ones] else [tens, ones]
  | .zero => [tens, ones]
  | .blank => if n < 10 then [' ', ones] else [tens, ones]

/-- Years outside the four-digit ones carry a sign. -/
def writeYear (pad : Pad) (year : Int) : List Char :=
  writeNumber 4 pad (year < 0 || 10000 ≤ year) year

def writeField (t : DateTime) (pad : Pad) : Field → List Char
  | .year => writeYear pad t.date.year
  | .century => writeTwo pad (t.date.year / 100 % 256).toNat
  | .yearOfCentury => writeTwo pad (t.date.year % 100).toNat
  | .weekYear => writeYear pad t.date.weekYear
  | .weekYearOfCentury => writeTwo pad (t.date.weekYear % 100).toNat
  | .quarter => Decimal.digits t.date.quarter
  | .month => writeTwo pad t.date.month
  | .day => writeTwo pad t.date.day
  | .weekFromSunday => writeTwo pad (t.date.weekOfYear t.date.weekdayFromSunday)
  | .weekFromMonday => writeTwo pad (t.date.weekOfYear t.date.weekday)
  | .week => writeTwo pad t.date.week
  | .weekdayFromSunday => Decimal.digits t.date.weekdayFromSunday
  | .weekdayFromMonday => Decimal.digits (t.date.weekday + 1)
  | .dayOfYear => writeNumber 3 pad false t.date.dayOfYear
  | .hour => writeTwo pad t.time.hour
  | .hour12 => writeTwo pad t.time.hour12
  | .minute => writeTwo pad t.time.minute
  | .second => writeTwo pad t.time.second
  | .nanosecond => writeNumber 9 pad false t.time.nanosecond
  | .timestamp => writeNumber 9 pad false t.timestamp

/-- A name, or its first three letters. -/
def writeName (names : List String) (index : Nat) (long : Bool) : List Char :=
  let name := (names[index]?.getD "").toList
  if long then name else name.take 3

/-- The first `places` digits of the fraction of a second. -/
def fractionDigits (nanosecond places : Nat) : List Char :=
  Decimal.padded places (nanosecond / 10 ^ (9 - places))

def writeItem (t : DateTime) : Item → Option (List Char)
  | .literal text => some text
  | .number field pad => some (writeField t pad field)
  | .monthName long => some (writeName monthNames (t.date.month - 1) long)
  | .weekdayName long => some (writeName weekdayNames t.date.weekday long)
  | .halfOfDay capital =>
    let morning := t.time.hour < 12
    some (if capital then (if morning then ['A', 'M'] else ['P', 'M'])
      else (if morning then ['a', 'm'] else ['p', 'm']))
  | .fraction =>
    let n := t.time.nanosecond
    some (if n = 0 then [] else
      '.' :: fractionDigits n (if n % 1000000 = 0 then 3 else if n % 1000 = 0 then 6 else 9))
  | .fractionPlaces point places =>
    some ((if point then ['.'] else []) ++ fractionDigits t.time.nanosecond places)
  | .zone => none

/-- The text of a date by a pattern; nothing if the pattern has an unknown field or asks for a time zone. -/
def write (pattern : String) (t : DateTime) : Option String := do
  let items ← items pattern.toList
  let texts ← items.mapM (writeItem t)
  return String.ofList texts.flatten

end Pattern

/-- The pattern of a date's own text. -/
def DateTime.pattern : String := "%Y-%m-%d %H:%M:%S"

/-- A date's own text: year, month and day, and the time of day to the second. -/
def DateTime.text (t : DateTime) : String :=
  String.ofList
    (Pattern.writeYear .zero t.date.year ++ '-' :: Pattern.writeTwo .zero t.date.month
      ++ '-' :: Pattern.writeTwo .zero t.date.day ++ ' ' :: Pattern.writeTwo .zero t.time.hour
      ++ ':' :: Pattern.writeTwo .zero t.time.minute ++ ':' :: Pattern.writeTwo .zero t.time.second)

namespace Pattern

theorem items_pattern : items DateTime.pattern.toList
    = some ([zeroed .year, .literal ['-'], zeroed .month, .literal ['-'], zeroed .day, .literal [' ']] ++ clock) := by
  cbv

/-- A date's own text is what its pattern writes. -/
theorem write_pattern (t : DateTime) : write DateTime.pattern t = some t.text := by
  simp [write, items_pattern, clock, zeroed, writeItem, writeField, DateTime.text]

end Pattern

end Stencil
