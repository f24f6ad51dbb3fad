import Stencil.Calendar.Date
import Stencil.Number.Integer
import Stencil.Text.Blank

/-!
# Dates read from text

A date is read in one of three forms: a day alone, or a day and a time of day with a blank or a `T` between them. Before
each number blanks are skipped, and the blank between day and time stands for any number of blanks. Years without a
sign have at most four digits.

Text that becomes a date has no fraction of a second. Only a host that writes its own dates down has one to tell, and
`DateTime.readPrecise` reads these.
-/

namespace Stencil

namespace DateReading

/-- Steps that read a piece off the front of a text. -/
abbrev Reader (α : Type) := StateT (List Char) Option α

def skipBlanks : Reader Unit := modify fun cs => cs.dropWhile Text.isBlank

/-- Reads this very character. -/
def character (c : Char) : Reader Unit := do
  match ← get with
  | d :: rest => if d = c then set rest else failure
  | [] => failure

/-- Reads at least one and at most `width` digits. -/
def digits (width : Nat) : Reader Nat := do
  let cs ← get
  let ds := (cs.take width).takeWhile Char.isDigit
  if ds.isEmpty then failure
  set (cs.drop ds.length)
  return Nat.ofDigitChars 10 ds 0

def number (width : Nat) : Reader Nat := do
  skipBlanks
  digits width

/-- A year of up to four digits, or of any length after a sign. -/
def year : Reader Int := do
  skipBlanks
  let cs ← get
  match cs with
  | '-' :: rest => set rest; return -((← digits rest.length) : Int)
  | '+' :: rest => set rest; return ((← digits rest.length) : Int)
  | _ => return ((← digits 4) : Int)

def date : Reader Date := do
  let y ← year
  character '-'
  let m ← number 2
  character '-'
  let d ← number 2
  Date.of? y m d

/-- A time of day to the second. -/
def time : Reader Time := do
  let h ← number 2
  character ':'
  let m ← number 2
  character ':'
  let s ← number 2
  Time.of? h m s 0

/-- A fraction of a second, of which nine digits count. -/
def fraction : Reader Nat := do
  match ← get with
  | '.' :: rest =>
    let ds := rest.takeWhile Char.isDigit
    if ds.isEmpty then failure
    set (rest.drop ds.length)
    let counted := ds.take 9
    return Nat.ofDigitChars 10 counted 0 * 10 ^ (9 - counted.length)
  | _ => return 0

/-- Runs a reader that has to use up the text. -/
def whole {α : Type} (reader : Reader α) (text : List Char) : Option α :=
  match reader.run text with
  | some (a, []) => some a
  | _ => none

def spacedDateTime : Reader DateTime := do
  let d ← date
  skipBlanks
  let t ← time
  return ⟨d, t⟩

def markedDateTime : Reader DateTime := do
  let d ← date
  character 'T'
  let t ← time
  return ⟨d, t⟩

end DateReading

open DateReading

/-- Reads a day. -/
def Date.read (text : List Char) : Option Date := whole date text

/-- Reads a day with or without a time of day. -/
def DateTime.read (text : List Char) : Option DateTime :=
  whole spacedDateTime text <|> whole markedDateTime text <|> (Date.read text).map Date.atMidnight

/-- Reads a date that the host wrote down: a day and a time of day with an optional fraction of a second. -/
def DateTime.readPrecise (text : List Char) : Option DateTime := do
  let (t, n) ← whole (do let t ← spacedDateTime; return (t, ← fraction)) text
  let time ← Time.of? t.time.hour t.time.minute t.time.second n
  return { t with time }

end Stencil
