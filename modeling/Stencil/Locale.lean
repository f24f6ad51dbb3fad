import Stencil.Error
import Stencil.Value

/-!
# Locales

A locale has a tag and two separators, for decimals and for groups of three digits. Numbers are written by a pattern of
a letter and an optional precision, dates by a pattern of fields.

* `Locale.regroup`: the separators of a locale put into a plain number text.
* `Locale.format`: a number or a date by a pattern; other values have no formatted text.
-/

namespace Stencil

structure Locale where
  tag : String
  decimal : Char
  group : Char
  deriving DecidableEq, Repr

namespace Locale

/-- The locale of no language. -/
def invariant : Locale := ⟨"", '.', ','⟩

instance : Inhabited Locale := ⟨invariant⟩

/-- Languages that write a decimal comma and group by points. -/
def commaAndPoint : List String := ["es", "de", "it", "pt", "nl", "da", "el", "id", "tr", "ro", "hr", "sl"]

/-- Languages that write a decimal comma and group by spaces that do not break. -/
def commaAndSpace : List String := ["fr", "ru", "pl", "cs", "sk", "sv", "fi", "nb", "no", "uk", "hu", "bg"]

/-- The language of a tag: what stands before the first `-` or `_`, in lower case. -/
def language (tag : String) : String :=
  String.ofList ((tag.toList.takeWhile fun c => c ≠ '-' ∧ c ≠ '_').map Char.toLower)

/-- The locale of a tag. An unknown language has the separators of no language. -/
def ofTag (tag : String) : Locale :=
  if commaAndPoint.contains (language tag) then ⟨tag, ',', '.'⟩
  else if commaAndSpace.contains (language tag) then ⟨tag, ',', '\u00a0'⟩
  else ⟨tag, '.', ','⟩

/-! ## Separators -/

/-- Puts `separator` before every digit whose distance to the end is a positive multiple of three, except the first. -/
def groupDigits (separator : Char) : List Char → List Char
  | [] => []
  | c :: cs => c :: groupRest separator cs
where
  /-- The same for digits that follow another one. -/
  groupRest (separator : Char) : List Char → List Char
    | [] => []
    | c :: cs =>
      if (cs.length + 1) % 3 = 0 then separator :: c :: groupRest separator cs else c :: groupRest separator cs

/-- The sign, the whole part and the fraction of a number text with a decimal point. -/
def splitNumber (text : List Char) : List Char × List Char × Option (List Char) :=
  let (sign, unsigned) := match text with
    | '-' :: rest => (['-'], rest)
    | rest => ([], rest)
  (sign, unsigned.takeWhile (· ≠ '.'),
    match unsigned.dropWhile (· ≠ '.') with
    | [] => none
    | _ :: fraction => some fraction)

/-- Puts the separators of a locale into a number text with a decimal point and no groups. -/
def regroup (l : Locale) (grouped : Bool) (text : String) : String :=
  let (sign, whole, fraction) := splitNumber text.toList
  String.ofList (sign ++ (if grouped then groupDigits l.group whole else whole)
    ++ match fraction with
      | none => []
      | some digits => l.decimal :: digits)

/-- The text of a value in a locale. -/
def display (l : Locale) : Value → String
  | .float x => l.regroup false x.text
  | v => v.text

/-! ## Patterns -/

/-- A number that a pattern is applied to. -/
inductive Number where
  | integer (n : Int64)
  | float (x : Binary64)
  deriving DecidableEq

namespace Number

def toFloat : Number → Binary64
  | integer n => .ofInt n.toInt
  | float x => x

def text : Number → String
  | integer n => Decimal.integerText n.toInt
  | float x => x.text

end Number

/-- The greatest number of places or digits in a pattern. -/
def maxPrecision : Nat := 99

/-- The number after the letter of a pattern. -/
def readPrecision (text : List Char) : Except FormatFault (Option Nat) :=
  match text with
  | [] => .ok none
  | _ =>
    match Decimal.readNat64 text with
    | .error _ => .error .precision
    | .ok n => if n ≤ maxPrecision then .ok (some n) else .error .precisionRange

/-- An integer with at least `width` digits. -/
def paddedInteger (width : Nat) (n : Int64) : String :=
  let digits := Decimal.padded width n.toInt.natAbs
  String.ofList (if n.toInt < 0 then '-' :: digits else digits)

/-- A number by a pattern: `G` general, `F` with decimal places, `N` with decimal places and groups, `D` an integer with
leading zeros. The precision is looked at before the letter. -/
def formatNumber (l : Locale) (n : Number) (pattern : String) : Except FormatFault String := do
  let precision ← readPrecision (pattern.toList.drop 1)
  match pattern.toList.head?.map Char.toUpper with
  | none | some 'G' => .ok (l.regroup false n.text)
  | some 'F' => .ok (l.regroup false (n.toFloat.fixed (precision.getD 2)))
  | some 'N' => .ok (l.regroup true (n.toFloat.fixed (precision.getD 2)))
  | some 'D' =>
    match n with
    | .integer n => .ok (paddedInteger (precision.getD 0) n)
    | .float _ => .error .integerRequired
  | some _ => .error .unsupported

/-- A number or a date by a pattern; nothing for other values. -/
def format (l : Locale) (v : Value) (pattern : String) : Except Error (Option String) :=
  let marked (r : Except FormatFault String) : Except Error (Option String) :=
    match r with
    | .ok text => .ok (some text)
    | .error fault => .error (.format fault pattern)
  match v with
  | .integer n => marked (l.formatNumber (.integer n) pattern)
  | .float x => marked (l.formatNumber (.float x) pattern)
  | .date t =>
    match Pattern.write (if pattern = "" then DateTime.pattern else pattern) t with
    | some text => .ok (some text)
    | none => .error (.format .datePattern pattern)
  | _ => .ok none

end Locale

end Stencil
