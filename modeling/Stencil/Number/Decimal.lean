import Stencil.Number.Shortest

/-!
# Floating-point numbers as decimal text

* `Binary64.text`: the shortest digits, always written in positional notation.
* `Binary64.jsonText`: the shortest digits, with an exponent for very small and very large numbers.
* `Binary64.fixed`: the exact value rounded to a number of decimal places, a half to the even digit.
* `Binary64.read`: the number next to a decimal text.
-/

namespace Stencil

namespace Decimal

/-- `digits * 10 ^ exponent` in positional notation. -/
def positional (digits : List Char) (exponent : Int) : List Char :=
  let point : Int := digits.length + exponent
  if 0 ≤ exponent then digits ++ List.replicate exponent.toNat '0'
  else if 0 < point then digits.take point.toNat ++ '.' :: digits.drop point.toNat
  else '0' :: '.' :: (List.replicate (-point).toNat '0' ++ digits)

/-- `digits * 10 ^ exponent` with one digit before the point and a power of ten. -/
def scientific (digits : List Char) (exponent : Int) : List Char :=
  let power : Int := digits.length + exponent - 1
  let mantissa := match digits with
    | [] => []
    | [d] => [d]
    | d :: rest => d :: '.' :: rest
  mantissa ++ 'e' :: (if power < 0 then '-' else '+') :: Decimal.digits power.natAbs

/-- `n / 10 ^ places` with exactly `places` digits after the point. -/
def withPlaces (places n : Nat) : List Char :=
  if places = 0 then digits n
  else
    let ds := padded (places + 1) n
    ds.take (ds.length - places) ++ '.' :: ds.drop (ds.length - places)

end Decimal

namespace Binary64

def signText (negative : Bool) : List Char := if negative then ['-'] else []

/-- Shortest text in positional notation; whole numbers have no point. -/
def text : Binary64 → String
  | .nan => "NaN"
  | .infinity negative => String.ofList (signText negative ++ ['i', 'n', 'f'])
  | .finite negative significand scale _ =>
    let d := shortest .up significand scale
    String.ofList (signText negative ++ Decimal.positional (Decimal.digits d.digits) d.exponent)

/-- Shortest text as a number of a JSON text: an exponent below `10 ^ -5` and from `10 ^ 16` on, else at least one
decimal place. Only finite numbers have one. -/
def jsonText : Binary64 → Option String
  | .finite negative significand scale _ =>
    let d := shortest .even significand scale
    let digits := Decimal.digits d.digits
    let power : Int := digits.length + d.exponent - 1
    let body :=
      if significand = 0 then ['0', '.', '0']
      else if power < -5 || 16 ≤ power then Decimal.scientific digits d.exponent
      else if 0 ≤ d.exponent then Decimal.positional digits d.exponent ++ ['.', '0']
      else Decimal.positional digits d.exponent
    some (String.ofList (signText negative ++ body))
  | _ => none

/-- The exact value rounded to `places` decimal places, a half to the even digit. -/
def fixed (places : Nat) : Binary64 → String
  | .finite negative significand scale _ =>
    let n := roundHalfEven (magnitude significand scale * 10 ^ places) one
    String.ofList (signText negative ++ Decimal.withPlaces places n)
  | x => x.text

end Binary64

/-! ## Reading -/

/-- Why a text is not a floating-point number. -/
inductive FloatFault where
  | empty
  | invalid
  deriving DecidableEq, Repr

def FloatFault.message : FloatFault → String
  | .empty => "cannot parse float from empty string"
  | .invalid => "invalid float literal"

namespace Binary64

/-- `digits * 10 ^ exponent` as an exact ratio; numbers far outside the range need no computation. -/
def ofDecimal (round : Bool → Nat → Nat → Binary64) (negative : Bool) (digits : Nat) (exponent : Int) :
    Binary64 :=
  let size : Int := (Nat.toDigits 10 digits).length + exponent
  if digits = 0 || size < -400 then zero negative
  else if 400 < size then .infinity negative
  else if 0 ≤ exponent then round negative (digits * 10 ^ exponent.toNat) 1
  else round negative digits (10 ^ (-exponent).toNat)

/-- The power of ten after the digits: nothing, or a mark with a whole number. -/
def readExponent : List Char → Option Int
  | [] => some 0
  | c :: rest =>
    if c == 'e' || c == 'E' then
      let (negative, ds) := match rest with
        | '-' :: ds => (true, ds)
        | '+' :: ds => (false, ds)
        | ds => (false, ds)
      if ds.isEmpty || !ds.all Char.isDigit then none
      else
        let n : Int := Nat.ofDigitChars 10 ds 0
        some (if negative then -n else n)
    else none

/-- Digits with an optional point and exponent, and at least one digit. -/
def readDigits (round : Bool → Nat → Nat → Binary64) (negative : Bool) (text : List Char) : Option Binary64 :=
  let whole := text.takeWhile Char.isDigit
  let (fraction, rest) := match text.dropWhile Char.isDigit with
    | '.' :: rest => (rest.takeWhile Char.isDigit, rest.dropWhile Char.isDigit)
    | rest => ([], rest)
  if whole.isEmpty && fraction.isEmpty then none
  else
    (readExponent rest).map fun exponent =>
      ofDecimal round negative (Nat.ofDigitChars 10 (whole ++ fraction) 0) (exponent - fraction.length)

/-- The words for infinity and not-a-number, in any case. -/
def readWord (negative : Bool) (text : List Char) : Option Binary64 :=
  let word := String.ofList (text.map Char.toLower)
  if word = "inf" || word = "infinity" then some (.infinity negative)
  else if word = "nan" then some .nan
  else none

/-- Reads a number with an optional sign, rounding once by `round`. -/
def readWith (round : Bool → Nat → Nat → Binary64) (text : List Char) : Except FloatFault Binary64 :=
  match text with
  | [] => .error .empty
  | c :: rest =>
    let (negative, body) :=
      if c == '-' then (true, rest) else if c == '+' then (false, rest) else (false, text)
    match (readDigits round negative body).orElse fun _ => readWord negative body with
    | some x => .ok x
    | none => .error .invalid

/-- Reads the nearest number of 64 bits. -/
def read (text : List Char) : Except FloatFault Binary64 := readWith ofRatio text

/-- Reads the nearest number of 32 bits. -/
def readSingle (text : List Char) : Except FloatFault Binary64 := readWith ofRatioSingle text

end Binary64

end Stencil
