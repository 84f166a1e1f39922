import DampedLeastSquares.Decimal.Digits

/-!
# Written numbers

The forms in which numbers are written: with an exponent, with fixed places,
in whichever of the two is shorter, and with the fewest digits that read back.
Values that are not finite have the same names in all of them.
-/

set_option autoImplicit false

namespace DampedLeastSquares.Decimal

def alignRight (width : Nat) (text : String) : String :=
  String.ofList (List.replicate (width - text.length) ' ') ++ text

def alignLeft (width : Nat) (text : String) : String :=
  text ++ String.ofList (List.replicate (width - text.length) ' ')

def paddedDigits (count number : Nat) : List Char :=
  let digits := Nat.toDigits 10 number
  List.replicate (count - digits.length) '0' ++ digits

/-- The number without trailing zeros after the point, and without a point that
ends it. -/
def dropTrailingZeros (digits : List Char) : List Char :=
  if digits.contains '.' then
    let kept := digits.reverse.dropWhile (· == '0')
    (if kept.head? = some '.' then kept.tail else kept).reverse
  else digits

/-- Digits with a point after the first `whole` of them, if any follow. -/
def withPoint (whole : Nat) (digits : List Char) : List Char :=
  let fraction := digits.drop whole
  if fraction.isEmpty then digits else digits.take whole ++ '.' :: fraction

/-- An exponent with its mark, its sign and at least two digits. -/
def exponentText (mark : Char) (exponent : Int) : List Char :=
  mark :: (if exponent < 0 then '-' else '+') :: paddedDigits 2 exponent.natAbs

structure Names where
  infinite : String
  undefined : String

def lowerNames : Names := ⟨"inf", "nan"⟩

def upperNames : Names := ⟨"INF", "NAN"⟩

/-- Write a value with the given names, its magnitude by the given function and
a minus sign in front of what is negative, a negative zero included. -/
def written (names : Names) (magnitude : Ratio → List Char) (value : Float) : String :=
  match Value.ofFloat value with
  | .undefined => names.undefined
  | .infinite negative => (if negative then "-" else "") ++ names.infinite
  | .finite negative mantissa exponent =>
      (if negative then "-" else "") ++
        String.ofList (magnitude (Ratio.ofBinary mantissa exponent))

/-- One digit before the point, `places` after it, and an exponent. -/
def exponentForm (mark : Char) (places : Nat) (ratio : Ratio) : List Char :=
  let expansion := ratio.significant (places + 1)
  withPoint 1 (paddedDigits (places + 1) expansion.digits) ++
    exponentText mark expansion.exponent

def scientific (places : Nat) : Float → String :=
  written lowerNames (exponentForm 'e' places)

def scientificUpper (places : Nat) : Float → String :=
  written upperNames (exponentForm 'E' places)

/-- `places` digits after the point and no exponent. -/
def fixed (places : Nat) : Float → String :=
  written lowerNames fun ratio =>
    let digits := paddedDigits (places + 1) (ratio.places places)
    withPoint (digits.length - places) digits

/-- At most the given number of significant digits, and at least one. An exponent
is written only if that is below -4 or leaves digits missing before the point.
There are no trailing zeros after the point. -/
def generalTo (digits : Nat) : Float → String :=
  written lowerNames fun ratio =>
    let count := max digits 1
    let expansion := ratio.significant count
    let digits := paddedDigits count expansion.digits
    if expansion.exponent < -4 ∨ count ≤ expansion.exponent then
      dropTrailingZeros (withPoint 1 digits) ++ exponentText 'e' expansion.exponent
    else if expansion.exponent < 0 then
      dropTrailingZeros ('0' :: '.' ::
        (List.replicate (expansion.exponent.natAbs - 1) '0' ++ digits))
    else dropTrailingZeros (withPoint (expansion.exponent.toNat + 1) digits)

/-- At most six significant digits. -/
def general : Float → String := generalTo 6

/-- The fewest digits that read back, always with a digit after the point where
no exponent is written. An exponent is written below -4 and from 16 on. -/
def shortestText (value : Float) : String :=
  written lowerNames (fun ratio =>
    if ratio.numerator = 0 then ['0', '.', '0']
    else
      let (count, expansion) := shortest value.abs ratio
      let digits := (paddedDigits count expansion.digits).reverse.dropWhile (· == '0') |>.reverse
      if expansion.exponent < -4 ∨ 16 ≤ expansion.exponent then
        withPoint 1 digits ++ exponentText 'e' expansion.exponent
      else if expansion.exponent < 0 then
        '0' :: '.' :: (List.replicate (expansion.exponent.natAbs - 1) '0' ++ digits)
      else
        let whole := expansion.exponent.toNat + 1
        let filled := digits ++ List.replicate (whole - digits.length) '0'
        let fraction := filled.drop whole
        filled.take whole ++ '.' :: (if fraction.isEmpty then ['0'] else fraction)) value

end DampedLeastSquares.Decimal
