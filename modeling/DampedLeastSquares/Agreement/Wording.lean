import DampedLeastSquares.Decimal.Text

/-!
# Wordings with a count

A text that says with directives where, and how, a count is put in. A directive
is a percent sign, flags, a width, a precision, and a letter that names the way
of writing. There is one count, so the second directive finds no value.
-/

set_option autoImplicit false

namespace DampedLeastSquares.Wording

/-- What a directive asks for besides its letter. -/
structure Directive where
  leftAligned : Bool
  signed : Bool
  blank : Bool
  zeroFilled : Bool
  /-- Digits of a base other than ten are marked with the base. -/
  marked : Bool
  width : Nat
  precision? : Option Nat

def Directive.plain : Directive := ⟨false, false, false, false, false, 0, none⟩

/-- Why a wording cannot be written. -/
inductive Flaw where
  /-- A directive ends before its letter, or its letter has no meaning. -/
  | unreadable
  /-- A directive needs a value, and the count is used up or does not fit. -/
  | valueMissing
  /-- A directive asks for a value by its name. -/
  | valueNamed

def readFlags : List Char → Directive → Directive × List Char
  | '-' :: rest, directive => readFlags rest { directive with leftAligned := true }
  | '+' :: rest, directive => readFlags rest { directive with signed := true }
  | ' ' :: rest, directive => readFlags rest { directive with blank := true }
  | '0' :: rest, directive => readFlags rest { directive with zeroFilled := true }
  | '#' :: rest, directive => readFlags rest { directive with marked := true }
  | rest, directive => (directive, rest)

/-- The number that a list of digits begins with, and the rest. A star in its
place asks for another value. -/
def readNumber : List Char → Except Flaw (Nat × List Char)
  | '*' :: _ => .error .valueMissing
  | text =>
      let digits := text.takeWhile Char.isDigit
      .ok (digits.foldl (fun number digit => 10 * number + (digit.toNat - '0'.toNat)) 0,
        text.dropWhile Char.isDigit)

/-- Skip one letter that tells the size of a number. -/
def dropSize : List Char → List Char
  | 'h' :: rest => rest
  | 'l' :: rest => rest
  | 'L' :: rest => rest
  | rest => rest

/-- The name in parentheses that a directive may begin with has to end. -/
def closesName : Nat → List Char → Bool
  | _, [] => false
  | depth, ')' :: rest => depth = 0 || closesName (depth - 1) rest
  | depth, '(' :: rest => closesName (depth + 1) rest
  | depth, _ :: rest => closesName depth rest

def readDirective (text : List Char) : Except Flaw (Directive × List Char) := do
  match text with
  | '(' :: rest => throw (if closesName 0 rest then .valueNamed else .unreadable)
  | _ =>
      let (directive, rest) := readFlags text .plain
      let (width, rest) ← readNumber rest
      let directive := { directive with width := width }
      match rest with
      | '.' :: rest =>
          let (precision, rest) ← readNumber rest
          return ({ directive with precision? := some precision }, dropSize rest)
      | rest => return (directive, dropSize rest)

def aligned (directive : Directive) (text : List Char) : List Char :=
  let blanks := List.replicate (directive.width - text.length) ' '
  if directive.leftAligned then text ++ blanks else blanks ++ text

/-- The digits of a number that is not negative, with a sign if one is asked for,
after a mark of their base, and padded to the width. -/
def numeral (directive : Directive) (mark digits : List Char) : List Char :=
  let sign := if directive.signed then ['+'] else if directive.blank then [' '] else []
  let lead := sign ++ mark
  let missing := directive.width - (lead.length + digits.length)
  if directive.zeroFilled && !directive.leftAligned then
    lead ++ List.replicate missing '0' ++ digits
  else aligned directive (lead ++ digits)

/-- The digits of a count in a base, as many as the precision asks for. -/
def wholeNumeral (directive : Directive) (base : Nat) (mark : List Char) (upper : Bool)
    (count : Nat) : List Char :=
  let found := Nat.toDigits base count
  let digits := if upper then found.map Char.toUpper else found
  numeral directive (if directive.marked then mark else [])
    (List.replicate (directive.precision?.getD 1 - digits.length) '0' ++ digits)

/-- The text of a count, cut off at the precision. -/
def spelled (directive : Directive) (text : String) : List Char :=
  let characters := text.toList
  aligned directive ((directive.precision?.map characters.take).getD characters)

/-- A count written by a function that takes a number of places. -/
def pointed (directive : Directive) (write : Nat → Float → String) (count : Nat) : List Char :=
  numeral directive [] (write (directive.precision?.getD 6) (Float.ofNat count)).toList

def write (directive : Directive) (letter : Char) (count : Nat) : Except Flaw (List Char) :=
  match letter with
  | 'd' => .ok (wholeNumeral directive 10 [] false count)
  | 'i' => .ok (wholeNumeral directive 10 [] false count)
  | 'u' => .ok (wholeNumeral directive 10 [] false count)
  | 'o' => .ok (wholeNumeral directive 8 ['0', 'o'] false count)
  | 'x' => .ok (wholeNumeral directive 16 ['0', 'x'] false count)
  | 'X' => .ok (wholeNumeral directive 16 ['0', 'X'] true count)
  | 's' => .ok (spelled directive (toString count))
  | 'r' => .ok (spelled directive (toString count))
  | 'a' => .ok (spelled directive (toString count))
  | 'c' => .ok (aligned directive [Char.ofNat count])
  | 'f' => .ok (pointed directive Decimal.fixed count)
  | 'F' => .ok (pointed directive Decimal.fixed count)
  | 'e' => .ok (pointed directive Decimal.scientific count)
  | 'E' => .ok (pointed directive Decimal.scientificUpper count)
  | 'g' => .ok (pointed directive Decimal.generalTo count)
  | 'G' => .ok (pointed directive (fun digits value =>
      (Decimal.generalTo digits value).toUpper) count)
  | _ => .error .unreadable

/-- Put a count into a text, character by character. A doubled percent sign
stands for itself. -/
def insert (count? : Option Nat) : Nat → List Char → Except Flaw (List Char)
  | 0, _ => .ok []
  | _, [] => .ok []
  | fuel + 1, '%' :: '%' :: rest => return '%' :: (← insert count? fuel rest)
  | fuel + 1, '%' :: rest => do
      let (directive, rest) ← readDirective rest
      match rest, count? with
      | [], _ => throw .unreadable
      | _ :: _, none => throw .valueMissing
      | letter :: rest, some count =>
          let written ← write directive letter count
          return written ++ (← insert none fuel rest)
  | fuel + 1, letter :: rest => return letter :: (← insert count? fuel rest)

def withCount (text : String) (count : Nat) : Except Flaw String :=
  (insert (some count) text.length text.toList).map String.ofList

end DampedLeastSquares.Wording
