import PromptHarness.Text.Stretches
import PromptHarness.Toml.Table

/-!
# Scalars without quotes

A run of plain characters in the place of a value is a truth value, an integer, a float, or a
moment.  Of floats and moments it matters only that they are well formed.
-/

namespace PromptHarness.Toml.Scalar

def digit? (base : Nat) (char : Char) : Option Nat :=
  let value? :=
    if char.isDigit then some (char.toNat - '0'.toNat)
    else if 'a' ≤ char ∧ char ≤ 'f' then some (char.toNat - 'a'.toNat + 10)
    else if 'A' ≤ char ∧ char ≤ 'F' then some (char.toNat - 'A'.toNat + 10)
    else none
  value?.filter (· < base)

/-- The number that digits write; underscores stand between digits only. -/
def digits? (base : Nat) (chars : List Char) : Option Nat :=
  (Text.stretches '_' chars).foldlM
    (fun value group =>
      if group.isEmpty then none
      else group.foldlM (fun value char => (digit? base char).map (value * base + ·)) value)
    0

/-- A sign, if there is one, and the rest. -/
def signed (chars : List Char) : Bool × List Char :=
  match chars with
  | '-' :: rest => (true, rest)
  | '+' :: rest => (false, rest)
  | _ => (false, chars)

/-- Decimal digits that do not begin with a zero, or a zero alone. -/
def decimal? (chars : List Char) : Option Nat :=
  match chars with
  | '0' :: _ :: _ => none
  | _ => digits? 10 chars

/-- The integers that fit into 128 bits, with a sign or without. -/
def fits (number : Int) : Bool := -Nat.pow 2 127 ≤ number && number < Nat.pow 2 128

def integer? (chars : List Char) : Option Int :=
  let number? : Option Int :=
    match chars with
    | '0' :: 'x' :: rest => (digits? 16 rest).map Int.ofNat
    | '0' :: 'o' :: rest => (digits? 8 rest).map Int.ofNat
    | '0' :: 'b' :: rest => (digits? 2 rest).map Int.ofNat
    | _ =>
      let (negative, rest) := signed chars
      (decimal? rest).map fun number => if negative then -Int.ofNat number else Int.ofNat number
  number?.filter fits

/-- The numbers from here on round to infinity: halfway between the greatest float and the next
power of two. -/
def floatBound : Nat := Nat.pow 2 1024 - Nat.pow 2 970

/-- Whether `mantissa` times ten to the power of `exponent` is below the bound of floats.  So many
digits settle it that no large power need be computed. -/
def isFinite (mantissa : Nat) (exponent : Int) : Bool :=
  let magnitude := (Nat.toDigits 10 mantissa).length + exponent
  mantissa = 0 || magnitude < 300 ||
    (magnitude < 320 &&
      (if 0 ≤ exponent then mantissa * Nat.pow 10 exponent.toNat < floatBound
      else mantissa < floatBound * Nat.pow 10 exponent.natAbs))

/-- The exponent of a float, if one is written well. -/
def exponent? (chars : List Char) : Option Int :=
  let (negative, rest) := signed chars
  (digits? 10 rest).map fun number => if negative then -Int.ofNat number else Int.ofNat number

def splitExponent (chars : List Char) : List Char × Option (List Char) :=
  let isLetter (char : Char) := char == 'e' || char == 'E'
  match chars.dropWhile (!isLetter ·) with
  | _ :: rest => (chars.takeWhile (!isLetter ·), some rest)
  | [] => (chars, none)

/-- A float: whole digits, then places or an exponent or both; or one of the names. -/
def isFloat (chars : List Char) : Bool :=
  let (_, rest) := signed chars
  if rest = ['i', 'n', 'f'] ∨ rest = ['n', 'a', 'n'] then true
  else
    let (mantissa, power) := splitExponent rest
    let power? : Option Int := power.elim (some 0) exponent?
    match Text.stretches '.' mantissa, power? with
    | [whole], some power =>
      (decimal? whole).any fun number =>
        decide (rest ≠ mantissa) && isFinite number power
    | [whole, places], some power =>
      (decimal? whole).any fun number =>
        (digits? 10 places).any fun fraction =>
          let count := (places.filter (· != '_')).length
          isFinite (number * Nat.pow 10 count + fraction) (power - count)
    | _, _ => false

/-! ## Moments -/

/-- The number that exactly `count` digits write. -/
def fixed? (count : Nat) (chars : List Char) : Option Nat :=
  if chars.length = count ∧ chars.all Char.isDigit then digits? 10 chars else none

def isLeapYear (year : Nat) : Bool :=
  year % 4 = 0 && (year % 100 != 0 || year % 400 = 0)

def daysIn (year month : Nat) : Nat :=
  if month = 2 then (if isLeapYear year then 29 else 28)
  else if [4, 6, 9, 11].contains month then 30
  else 31

def isDate (chars : List Char) : Bool :=
  match Text.stretches '-' chars with
  | [year, month, day] =>
    match fixed? 4 year, fixed? 2 month, fixed? 2 day with
    | some year, some month, some day =>
      1 ≤ month && month ≤ 12 && 1 ≤ day && day ≤ daysIn year month
    | _, _, _ => false
  | _ => false

def isBelow (bound : Nat) (chars : List Char) : Bool :=
  (fixed? 2 chars).any (· < bound)

/-- Seconds, which may be the sixtieth, with places or without. -/
def isSeconds (chars : List Char) : Bool :=
  match Text.stretches '.' chars with
  | [whole] => isBelow 61 whole
  | [whole, places] => isBelow 61 whole && !places.isEmpty && places.all Char.isDigit
  | _ => false

def isTime (chars : List Char) : Bool :=
  match Text.stretches ':' chars with
  | [hours, minutes] => isBelow 24 hours && isBelow 60 minutes
  | [hours, minutes, seconds] => isBelow 24 hours && isBelow 60 minutes && isSeconds seconds
  | _ => false

def isOffset (chars : List Char) : Bool :=
  match Text.stretches ':' chars with
  | [hours, minutes] => isBelow 24 hours && isBelow 60 minutes
  | _ => false

/-- A time of day that may be followed by its distance from universal time. -/
def isZonedTime (chars : List Char) : Bool :=
  let isSign (char : Char) := char == '+' || char == '-'
  if chars.getLast? = some 'Z' ∨ chars.getLast? = some 'z' then isTime chars.dropLast
  else match chars.dropWhile (!isSign ·) with
    | _ :: offset => isTime (chars.takeWhile (!isSign ·)) && isOffset offset
    | [] => isTime chars

def isMoment (chars : List Char) : Bool :=
  isDate chars || isTime chars ||
    (isDate (chars.take 10) && ['T', 't', ' '].contains (chars.getD 10 'x') &&
      isZonedTime (chars.drop 11))

def value? (chars : List Char) : Option Value :=
  if chars = "true".toList ∨ chars = "false".toList then some .boolean
  else match integer? chars with
    | some number => some (.integer number)
    | none =>
      if isFloat chars then some .float
      else if isMoment chars then some .moment
      else none

end PromptHarness.Toml.Scalar
