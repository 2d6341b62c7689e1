import PromptHarness.Shell.Calculation

/-!
# Formatted text

What `echo` and `printf` write.  A format is used again as long as that takes arguments away; an
argument that is no number counts as the number it begins with and draws a complaint.
-/

namespace PromptHarness.Shell

/-! ## Backslashes -/

/-- The characters that a letter behind a backslash stands for. -/
def escapes : List (Char × Char) :=
  [('a', '\x07'), ('b', '\x08'), ('e', '\x1b'), ('f', '\x0c'), ('n', '\n'), ('r', '\r'),
    ('t', '\t'), ('v', '\x0b'), ('\x5c', '\x5c')]

def isOctal (char : Char) : Bool := '0' ≤ char && char ≤ '7'

/-- The character with the number that some octal digits at the front make, and what is behind
them. -/
def octal (count : Nat) (raw : Raw) : Char × Raw :=
  let digits := (raw.take count).takeWhile isOctal
  let value := digits.foldl (fun sum digit => sum * 8 + (digit.toNat - '0'.toNat)) 0
  (Char.ofNat (value % 256), raw.drop digits.length)

/-- The character that a backslash with what follows stands for, behind the backslash. -/
def escape (raw : Raw) : Char × Raw :=
  match raw with
  | [] => ('\x5c', [])
  | char :: rest =>
    if isOctal char then octal 3 raw
    else match escapes.lookup char with
      | some meant => (meant, rest)
      | none => ('\x5c', raw)

/-- A text with its backslashes resolved, and whether it asks for nothing more to be written.
Octal numbers may have a zero in front. -/
def unescape : Nat → Raw → Raw × Bool
  | 0, _ => ([], false)
  | fuel + 1, raw =>
    match raw with
    | [] => ([], false)
    | '\x5c' :: 'c' :: _ => ([], true)
    | '\x5c' :: rest =>
      let (char, behind) := match rest with
        | '0' :: digits => octal 3 digits
        | rest => escape rest
      let (text, ended) := unescape fuel behind
      (char :: text, ended)
    | char :: rest =>
      let (text, ended) := unescape fuel rest
      (char :: text, ended)

/-- What `echo` writes: the arguments with blanks between them, and the end of the line unless the
first argument is `-n` or a backslash asks for the end. -/
def echoed (arguments : List Raw) : Raw :=
  let (silent, arguments) := match arguments with
    | ['-', 'n'] :: rest => (true, rest)
    | arguments => (false, arguments)
  let joined := [' '].intercalate arguments
  let (text, ended) := unescape (joined.length + 1) joined
  if ended ∨ silent then text else text ++ ['\n']

/-! ## Numbers as text -/

/-- How a directive of a format asks for something to be written. -/
structure Layout where
  flags : Raw
  width : Nat
  precision : Option Nat

/-- A text with something in front of it, as wide as is asked for; zeros go between the two. -/
def Layout.pad (layout : Layout) (zeros : Bool) (front text : Raw) : Raw :=
  let missing := layout.width - (front.length + text.length)
  if layout.flags.contains '-' then front ++ text ++ List.replicate missing ' '
  else if zeros then front ++ List.replicate missing '0' ++ text
  else List.replicate missing ' ' ++ front ++ text

/-- What stands before a number: its sign, or what is asked for in its place. -/
def Layout.sign (layout : Layout) (negative : Bool) : Raw :=
  if negative then ['-']
  else if layout.flags.contains '+' then ['+']
  else if layout.flags.contains ' ' then [' ']
  else []

def Layout.text (layout : Layout) (text : Raw) : Raw :=
  layout.pad false [] ((layout.precision.map text.take).getD text)

def Layout.whole (layout : Layout) (letter : Char) (value : Int) : Raw :=
  let signed := letter = 'd' ∨ letter = 'i'
  let size := if signed then value.natAbs else (value % 18446744073709551616).toNat
  let base := if letter = 'o' then 8 else if letter = 'x' ∨ letter = 'X' then 16 else 10
  let digits := if size = 0 ∧ layout.precision = some 0 then [] else Nat.toDigits base size
  let digits := List.replicate ((layout.precision.getD 0) - digits.length) '0' ++ digits
  let digits :=
    if letter = 'o' ∧ layout.flags.contains '#' ∧ digits.head? ≠ some '0' then '0' :: digits
    else digits
  let digits := if letter = 'X' then digits.map Char.toUpper else digits
  let front := if signed then layout.sign (value < 0)
    else if base = 16 ∧ layout.flags.contains '#' ∧ size ≠ 0 then ['0', letter] else []
  layout.pad (layout.flags.contains '0' ∧ layout.precision.isNone) front digits

/-! ## Fractions -/

/-- A quotient rounded to the nearest whole number, and to the even one of two. -/
def roundedQuotient (above below : Nat) : Nat :=
  let whole := above / below
  let twice := 2 * (above % below)
  if below < twice ∨ twice = below ∧ whole % 2 = 1 then whole + 1 else whole

/-- Twice, or half, so many times. -/
def scaleBinary (above below : Nat) : Int → Nat × Nat
  | .ofNat places => (above * Nat.pow 2 places, below)
  | .negSucc places => (above, below * Nat.pow 2 (places + 1))

/-- The fraction as a floating-point number of 53 bits holds it. -/
def nearestDouble (above below : Nat) : Nat × Nat :=
  if above = 0 then (0, 1)
  else
    let guess : Int := (above.log2 : Int) - below.log2
    let (upper, lower) := scaleBinary above below (-guess)
    let exponent := if upper < lower then guess - 53 else guess - 52
    let exponent := max exponent (-1074)
    let (upper, lower) := scaleBinary above below (-exponent)
    scaleBinary (roundedQuotient upper lower) 1 exponent

/-- The digits of a fraction with so many places behind the point. -/
def fixedDigits (above below places : Nat) : Raw :=
  let scaled := Nat.toDigits 10 (roundedQuotient (above * Nat.pow 10 places) below)
  let padded := List.replicate (places + 1 - scaled.length) '0' ++ scaled
  let whole := padded.take (padded.length - places)
  if places = 0 then whole else whole ++ '.' :: padded.drop (padded.length - places)

/-- Ten times, or a tenth of, a fraction, so many times. -/
def scaleDecimal (above below : Nat) : Int → Nat × Nat
  | .ofNat places => (above * Nat.pow 10 places, below)
  | .negSucc places => (above, below * Nat.pow 10 (places + 1))

/-- The power of ten by which a fraction has so many places behind one digit, once rounded. -/
def decimalExponent (above below places : Nat) : Int :=
  if above = 0 then 0
  else
    let guess : Int := (Nat.toDigits 10 above).length - (Nat.toDigits 10 below).length
    let (upper, lower) := scaleDecimal above below (-guess)
    let exponent := if upper < lower then guess - 1 else guess
    let (upper, lower) := scaleDecimal above below (places - exponent)
    if Nat.pow 10 (places + 1) ≤ roundedQuotient upper lower then exponent + 1 else exponent

/-- A fraction with one digit before the point and an exponent. -/
def scientificDigits (letter : Char) (above below places : Nat) : Raw × Raw :=
  let exponent := decimalExponent above below places
  let (upper, lower) := scaleDecimal above below (-exponent)
  let digits := Nat.toDigits 10 exponent.natAbs
  (fixedDigits upper lower places,
    letter :: (if exponent < 0 then '-' else '+') ::
      (if digits.length < 2 then '0' :: digits else digits))

def dropZeros (raw : Raw) : Raw :=
  if raw.contains '.' then
    let kept := (raw.reverse.dropWhile (· == '0')).reverse
    if kept.getLast? = some '.' then kept.dropLast else kept
  else raw

/-- A fraction as a floating-point number in one of the notations `e`, `f` and `g`. -/
def Layout.fraction (layout : Layout) (letter : Char) (negative : Bool) (above below : Nat) :
    Raw :=
  let (above, below) := nearestDouble above below
  let places := layout.precision.getD 6
  let mark := if letter.isUpper then 'E' else 'e'
  let digits :=
    if letter = 'f' ∨ letter = 'F' then fixedDigits above below places
    else if letter = 'e' ∨ letter = 'E' then
      let (front, back) := scientificDigits mark above below places
      front ++ back
    else
      let places := max places 1
      let exponent := decimalExponent above below (places - 1)
      let kept := if layout.flags.contains '#' then id else dropZeros
      if exponent < -4 ∨ places ≤ exponent then
        let (front, back) := scientificDigits mark above below (places - 1)
        kept front ++ back
      else kept (fixedDigits above below (places - 1 - exponent).toNat)
  layout.pad (layout.flags.contains '0') (layout.sign negative) digits

/-- The fraction at the front of a text: its sign, what is above and below, and what is behind
it. -/
def fraction? (raw : Raw) : Option (Bool × Nat × Nat × Raw) :=
  let front := raw.dropWhile isSpace
  let (negative, front) := match front with
    | '-' :: rest => (true, rest)
    | '+' :: rest => (false, rest)
    | rest => (false, rest)
  let whole := front.takeWhile Char.isDigit
  let behind := front.dropWhile Char.isDigit
  let (part, behind) := match behind with
    | '.' :: rest => (rest.takeWhile Char.isDigit, rest.dropWhile Char.isDigit)
    | rest => ([], rest)
  if whole.isEmpty ∧ part.isEmpty then none
  else
    let (exponent, behind) := exponentOf behind
    let (above, below) :=
      scaleDecimal (digits 10 (whole ++ part)).1 1 (exponent - (part.length : Int))
    some (negative, above, below, behind)
where
  exponentOf (behind : Raw) : Int × Raw :=
    match behind with
    | letter :: rest =>
      if letter = 'e' ∨ letter = 'E' then
        let (negative, digitsFrom) := match rest with
          | '-' :: more => (true, more)
          | '+' :: more => (false, more)
          | more => (false, more)
        if (digitsFrom.head?.map Char.isDigit).getD false then
          let (value, left) := digits 10 digitsFrom
          (if negative then -((min value 400 : Nat) : Int) else (min value 400 : Nat), left)
        else (0, behind)
      else (0, behind)
    | [] => (0, behind)

/-! ## Formats -/

/-- How far the use of a format has come. -/
structure Printing where
  written : Raw
  arguments : List Raw
  complaints : List Raw
  /-- Something asked for the end. -/
  ended : Bool

namespace Printing

def write (printing : Printing) (raw : Raw) : Printing :=
  { printing with written := printing.written ++ raw }

def take (printing : Printing) : Option Raw × Printing :=
  (printing.arguments.head?, { printing with arguments := printing.arguments.drop 1 })

def complain (printing : Printing) (complaint : Raw) : Printing :=
  { printing with complaints := printing.complaints ++ [complaint] }

/-- A complaint about an argument of which some is left behind its number. -/
def judge (printing : Printing) (argument left : Raw) (inRange : Bool) : Printing :=
  if ¬left.isEmpty then
    printing.complain (argument ++ raw
      (if left.length = argument.length then ": expected numeric value"
      else ": not completely converted"))
  else if !inRange then printing.complain (argument ++ raw ": Numerical result out of range")
  else printing

/-- Takes an argument as a whole number: what it begins with, or behind a quotation mark the number
of its character. -/
def takeNumber (printing : Printing) (signed : Bool) : Int × Printing :=
  match printing.take with
  | (none, printing) => (0, printing)
  | (some argument, printing) =>
    match argument with
    | '\x22' :: rest | '\x27' :: rest => (((rest.head?.map Char.toNat).getD 0 : Nat), printing)
    | argument =>
      let (value, left) := number argument
      let least : Int := if signed then -(largest : Int) - 1 else -(2 * largest + 1 : Nat)
      let most : Int := if signed then largest else (2 * largest + 1 : Nat)
      let held := max least (min most value)
      (held, printing.judge argument left (held = value))

/-- The number that stands in a format, or the next argument where a star does. -/
def measure (printing : Printing) (format : Raw) : Int × Raw × Printing :=
  match format with
  | '*' :: rest =>
    let (value, printing) := printing.takeNumber true
    (value, rest, printing)
  | format =>
    (((digits 10 format).1 : Nat), (digits 10 format).2, printing)

/-- Writes what a directive asks for, given its layout and letter; nothing where the letter means
nothing. -/
def direct (printing : Printing) (layout : Layout) (letter : Char) : Option Printing :=
  if letter = 's' then
    let (argument, printing) := printing.take
    some (printing.write (layout.text (argument.getD [])))
  else if letter = 'b' then
    let (argument, printing) := printing.take
    let argument := argument.getD []
    let (text, ended) := unescape (argument.length + 1) argument
    some { printing.write (layout.text text) with ended := ended }
  else if letter = 'c' then
    let (argument, printing) := printing.take
    some (printing.write (layout.pad false [] [(argument.getD []).headD '\x00']))
  else if ['d', 'i', 'o', 'u', 'x', 'X'].contains letter then
    let (value, printing) := printing.takeNumber (letter = 'd' ∨ letter = 'i')
    some (printing.write (layout.whole letter value))
  else if ['e', 'E', 'f', 'F', 'g', 'G'].contains letter then
    let (argument, printing) := printing.take
    let argument := argument.getD []
    match fraction? argument with
    | some (negative, above, below, left) =>
      some ((printing.judge argument left true).write
        (layout.fraction letter negative above below))
    | none =>
      some ((printing.judge argument argument true).write (layout.fraction letter false 0 1))
  else none

/-- One use of a format, or the complaint that puts an end to it. -/
def once : Nat → Raw → Printing → Printing × Option Raw
  | 0, _, printing => (printing, none)
  | fuel + 1, format, printing =>
    match format with
    | [] => (printing, none)
    | '\x5c' :: rest =>
      let (char, behind) := escape rest
      once fuel behind (printing.write [char])
    | '%' :: '%' :: rest => once fuel rest (printing.write ['%'])
    | '%' :: rest =>
      let isFlag (char : Char) := ['#', '-', '+', ' ', '0'].contains char
      let flags := rest.takeWhile isFlag
      let (width, behind, printing) := printing.measure (rest.dropWhile isFlag)
      let (precision, behind, printing) := match behind with
        | '.' :: more =>
          let (precision, behind, printing) := printing.measure more
          (if precision < 0 then none else some precision.toNat, behind, printing)
        | behind => (none, behind, printing)
      let flags := if width < 0 then '-' :: flags else flags
      match behind with
      | [] => (printing, some (raw "missing format character"))
      | letter :: behind =>
        match printing.direct ⟨flags, width.natAbs, precision⟩ letter with
        | some printing => if printing.ended then (printing, none) else once fuel behind printing
        | none =>
          (printing, some (format.take (format.length - behind.length) ++
            raw ": invalid directive"))
    | char :: rest => once fuel rest (printing.write [char])

/-- Uses a format again while that takes arguments away; `rounds` bounds how often. -/
def uses (format : Raw) : Nat → Printing → Printing × Option Raw
  | 0, printing => (printing, none)
  | rounds + 1, printing =>
    match once (format.length + 1) format printing with
    | (after, none) =>
      if after.ended ∨ after.arguments.isEmpty ∨
          after.arguments.length = printing.arguments.length then (after, none)
      else uses format rounds after
    | stopped => stopped

end Printing

/-- What `printf` writes, its complaints, and the one that puts an end to it. -/
def printed (format : Raw) (arguments : List Raw) : Printing × Option Raw :=
  Printing.uses format (arguments.length + 1) ⟨[], arguments, [], false⟩

end PromptHarness.Shell
