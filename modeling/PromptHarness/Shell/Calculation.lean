import PromptHarness.Shell.Language

/-!
# Calculations

Whole numbers of 64 bits, with the operators of expressions.  Reading and calculating are one pass
from left to right; what is behind `&&`, `||` or a branch that is not taken is read without being
calculated.
-/

namespace PromptHarness.Shell

/-! ## Numbers -/

def digitValue (char : Char) : Nat :=
  if char.isDigit then char.toNat - '0'.toNat
  else if 'a' ≤ char ∧ char ≤ 'z' then char.toNat - 'a'.toNat + 10
  else if 'A' ≤ char ∧ char ≤ 'Z' then char.toNat - 'A'.toNat + 10
  else 36

/-- The digits of a base at the front, as a number, and what is behind them. -/
def digits (base : Nat) (chars : List Char) : Nat × List Char :=
  ((chars.takeWhile (digitValue · < base)).foldl (fun sum char => sum * base + digitValue char) 0,
    chars.dropWhile (digitValue · < base))

def largest : Nat := 9223372036854775807

/-- The number at the front without a sign: hexadecimal behind `0x`, octal behind `0`, and else
decimal. -/
def unsigned : List Char → Nat × List Char
  | '0' :: letter :: digit :: rest =>
    if (letter = 'x' ∨ letter = 'X') ∧ digitValue digit < 16 then digits 16 (digit :: rest)
    else digits 8 ('0' :: letter :: digit :: rest)
  | '0' :: rest => digits 8 ('0' :: rest)
  | chars => digits 10 chars

def isSpace (char : Char) : Bool := char == ' ' || ('\t' ≤ char && char ≤ '\x0d')

/-- The number at the front of a text, and what is behind it; a text that begins with none is all
left over. -/
def number (chars : List Char) : Int × List Char :=
  let front := chars.dropWhile isSpace
  let (negative, front) := match front with
    | '-' :: rest => (true, rest)
    | '+' :: rest => (false, rest)
    | rest => (false, rest)
  if (front.head?.map Char.isDigit).getD false then
    let (value, rest) := unsigned front
    (if negative then -(value : Int) else value, rest)
  else (0, chars)

/-- A number within the range of 64 bits. -/
def clamp (value : Int) : Int64 :=
  Int64.ofInt (max (-(largest : Int) - 1) (min largest value))

/-- The number that a whole text is; an empty one is zero. -/
def wholeNumber? (chars : List Char) : Option Int64 :=
  let (value, rest) := number chars
  if rest.all isSpace ∧ (clamp value).toInt = value then some (clamp value) else none

/-! ## Expressions -/

inductive Operator where
  | times | divide | modulo | plus | minus | shiftLeft | shiftRight
  | less | most | greater | least | equal | different | bitAnd | bitXor | bitOr
  deriving Repr, DecidableEq

namespace Operator

/-- How tightly the operator binds; the least number is the tightest. -/
def rank : Operator → Nat
  | times | divide | modulo => 0
  | plus | minus => 1
  | shiftLeft | shiftRight => 2
  | less | most | greater | least => 3
  | equal | different => 4
  | bitAnd => 5
  | bitXor => 6
  | bitOr => 7

def apply (left right : Int64) : Operator → Int64
  | times => left * right
  | divide => left / right
  | modulo => left % right
  | plus => left + right
  | minus => left - right
  | shiftLeft => left <<< right
  | shiftRight => left >>> right
  | less => truth (left < right)
  | most => truth (left ≤ right)
  | greater => truth (right < left)
  | least => truth (right ≤ left)
  | equal => truth (left = right)
  | different => truth (left ≠ right)
  | bitAnd => left &&& right
  | bitXor => left ^^^ right
  | bitOr => left ||| right
where
  truth (fact : Bool) : Int64 := if fact then 1 else 0

end Operator

/-- The pieces that an expression is made of. -/
inductive Lexeme where
  | number (value : Int64)
  | name (name : List Char)
  | operator (operator : Operator)
  /-- An equals sign, with the operator before it. -/
  | becomes (operator : Option Operator)
  | not | complement | and | or | question | colon | opening | closing
  /-- The end of the expression. -/
  | ending
  /-- A character that means nothing. -/
  | stray
  deriving Repr, DecidableEq

/-- The operators that an equals sign may follow. -/
def assigning : List (List Char × Operator) :=
  [(['<', '<'], .shiftLeft), (['>', '>'], .shiftRight), (['*'], .times), (['/'], .divide),
    (['%'], .modulo), (['+'], .plus), (['-'], .minus), (['&'], .bitAnd), (['^'], .bitXor),
    (['|'], .bitOr)]

def signs : List (List Char × Lexeme) :=
  [(['&', '&'], .and), (['|', '|'], .or), (['=', '='], .operator .equal),
    (['!', '='], .operator .different), (['<', '='], .operator .most),
    (['>', '='], .operator .least)] ++
  (assigning.map fun entry => (entry.1 ++ ['='], .becomes (some entry.2))) ++
  (assigning.map fun entry => (entry.1, .operator entry.2)) ++
  [(['<'], .operator .less), (['>'], .operator .greater), (['='], .becomes none), (['!'], .not),
    (['~'], .complement), (['?'], .question), ([':'], .colon), (['('], .opening), ([')'], .closing)]

def lexeme (chars : List Char) : Lexeme × List Char :=
  let front := chars.dropWhile fun char => char == ' ' || char == '\t' || char == '\n'
  match front with
  | [] => (.ending, [])
  | char :: rest =>
    if char.isDigit then
      let (value, rest) := unsigned front
      (.number (clamp value), rest)
    else if isNameStart char then
      (.name (front.takeWhile isNameRest), front.dropWhile isNameRest)
    else
      match signs.find? fun entry => entry.1.isPrefixOf front with
      | some (sign, found) => (found, front.drop sign.length)
      | none => (.stray, rest)

/-- The pieces of an expression, with its end or the first character that means nothing last. -/
def lexemes : Nat → List Char → List Lexeme
  | 0, _ => []
  | fuel + 1, chars =>
    match lexeme chars with
    | (.ending, _) => [.ending]
    | (.stray, _) => [.stray]
    | (found, rest) => found :: lexemes fuel rest

/-- Why a calculation has no result. -/
inductive Miscount where
  /-- Something else had to come next, or there is no such quotient. -/
  | about (complaint : String)
  | noNumber (chars : List Char)
  | unset (name : List Char)

/-- What is left of an expression, and the variables. -/
structure Abacus where
  left : List Lexeme
  value? : List Char → Option (List Char)
  /-- Values given to variables, the last one first. -/
  given : List (List Char × Int64)
  /-- A variable without a value is a mistake. -/
  strict : Bool

/-- Calculating, which a mistake puts to an end. -/
abbrev Count := StateT Abacus (Except Miscount)

namespace Count

def peek : Count Lexeme := return (← get).left.headD .ending

def drop : Count Unit := modify fun abacus => { abacus with left := abacus.left.drop 1 }

def fail {α : Type} (complaint : String) : Count α := throw (.about complaint)

/-- The number that a variable holds. -/
def holding (name : List Char) : Count Int64 := do
  let abacus ← get
  match abacus.given.lookup name with
  | some value => return value
  | none =>
    match abacus.value? name with
    | some chars =>
      match wholeNumber? chars with
      | some value => return value
      | none => throw (.noNumber chars)
    | none => if abacus.strict then throw (.unset name) else return 0

/-- The same, unless a division is not possible. -/
def operate (left right : Int64) (operator : Operator) : Count Int64 := do
  if (operator = .divide ∨ operator = .modulo) ∧ right = 0 then fail "division by zero"
  return operator.apply left right

mutual

/-- An assignment, or a value.  Without `live` nothing is calculated. -/
def assignment (live : Bool) : Nat → Count Int64
  | 0 => return 0
  | fuel + 1 => do
    match (← get).left with
    | .name name :: .becomes operator :: rest =>
      modify fun abacus => { abacus with left := rest }
      let value ← assignment live fuel
      if !live then return value
      let value ← match operator with
        | some operator => operate (← holding name) value operator
        | none => pure value
      modify fun abacus => { abacus with given := (name, value) :: abacus.given }
      return value
    | _ => branch live fuel

/-- A choice between two values, or one value. -/
def branch (live : Bool) : Nat → Count Int64
  | 0 => return 0
  | fuel + 1 => do
    let chosen ← disjunction live fuel
    if (← peek) ≠ .question then return chosen
    drop
    let first ← assignment (live && chosen != 0) fuel
    if (← peek) ≠ .colon then fail "expecting \x27:\x27"
    drop
    let second ← branch (live && chosen == 0) fuel
    return if chosen ≠ 0 then first else second

/-- Conjunctions with `||` between them. -/
def disjunction (live : Bool) : Nat → Count Int64
  | 0 => return 0
  | fuel + 1 => do
    let first ← conjunction live fuel
    if (← peek) ≠ .or then return first
    drop
    let second ← disjunction (live && first == 0) fuel
    return if first ≠ 0 ∨ second ≠ 0 then 1 else 0

/-- Operations with `&&` between them. -/
def conjunction (live : Bool) : Nat → Count Int64
  | 0 => return 0
  | fuel + 1 => do
    let first ← primary live fuel
    let first ← chain live 8 first fuel
    if (← peek) ≠ .and then return first
    drop
    let second ← conjunction (live && first != 0) fuel
    return if first ≠ 0 ∧ second ≠ 0 then 1 else 0

/-- Goes on from a value with the operators that bind more tightly than a rank. -/
def chain (live : Bool) (rank : Nat) (first : Int64) : Nat → Count Int64
  | 0 => return first
  | fuel + 1 => do
    match ← peek with
    | .operator operator =>
      if rank ≤ operator.rank then return first
      drop
      let second ← primary live fuel
      let second ← chain live operator.rank second fuel
      let value ← if live then operate first second operator else pure second
      chain live rank value fuel
    | _ => return first

/-- A number, a variable, an expression in parentheses, or one of them behind signs. -/
def primary (live : Bool) : Nat → Count Int64
  | 0 => return 0
  | fuel + 1 => do
    let found ← peek
    drop
    match found with
    | .number value => return value
    | .name name => if live then holding name else return 0
    | .operator .plus => primary live fuel
    | .operator .minus => return -(← primary live fuel)
    | .not => return if (← primary live fuel) = 0 then 1 else 0
    | .complement => return ~~~(← primary live fuel)
    | .opening =>
      let value ← assignment live fuel
      if (← peek) ≠ .closing then fail "expecting \x27)\x27"
      drop
      return value
    | _ => fail "expecting primary"

end

end Count

/-- What an expression results in, and the values that it gives to variables, the first one
first. -/
def calculate (value? : List Char → Option (List Char)) (strict : Bool) (expression : List Char) :
    Except Miscount (Int64 × List (List Char × Int64)) := do
  let pieces := lexemes (expression.length + 1) expression
  let whole : Count Int64 := do
    let value ← Count.assignment true (8 * pieces.length + 8)
    if (← Count.peek) ≠ .ending then Count.fail "expecting EOF"
    return value
  let (value, abacus) ← whole.run ⟨pieces, value?, [], strict⟩
  return (value, abacus.given.reverse)

end PromptHarness.Shell
