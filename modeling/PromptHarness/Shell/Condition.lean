import PromptHarness.Shell.Calculation
import PromptHarness.Files

/-!
# Conditions

What `test` decides: tests of texts, of whole numbers and of files, with `!`, `-a`, `-o` and
parentheses.  Three arguments with an operator in the middle are always that test, whatever else the
outer ones may look like.
-/

namespace PromptHarness.Shell

/-- The kinds of words in a condition. -/
inductive TestKind where
  | unary
  | binary
  | not
  | and
  | or
  | opening
  | closing
  deriving Repr, DecidableEq

/-- The words that mean something in a condition. -/
def testKind? (word : Raw) : Option TestKind :=
  let text := String.ofList word
  if ["-r", "-w", "-x", "-e", "-f", "-d", "-c", "-b", "-p", "-u", "-g", "-k", "-s", "-t", "-z",
      "-n", "-h", "-O", "-G", "-L", "-S"].contains text then some .unary
  else if ["=", "!=", "<", ">", "-eq", "-ne", "-gt", "-ge", "-lt", "-le", "-nt", "-ot",
      "-ef"].contains text then some .binary
  else if text = "!" then some .not
  else if text = "-a" then some .and
  else if text = "-o" then some .or
  else if text = "(" then some .opening
  else if text = ")" then some .closing
  else none

/-- What conditions are decided by. -/
structure Evidence where
  files : Files
  /-- The descriptors that are connected to a terminal. -/
  terminals : List Nat

/-- The whole number that a word is in decimal digits. -/
def decimal? (word : Raw) : Option Int :=
  let front := word.dropWhile isSpace
  let (negative, front) := match front with
    | '-' :: rest => (true, rest)
    | '+' :: rest => (false, rest)
    | rest => (false, rest)
  let (value, rest) := digits 10 front
  if (front.head?.map Char.isDigit).getD false ∧ rest.all isSpace ∧ value ≤ largest then
    some (if negative then -(value : Int) else value)
  else none

/-- A condition in a row of words, read from some word on; a complaint puts an end to it. -/
abbrev Judge := StateT (List Raw) (Except Raw)

namespace Condition

def noNumber (word : Raw) : Raw := raw "Illegal number: " ++ word

def wholeNumber (word : Raw) : Except Raw Int :=
  match decimal? word with
  | some value => .ok value
  | none => .error (noNumber word)

/-- The order of two texts by their characters. -/
def isBefore : Raw → Raw → Bool
  | [], right => !right.isEmpty
  | _ :: _, [] => false
  | first :: left, second :: right =>
    if first = second then isBefore left right else decide (first < second)

def unary (evidence : Evidence) (operator operand : Raw) : Except Raw Bool :=
  let node? := (evidence.files.stat operand.text).toOption
  match operator with
  | ['-', 'z'] => .ok operand.isEmpty
  | ['-', 'n'] => .ok !operand.isEmpty
  | ['-', 't'] => do
    let number ← wholeNumber operand
    return evidence.terminals.any fun terminal => (terminal : Int) = number
  | ['-', letter] => .ok <|
    match letter, node? with
    | _, none => false
    | 'f', some (.file ..) => true
    | 'd', some .directory => true
    | 'c', some .sink => true
    | 'x', some (.file _ mode) => mode &&& 0o111 != 0
    | 'x', some .directory => true
    | 's', some (.file content _) => !content.isEmpty
    | 's', some .directory => true
    | letter, some _ => ['e', 'r', 'w', 'O', 'G'].contains letter
  | _ => .ok false

def binary (evidence : Evidence) (left operator right : Raw) : Except Raw Bool :=
  let compare (test : Int → Int → Bool) : Except Raw Bool := do
    let first ← wholeNumber left
    let second ← wholeNumber right
    return test first second
  match String.ofList operator with
  | "=" => .ok (left == right)
  | "!=" => .ok (left != right)
  | "<" => .ok (isBefore left right)
  | ">" => .ok (isBefore right left)
  | "-eq" => compare (· == ·)
  | "-ne" => compare (· != ·)
  | "-gt" => compare fun first second => decide (second < first)
  | "-ge" => compare fun first second => decide (second ≤ first)
  | "-lt" => compare fun first second => decide (first < second)
  | "-le" => compare fun first second => decide (first ≤ second)
  | "-ef" =>
    match evidence.files.locate left.text, evidence.files.locate right.text with
    | .ok first, .ok second => .ok (first == second)
    | _, _ => .ok false
  | _ => .ok false

def kindAt (words : List Raw) : Option TestKind :=
  match words with
  | [] => none
  | word :: rest =>
    match testKind? word with
    | some .unary =>
      match rest with
      | [] => none
      | [_] => some .unary
      | operator :: _ => if testKind? operator = some .binary then none else some .unary
    | some .opening => if rest.isEmpty then none else some .opening
    | kind => kind

def skip (count : Nat) : Judge Unit := modify (·.drop count)

def fail {α : Type} (word : Raw) (complaint : String) : Judge α :=
  throw (if word.isEmpty then raw complaint else word ++ raw (": " ++ complaint))

/-- The first word is an operand, whatever it looks like, where `plain` holds. -/
def kindHere (plain : Bool) (words : List Raw) : Option TestKind :=
  if plain then none else kindAt words

mutual

/-- Conditions with `-o` between them.  Each leaves its last word. -/
def disjunction (evidence : Evidence) (plain : Bool) : Nat → Judge Bool
  | 0 => return false
  | fuel + 1 => do
    let first ← conjunction evidence plain fuel
    if kindAt ((← get).drop 1) = some .or then
      skip 2
      let second ← disjunction evidence false fuel
      return first || second
    else return first

/-- Conditions with `-a` between them. -/
def conjunction (evidence : Evidence) (plain : Bool) : Nat → Judge Bool
  | 0 => return false
  | fuel + 1 => do
    let first ← negation evidence plain fuel
    if kindAt ((← get).drop 1) = some .and then
      skip 2
      let second ← conjunction evidence false fuel
      return first && second
    else return first

/-- A condition, which `!` may stand before. -/
def negation (evidence : Evidence) (plain : Bool) : Nat → Judge Bool
  | 0 => return false
  | fuel + 1 => do
    if kindHere plain (← get) = some .not then
      if ((← get).drop 1).isEmpty then return true
      skip 1
      return !(← negation evidence false fuel)
    else primary evidence plain fuel

/-- A test, a condition in parentheses, or a text that holds unless it is empty. -/
def primary (evidence : Evidence) (plain : Bool) : Nat → Judge Bool
  | 0 => return false
  | fuel + 1 => do
    match kindHere plain (← get), ← get with
    | _, [] => return false
    | some .opening, _ :: rest =>
      skip 1
      if kindAt rest = some .closing then return false
      let found ← disjunction evidence false fuel
      skip 1
      if kindAt (← get) ≠ some .closing then fail [] "closing paren expected"
      return found
    | some .unary, operator :: rest =>
      skip 1
      match rest with
      | operand :: _ => unary evidence operator operand
      | [] => fail operator "argument expected"
    | _, word :: rest =>
      if kindAt rest ≠ some .binary then return !word.isEmpty
      match rest with
      | operator :: operand :: _ =>
        skip 2
        binary evidence word operator operand
      | operator :: [] => fail operator "argument expected"
      | [] => return false

end

/-- Decides a condition; more words than it takes are a mistake. -/
def whole (evidence : Evidence) (plain : Bool) (words : List Raw) : Except Raw Bool := do
  let (found, left) ← (disjunction evidence plain (4 * words.length + 8)).run words
  match left with
  | word :: _ :: _ => throw (word ++ raw ": unexpected operator")
  | _ => return found

def holds (evidence : Evidence) : List Raw → Except Raw Bool
  | [] => .ok false
  | words =>
    match words with
    | [first, second, third] =>
      if testKind? second = some .binary then whole evidence true words
      else if first = ['('] ∧ third = [')'] then whole evidence false [second]
      else if first = ['!'] then (whole evidence false [second, third]).map not
      else whole evidence false words
    | [first, second, third, fourth] =>
      if first = ['('] ∧ fourth = [')'] then whole evidence false [second, third]
      else if first = ['!'] then
        (if testKind? third = some .binary then whole evidence true [second, third, fourth]
        else if second = ['('] ∧ fourth = [')'] then whole evidence false [third]
        else if second = ['!'] then whole evidence false [third, fourth]
        else whole evidence false [second, third, fourth]).map not
      else whole evidence false words
    | words => whole evidence false words

end Condition

end PromptHarness.Shell
