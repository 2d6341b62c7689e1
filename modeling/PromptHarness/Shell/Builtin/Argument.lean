import PromptHarness.Shell.Calculation
import PromptHarness.Shell.Conduct

/-!
# Arguments of commands

What a command of the shell itself is, and how its arguments are understood.  Each takes its
arguments and gives its code.  What a command writes comes out when it is done, behind its
complaints.
-/

namespace PromptHarness.Shell

/-- A command of the shell itself. -/
abbrev Builtin := List Raw → Task Nat

namespace Builtin

def say (given : Raw) : Task Nat := do
  let scope ← get
  if given.isEmpty then return 0
  match scope.descriptors.lookup 1 with
  | some _ =>
    Task.emit 1 given.bytes
    return 0
  | none =>
    Task.complain (scope.speaker ++ raw ": I/O error")
    return 1

def numberOf (word : Raw) : Task Nat := do
  if word.isEmpty ∨ ¬word.all Char.isDigit then Task.fail (raw "Illegal number: " ++ word)
  return (digits 10 word).1

/-- The letters behind one dash, each with its value if it takes one, and the arguments behind
them. -/
def letters (plain valued : List Char) (rest : List Raw) :
    Raw → Task (List (Char × Raw) × List Raw)
  | [] => return ([], rest)
  | letter :: more => do
    if valued.contains letter then
      if ¬more.isEmpty then return ([(letter, more)], rest)
      match rest with
      | value :: behind => return ([(letter, value)], behind)
      | [] => Task.fail (raw "No arg for -" ++ letter :: raw " option")
    else if plain.contains letter then
      let (found, behind) ← letters plain valued rest more
      return ((letter, []) :: found, behind)
    else Task.fail (raw "Illegal option -" ++ [letter])

/-- The options at the front of some arguments, and the arguments behind them. -/
def options (plain valued : List Char) : Nat → List Raw → Task (List (Char × Raw) × List Raw)
  | 0, arguments => return ([], arguments)
  | fuel + 1, arguments => do
    match arguments with
    | ('-' :: first :: more) :: rest =>
      if first = '-' ∧ more.isEmpty then return ([], rest)
      let (found, behind) ← letters plain valued rest (first :: more)
      let (others, left) ← options plain valued fuel behind
      return (found ++ others, left)
    | arguments => return ([], arguments)

def optionsOf (plain valued : String) (arguments : List Raw) :
    Task (List (Char × Raw) × List Raw) :=
  options plain.toList valued.toList (arguments.length + 1) arguments

/-! ## Quotes -/

/-- Quotes and other characters by turns, in quotes of the other kind. -/
def inTurns : Nat → Raw → Raw
  | 0, _ => []
  | fuel + 1, text =>
    let plain := text.takeWhile (· != '\x27')
    let quotes := (text.drop plain.length).takeWhile (· == '\x27')
    let rest := text.drop (plain.length + quotes.length)
    '\x27' :: plain ++ '\x27' ::
      (if quotes.isEmpty then [] else '\x22' :: quotes ++ ['\x22']) ++
      (if rest.isEmpty then [] else inTurns fuel rest)

/-- A text so that the shell reads it back. -/
def singleQuote (text : Raw) : Raw := inTurns (text.length + 1) text

end Builtin

end PromptHarness.Shell
