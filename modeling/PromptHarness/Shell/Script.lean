import PromptHarness.Shell.Word
import PromptHarness.Text.Stretches

/-!
# Reading commands

A script is read one line of commands at a time, so a mistake in it shows only after the commands
before it have been performed.  A token that is not wanted is given back to the source, which is how
every list of commands leaves the word that ends it.
-/

namespace PromptHarness.Shell

/-! ## Tokens -/

/-- Drops a remark, up to the end of its line. -/
def dropRemark : Nat → Read Unit
  | 0 => return
  | fuel + 1 => do
    match (← get).rest with
    | [] | '\n' :: _ => return
    | _ =>
      Read.drop
      dropRemark fuel

/-- The arrow that begins with a character, which has been taken. -/
def arrowFrom (char : Char) : Read Arrow := do
  if char = '>' then
    if ← Read.skips '>' then return .file .forAppending
    else if ← Read.skips '|' then return .file .forReplacing
    else if ← Read.skips '&' then return .copy
    else return .file .forWriting
  else
    if ← Read.skips '<' then return .document (← Read.skips '-')
    else if ← Read.skips '&' then return .copy
    else if ← Read.skips '>' then return .file .forBoth
    else return .file .forReading

/-- The descriptor that an arrow is about: what stands before it, or else the usual one. -/
def descriptorOf (char : Char) : Word → Option Nat
  | [] => some (if char = '>' then 1 else 0)
  | [.text false [digit]] => if digit.isDigit then some (digit.toNat - '0'.toNat) else none
  | _ => none

/-- The next token that was not given back. -/
def freshToken (inner : Read Command) (setting : Setting) : Nat → Read Token
  | 0 => return .mark .ending
  | fuel + 1 => do
    let some char ← Read.glance | return .mark .ending
    let single (mark : Mark) : Read Token := do
      Read.drop
      return .mark mark
    let double (one two : Mark) : Read Token := do
      Read.drop
      return .mark (if ← Read.skips char then two else one)
    match char with
    | ' ' | '\t' =>
      Read.drop
      freshToken inner setting fuel
    | '#' =>
      dropRemark fuel
      freshToken inner setting fuel
    | '\n' => single .newline
    | '(' => single .opening
    | ')' => single .closing
    | '&' => double .ampersand .both
    | '|' => double .bar .either
    | ';' => double .semicolon .doubleSemicolon
    | _ =>
      let word := merge (← parts inner setting 0 fuel)
      match ← Read.glance with
      | some sign =>
        if sign = '<' ∨ sign = '>' then
          match descriptorOf sign word with
          | some descriptor =>
            Read.drop
            return .arrow descriptor (← arrowFrom sign)
          | none => return .word word
        else return .word word
      | none => return .word word

/-- A word as the word of the language that it is. -/
def Token.asKeyword (token : Token) : Token :=
  match token with
  | .word spelled => (((plain? spelled).bind Mark.keyword?).map Token.mark).getD token
  | other => other

/-- The next token.  Ends of lines are passed over, and words of the language known, where that is
asked for. -/
def next (inner : Read Command) (newlines keywords : Bool) : Nat → Read Token
  | 0 => return .mark .ending
  | fuel + 1 => do
    let source ← get
    let token ← match source.held with
      | some token =>
        set { source with held := none }
        pure token
      | none => freshToken inner .bare fuel
    match (if keywords then token.asKeyword else token), newlines with
    | .mark .newline, true => next inner newlines keywords fuel
    | .word word, _ =>
      match if keywords then plain? word else none with
      | some name =>
        if ← Read.replaces name then next inner newlines keywords fuel else return .word word
      | none => return .word word
    | token, _ => return token

/-! ## Documents -/

def goesOn (line : List Char) : Bool :=
  ((line.reverse.takeWhile (· == '\x5c')).length % 2) == 1

/-- The lines before the one that is the delimiter, how many lines that takes, and the lines behind
it.  Where the document is plain, a line that goes on keeps the next one from being the
delimiter. -/
def documentLines (indented plain : Bool) (delimiter : List Char) (fresh : Bool) :
    List (List Char) → List (List Char) × Option (List (List Char))
  | [] => ([], none)
  | line :: rest =>
    let line := if indented then line.dropWhile (· == '\t') else line
    if fresh ∧ line = delimiter then ([], some rest)
    else
      let (lines, behind) :=
        documentLines indented plain delimiter (plain || !goesOn line) rest
      (line :: lines, behind)

/-- Takes the text of a document out from behind the line being read. -/
def takeDocument (indented plain : Bool) (delimiter : List Char) : Read (List Char) := do
  let source ← get
  let line := source.rest.takeWhile (· != '\n')
  match source.rest.dropWhile (· != '\n') with
  | [] => return []
  | _ :: behind =>
    match documentLines indented plain delimiter true (Text.stretches '\n' behind) with
    | (lines, some left) =>
      set
        { source with
          rest := line ++ '\n' :: ['\n'].intercalate left
          removed := source.removed + lines.length + 1 }
      return lines.flatMap (· ++ ['\n'])
    | (lines, none) =>
      set { source with rest := line ++ ['\n'] }
      return ['\n'].intercalate lines

/-! ## Commands -/

/-- The text of a word as it is spelled, without quotes. -/
def spelling (word : Word) : List Char :=
  word.flatMap fun
    | .text _ chars => chars
    | _ => []

def hasQuotes (word : Word) : Bool :=
  word.any fun
    | .text quoted _ => quoted
    | _ => false

def assignment? (word : Word) : Option (List Char × Word) :=
  match word with
  | .text false chars :: rest =>
    let name := chars.takeWhile (· != '=')
    match chars.dropWhile (· != '=') with
    | _ :: value =>
      if isName name then some (name, (if value.isEmpty then [] else [.text false value]) ++ rest)
      else none
    | [] => none
  | _ => none

/-- What an arrow does, with the word behind it. -/
def redirection (inner : Read Command) (descriptor : Nat) (arrow : Arrow) (fuel : Nat) :
    Read Redirection := do
  let setting := match arrow with
    | .document _ => .delimiter
    | _ => .bare
  match ← freshToken inner setting fuel, arrow with
  | .word word, .file opening => return .file descriptor opening word
  | .word word, .copy => return .copy descriptor word
  | .word word, .document indented =>
    let line := (← get).line
    let quoted := hasQuotes word
    let chars ← takeDocument indented quoted (spelling word)
    if quoted then return .document descriptor [.text true chars]
    else
      return .document descriptor
        (merge (← Read.aside chars (line + 1) (parts inner .document 0 fuel)))
  | token, _ => Read.unexpected token none

/-- The redirections behind a command. -/
def redirections (inner : Read Command) (keywords : Bool) : Nat → Read (List Redirection)
  | 0 => return []
  | fuel + 1 => do
    match ← next inner false keywords fuel with
    | .arrow descriptor arrow =>
      let first ← redirection inner descriptor arrow fuel
      return first :: (← redirections inner false fuel)
    | token =>
      Read.hold token
      return []

def words (inner : Read Command) : Nat → Read (List Word)
  | 0 => return []
  | fuel + 1 => do
    match ← next inner false false fuel with
    | .word word => return word :: (← words inner fuel)
    | token =>
      Read.hold token
      return []

/-- Goes past a mark that has to come next. -/
def expect (inner : Read Command) (mark : Mark) (newlines : Bool) (fuel : Nat) : Read Unit := do
  match ← next inner newlines newlines fuel with
  | .mark found =>
    if found = mark then return else Read.unexpected (.mark found) (some mark.name)
  | token => Read.unexpected token (some mark.name)

/-- The commands whose names a function may not have, as they act on the shell itself. -/
def specialNames : List String :=
  [".", ":", "break", "continue", "eval", "exec", "exit", "export", "local", "readonly", "return",
    "set", "shift", "times", "trap", "unset"]

/-- How the commands of a simple command have been read so far. -/
structure Draft where
  settings : List (List Char × Word)
  words : List Word
  redirections : List Redirection

/-- Where a list of commands stands: on a line of its own, where at least one command has to be, or
where there may be none. -/
inductive ListKind where
  | line
  | needed
  | optional
  deriving Repr, DecidableEq

def andThen : Option Command → Command → Command
  | none, command => command
  | some first, second => .sequence first second

mutual

def list (kind : ListKind) (before : Option Command) : Nat → Read (Option Command)
  | 0 => return before
  | fuel + 1 => do
    let inner := substitution fuel
    let token ← next inner (kind ≠ .line) true fuel
    match token with
    | .mark .newline => return before
    | .mark .ending =>
      Read.hold token
      return before
    | token =>
      Read.hold token
      let ended : Bool := match token with
        | .mark mark => mark.endsList
        | _ => false
      if ended ∧ (kind = .optional ∨ kind = .needed ∧ before.isSome) then return before
      let command ← connected fuel
      match ← next inner false false fuel with
      | .mark .ampersand => list kind (some (andThen before (.background command))) fuel
      | .mark .semicolon => list kind (some (andThen before command)) fuel
      | .mark .newline =>
        Read.hold (.mark .newline)
        list kind (some (andThen before command)) fuel
      | .mark .ending =>
        Read.hold (.mark .ending)
        return some (andThen before command)
      | token =>
        if kind = .line then Read.unexpected token none
        Read.hold token
        return some (andThen before command)

def substitution : Nat → Read Command
  | 0 => return .nothing
  | fuel + 1 => return (← list .optional none fuel).getD .nothing

def body : Nat → Read Command
  | 0 => return .nothing
  | fuel + 1 => return (← list .needed none fuel).getD .nothing

/-- Pipelines with `&&` and `||` between them. -/
def connected : Nat → Read Command
  | 0 => return .nothing
  | fuel + 1 => do
    let first ← pipeline fuel
    connectedTo first fuel

/-- What is connected to a pipeline that has been read. -/
def connectedTo (first : Command) : Nat → Read Command
  | 0 => return first
  | fuel + 1 => do
    match ← next (substitution fuel) false false fuel with
    | .mark .both =>
      let second ← pipeline fuel
      connectedTo (.both first second) fuel
    | .mark .either =>
      let second ← pipeline fuel
      connectedTo (.either first second) fuel
    | token =>
      Read.hold token
      return first

/-- A pipeline, which `!` may stand before. -/
def pipeline : Nat → Read Command
  | 0 => return .nothing
  | fuel + 1 => do
    match ← next (substitution fuel) true true fuel with
    | .mark .bang => return .negation (← stages fuel)
    | token =>
      Read.hold token
      stages fuel

def stages : Nat → Read Command
  | 0 => return .nothing
  | fuel + 1 => do
    let first ← command false fuel
    match ← moreStages fuel with
    | [] => return first
    | rest => return .pipeline (first :: rest)

/-- The stages behind the first. -/
def moreStages : Nat → Read (List Command)
  | 0 => return []
  | fuel + 1 => do
    match ← next (substitution fuel) false false fuel with
    | .mark .bar =>
      let stage ← command true fuel
      return stage :: (← moreStages fuel)
    | token =>
      Read.hold token
      return []

def command (newlines : Bool) : Nat → Read Command
  | 0 => return .nothing
  | fuel + 1 => do
    let inner := substitution fuel
    let line := (← get).line
    let redirected (command : Command) : Read Command := do
      match ← redirections inner true fuel with
      | [] => return command
      | found =>
        match command with
        | .subshell line body _ => return .subshell line body found
        | other => return .redirected line other found
    match ← next inner newlines true fuel with
    | .mark .ifWord =>
      let found ← conditional fuel
      expect inner .fiWord false fuel
      redirected found
    | .mark .whileWord => redirected (← loop true fuel)
    | .mark .untilWord => redirected (← loop false fuel)
    | .mark .forWord =>
      match ← next inner false false fuel with
      | .word word =>
        match plain? word with
        | some name =>
          if isName name then redirected (← each line name fuel)
          else Read.fail "Bad for loop variable"
        | none => Read.fail "Bad for loop variable"
      | _ => Read.fail "Bad for loop variable"
    | .mark .caseWord =>
      match ← next inner false false fuel with
      | .word subject =>
        expect inner .inWord true fuel
        redirected (.choice line subject (← clauses fuel))
      | token => Read.unexpected token (some "word")
    | .mark .opening =>
      let found ← body fuel
      expect inner .closing false fuel
      redirected (.subshell line found [])
    | .mark .openBrace =>
      let found ← body fuel
      expect inner .closeBrace false fuel
      redirected found
    | .mark mark => Read.unexpected (.mark mark) none
    | token =>
      Read.hold token
      simple (← get).line true ⟨[], [], []⟩ fuel

/-- What follows `if` or `elif`, up to `fi`. -/
def conditional : Nat → Read Command
  | 0 => return .nothing
  | fuel + 1 => do
    let inner := substitution fuel
    let condition ← body fuel
    expect inner .thenWord false fuel
    let found ← body fuel
    match ← next inner false false fuel with
    | .mark .elifWord => return .conditional condition found (← conditional fuel)
    | .mark .elseWord => return .conditional condition found (← body fuel)
    | token =>
      Read.hold token
      return .conditional condition found .nothing

/-- What follows `while` or `until`. -/
def loop (onSuccess : Bool) : Nat → Read Command
  | 0 => return .nothing
  | fuel + 1 => do
    let inner := substitution fuel
    let condition ← body fuel
    expect inner .doWord false fuel
    let found ← body fuel
    expect inner .doneWord false fuel
    return .loop onSuccess condition found

/-- What follows the name behind `for`. -/
def each (line : Nat) (name : List Char) : Nat → Read Command
  | 0 => return .nothing
  | fuel + 1 => do
    let inner := substitution fuel
    let found ← match ← next inner true true fuel with
      | .mark .inWord => do
        let found ← words inner fuel
        match ← next inner false false fuel with
        | .mark .newline | .mark .semicolon => pure found
        | token => Read.unexpected token none
      | .mark .semicolon => pure [allArguments]
      | token => do
        Read.hold token
        pure [allArguments]
    expect inner .doWord true fuel
    let repeated ← body fuel
    expect inner .doneWord false fuel
    return .each line name found repeated

def clauses : Nat → Read (List (List Word × Command))
  | 0 => return []
  | fuel + 1 => do
    let inner := substitution fuel
    match ← next inner true true fuel with
    | .mark .esacWord => return []
    | token =>
      let first ← match token with
        | .mark .opening => next inner false false fuel
        | other => pure other
      let patterns ← patterns first fuel
      let found := (← list .optional none fuel).getD .nothing
      match ← next inner true true fuel with
      | .mark .esacWord => return [(patterns, found)]
      | .mark .doubleSemicolon => return (patterns, found) :: (← clauses fuel)
      | token => Read.unexpected token (some Mark.doubleSemicolon.name)

/-- The patterns of a clause, of which the first has been read, and the parenthesis behind
them. -/
def patterns (first : Token) : Nat → Read (List Word)
  | 0 => return []
  | fuel + 1 => do
    let inner := substitution fuel
    let word := match first with
      | .word word => word
      | .mark mark => [.text false ((Mark.keywords.find? (·.2 = mark)).elim [] (·.1.toList))]
      | _ => []
    match ← next inner false false fuel with
    | .mark .bar =>
      let second ← next inner false false fuel
      return word :: (← patterns second fuel)
    | .mark .closing => return [word]
    | token => Read.unexpected token (some Mark.closing.name)

/-- A command of words, or the definition of a function. -/
def simple (line : Nat) (assigning : Bool) (draft : Draft) : Nat → Read Command
  | 0 => return .nothing
  | fuel + 1 => do
    let inner := substitution fuel
    match ← next inner false false fuel with
    | .word word =>
      match assigning, assignment? word with
      | true, some setting =>
        simple line true { draft with settings := draft.settings ++ [setting] } fuel
      | _, _ => simple line false { draft with words := draft.words ++ [word] } fuel
    | .arrow descriptor arrow =>
      let found ← redirection inner descriptor arrow fuel
      simple line assigning { draft with redirections := draft.redirections ++ [found] } fuel
    | token =>
      match token, draft with
      | .mark .opening, ⟨[], [word], []⟩ =>
        expect inner .closing false fuel
        match plain? word with
        | some name =>
          if isName name ∧ ¬specialNames.contains (String.ofList name) then
            return .define name (← command true fuel)
          else Read.fail "Bad function name"
        | none => Read.fail "Bad function name"
      | token, draft =>
        Read.hold token
        return .simple line draft.settings draft.words draft.redirections

end

/-- How deep the reading of a text may go.  Every character is passed within a few calls. -/
def readingDepth (source : Source) : Nat := 16 * (source.rest.length + 4)

/-- The next line of commands, if the text does not end before one. -/
def line : Read (Option Command) := do
  modify fun source => { source with held := none }
  list .line none (readingDepth (← get))

end PromptHarness.Shell
