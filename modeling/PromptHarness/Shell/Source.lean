import PromptHarness.Shell.Language

/-!
# What is left of a script

A script is read from its front.  The source keeps count of the lines, joins lines where one ends in
a backslash, and holds a token that was read too far.
-/

namespace PromptHarness.Shell

/-- A script that cannot be read, and the line where that shows. -/
structure Mistake where
  line : Nat
  complaint : String
  /-- Nothing but the end of the text is wrong. -/
  unfinished : Bool
  deriving Repr, DecidableEq

/-- The marks that stand between words, and the words that are part of the language. -/
inductive Mark where
  | ending | newline | semicolon | ampersand | both | either | bar | opening | closing
  | doubleSemicolon
  | bang | caseWord | doWord | doneWord | elifWord | elseWord | esacWord | fiWord | forWord | ifWord
  | inWord | thenWord | untilWord | whileWord | openBrace | closeBrace
  deriving Repr, DecidableEq

namespace Mark

def keywords : List (String × Mark) :=
  [("!", bang), ("case", caseWord), ("do", doWord), ("done", doneWord), ("elif", elifWord),
    ("else", elseWord), ("esac", esacWord), ("fi", fiWord), ("for", forWord), ("if", ifWord),
    ("in", inWord), ("then", thenWord), ("until", untilWord), ("while", whileWord),
    ("\x7b", openBrace), ("\x7d", closeBrace)]

def keyword? (chars : List Char) : Option Mark :=
  (keywords.find? fun entry => entry.1.toList = chars).map (·.2)

def name (mark : Mark) : String :=
  let quoted (text : String) := "\"" ++ text ++ "\""
  match mark with
  | ending => "end of file"
  | newline => "newline"
  | semicolon => quoted ";"
  | ampersand => quoted "&"
  | both => quoted "&&"
  | either => quoted "||"
  | bar => quoted "|"
  | opening => quoted "("
  | closing => quoted ")"
  | doubleSemicolon => quoted ";;"
  | other => quoted (((keywords.find? (·.2 = other)).map (·.1)).getD "")

def endsList : Mark → Bool
  | ending | closing | doubleSemicolon | doWord | doneWord | elifWord | elseWord | esacWord
  | fiWord | thenWord | closeBrace => true
  | _ => false

end Mark

inductive Arrow where
  | file (opening : Opening)
  | copy
  | document (indented : Bool)
  deriving Repr, DecidableEq

inductive Token where
  | mark (mark : Mark)
  | word (word : Word)
  | arrow (descriptor : Nat) (arrow : Arrow)

def Token.name : Token → String
  | .mark sign => sign.name
  | .word _ => "word"
  | .arrow .. => "redirection"

/-- What has not been read yet. -/
structure Source where
  rest : List Char
  line : Nat
  /-- Lines of documents that were taken out behind the line being read. -/
  removed : Nat
  /-- A token that was read and given back. -/
  held : Option Token
  /-- What stands for words at the front of commands. -/
  aliases : List (List Char × List Char)
  /-- The aliases whose text is being read, each with the length of what is behind that text. -/
  inUse : List (List Char × Nat)

def Source.start (rest : List Char) : Source := ⟨rest, 1, 0, none, [], []⟩

/-- Reading from a source, which a mistake puts to an end. -/
abbrev Read := StateT Source (Except Mistake)

namespace Read

/-- Ends with a complaint about the line reached. -/
def fail {α : Type} (complaint : String) : Read α := do
  throw ⟨(← get).line, complaint, false⟩

/-- Ends with a complaint about the end of the text. -/
def failAtEnd {α : Type} (complaint : String) : Read α := do
  throw ⟨(← get).line, complaint, true⟩

/-- A complaint about a token in the wrong place, with what should stand there if only one thing
can. -/
def unexpected {α : Type} (token : Token) (wanted : Option String) : Read α :=
  let complaint :=
    token.name ++ " unexpected" ++ (wanted.elim "" fun name => " (expecting " ++ name ++ ")")
  match token with
  | .mark .ending => failAtEnd complaint
  | _ => fail complaint

def hold (token : Token) : Read Unit := modify fun source => { source with held := some token }

/-- Drops the ends of lines that are joined to the next one. -/
def joined : List Char → Nat → List Char × Nat
  | '\x5c' :: '\n' :: rest, line => joined rest (line + 1)
  | rest, line => (rest, line)

def glance : Read (Option Char) := do
  modify fun source =>
    let (rest, line) := joined source.rest source.line
    { source with rest := rest, line := line }
  return (← get).rest.head?

def take : Read (Option Char) := do
  let source ← get
  match source.rest with
  | [] => return none
  | '\n' :: rest =>
    set { source with rest := rest, line := source.line + 1 + source.removed, removed := 0 }
    return some '\n'
  | char :: rest =>
    set { source with rest := rest }
    return some char

def drop : Read Unit := do
  let _ ← take

/-- Takes the next character away where it is the one given. -/
def skips (char : Char) : Read Bool := do
  if (← glance) = some char then
    drop
    return true
  else return false

/-- Takes characters from the front as long as they are of a kind. -/
def span (kind : Char → Bool) : Nat → Read (List Char)
  | 0 => return []
  | fuel + 1 => do
    match ← glance with
    | some char =>
      if kind char then
        drop
        return char :: (← span kind fuel)
      else return []
    | none => return []

/-- Puts the text of an alias in place of the word, which has been taken; not within that very
text. -/
def replaces (name : List Char) : Read Bool := do
  let source ← get
  let inUse := source.inUse.filter (·.2 ≤ source.rest.length)
  match source.aliases.lookup name, inUse.lookup name with
  | some text, none =>
    set
      { source with
        rest := text ++ source.rest
        inUse := (name, source.rest.length) :: inUse }
    return true
  | _, _ => return false

/-- Goes past the closing parenthesis, which has been read and given back. -/
def close : Read Unit := do
  match (← get).held with
  | some (.mark .closing) => modify fun source => { source with held := none }
  | some token => unexpected token (some Mark.closing.name)
  | none => return

/-- Reads something else to its end and comes back. -/
def aside {α : Type} (text : List Char) (line : Nat) (read : Read α) : Read α := do
  let source ← get
  set { Source.start text with line := line, aliases := source.aliases }
  let value ← read
  set source
  return value

end Read

end PromptHarness.Shell
