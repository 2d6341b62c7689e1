import PromptHarness.Process.Executable
import PromptHarness.Process.Terminal

/-!
# Programs made of actions

A command that stands in for the one under test: it performs a list of actions in order and then
exits with code 0.
-/

namespace PromptHarness

/-- One thing that a stand-in program does. -/
inductive Action where
  | print (bytes : Bytes)
  | warn (bytes : Bytes)
  /-- Reads a line; the one before it is remembered too. -/
  | readLine
  /-- Writes the line that was read last. -/
  | showLine
  | showArguments
  | showVariable (name : String)
  /-- Exits unless the line read last is a certain one. -/
  | exitUnless (text : Bytes) (code : Nat)
  /-- Exits unless the last two lines that were read are the same. -/
  | exitUnlessSame (code : Nat)
  /-- Writes a file below the home, making directories. -/
  | write (path : String) (content : Bytes)
  | makeDirectory (path : String)
  | remove (path : String)
  /-- Has the editor work on a file in the home, and writes what the file holds afterwards. -/
  | edit
  | sleep (span : Nat)
  /-- Takes no notice of a signal from here on. -/
  | ignore (signal : Nat)
  | close
  | hang
  /-- Sends itself a signal. -/
  | signal (number : Nat)
  | exit (code : Nat)
  deriving Repr, DecidableEq

namespace Action

/-- What the program knows while it runs. -/
structure Scene where
  launch : Launcher
  arguments : List String
  environment : Environment
  last : Bytes
  previous : Bytes
  /-- The program has closed its input and outputs. -/
  closed : Bool
  /-- The signals that the program takes no notice of. -/
  ignored : List Nat

/-- How long a program hangs, in milliseconds. -/
def hangTime : Nat := 30000

/-- The file that the editor works on, seen from the home. -/
def editedName : String := "plain.txt"

def Scene.path (scene : Scene) (name : String) : String :=
  Path.join ((scene.environment.value? "HOME").getD "") name

def exited (code : Nat) : Process Ending := .finished (.exited (code % 256))

/-- The bytes between brackets of some kind. -/
def bracketed (left right : String) (bytes : Bytes) : Bytes :=
  Text.encode left ++ bytes ++ Text.encode right

def argumentsLine (arguments : List String) : Bytes :=
  (arguments.flatMap fun argument => bracketed "[" "]" (Text.encode argument)) ++ Text.encode "\n"

def variableLine (environment : Environment) (name : String) : Bytes :=
  Text.encode
    (match environment.value? name with
    | some value => name ++ "=" ++ value ++ "\n"
    | none => name ++ " unset\n")

def Scene.print (scene : Scene) (bytes : Bytes) (next : Process Ending) :
    Process Ending :=
  if scene.closed then next else .print bytes next

/-- Has the editor work on a file and writes what the file holds then.  An editor that cannot be
started changes nothing. -/
def editing (scene : Scene) : Process Unit := do
  let path := scene.path editedName
  let editor := (scene.environment.value? "EDITOR").getD ""
  match scene.launch (← .files) ⟨editor, [path], scene.environment⟩ with
  | .ok work => let _ ← work
  | .error _ => pure ()
  match (← .files).read path with
  | .ok content => .say content
  | .error reason => .complain (Text.encode ("cat: " ++ path ++ ": " ++ reason.description ++ "\n"))

def process : List Action → Scene → Process Ending
  | [], _ => exited 0
  | .print bytes :: rest, scene => scene.print bytes (process rest scene)
  | .warn bytes :: rest, scene =>
    if scene.closed then process rest scene else .warn bytes (process rest scene)
  | .readLine :: rest, scene =>
    if scene.closed then process rest { scene with previous := scene.last, last := [] }
    else .ask .line fun line =>
      process rest
        { scene with
          previous := scene.last
          last := (line.getD []).takeWhile (· != Terminal.newline) }
  | .showLine :: rest, scene => scene.print (bracketed "<" ">\n" scene.last) (process rest scene)
  | .showArguments :: rest, scene =>
    scene.print (argumentsLine scene.arguments) (process rest scene)
  | .showVariable name :: rest, scene =>
    scene.print (variableLine scene.environment name) (process rest scene)
  | .exitUnless text code :: rest, scene =>
    if scene.last = text then process rest scene else exited code
  | .exitUnlessSame code :: rest, scene =>
    if scene.last = scene.previous then process rest scene else exited code
  | .write path content :: rest, scene =>
    .change (fun files => files.write (files.placeOf (scene.path path)) content)
      (process rest scene)
  | .makeDirectory path :: rest, scene =>
    .change (fun files => files.makeDirectory (files.placeOf (scene.path path)))
      (process rest scene)
  | .remove path :: rest, scene =>
    .change (fun files => files.remove (files.placeOf (scene.path path))) (process rest scene)
  | .edit :: rest, scene => (editing scene).bind fun _ => process rest scene
  | .sleep span :: rest, scene => .pause span (process rest scene)
  | .ignore number :: rest, scene =>
    .arrange number .ignored (process rest { scene with ignored := number :: scene.ignored })
  | .close :: rest, scene =>
    if scene.closed then process rest scene
    else .hangUp (process rest { scene with closed := true })
  | .hang :: _, _ => .pause hangTime (exited 0)
  | .signal number :: rest, scene =>
    match Ending.effect number with
    | .death =>
      if scene.ignored.contains number then process rest scene else .finished (.signaled number)
    | .nothing => process rest scene
    | .standstill => .ignore Ending.stoppable (.pause hangTime (exited 0))
  | .exit code :: _, _ => exited code

/-- The program that performs actions in order. -/
def program (actions : List Action) : Program := fun launch call =>
  process actions ⟨launch, call.arguments, call.environment, [], [], false, []⟩

end Action

end PromptHarness
