import PromptHarness.Text.Utf8

/-!
# Prompt plans

A plan says which prompts a command will show, in order, and what to answer.  It is a list of steps;
a step unfolds into one or two exchanges, each a cue to wait for and a line to send.  A step that is
absent is never waited for, while a step whose answer is the empty text still is.

The texts that describe a plan tell its shape and nothing about its answers.
-/

namespace PromptHarness

/-- The two passwords a command may ask for. -/
inductive Credential where
  | master
  | secret
  deriving Repr, DecidableEq

/-- What the harness waits for before it answers. -/
inductive Cue where
  | password (credential : Credential)
  | confirm
  | yesNo
  deriving Repr, DecidableEq

namespace Cue

/-- The text on the terminal that asks for an answer.  Both passwords are asked for alike. -/
def literal : Cue → String
  | password _ => "password:"
  | confirm => "confirm:"
  | yesNo => "(y/n)"

def name : Cue → String
  | password .master => "MasterPassword"
  | password .secret => "SecretPassword"
  | confirm => "Confirm"
  | yesNo => "YesNo"

end Cue

/-- A cue to wait for and the line to send once it shows up. -/
structure Exchange where
  cue : Cue
  response : String
  deriving Repr, DecidableEq

def describeRecord (name : String) (fields : List (String × String)) : String :=
  name ++ " \x7b " ++ ", ".intercalate (fields.map fun (field, value) => field ++ ": " ++ value) ++
    " \x7d"

/-- The description tells how many bytes the answer has, but not which. -/
def Exchange.describe (exchange : Exchange) : String :=
  describeRecord "Exchange"
    [("cue", exchange.cue.name), ("response_len", toString exchange.response.utf8ByteSize)]

def Exchange.describeAll (exchanges : List Exchange) : String :=
  "[" ++ ", ".intercalate (exchanges.map describe) ++ "]"

inductive Step where
  | password (credential : Credential) (value : String) (confirmed : Bool)
  | yesNo (value : String)
  deriving Repr, DecidableEq

namespace Step

/-- A confirmed password is asked for twice and answered alike. -/
def exchanges : Step → List Exchange
  | password credential value false => [⟨.password credential, value⟩]
  | password credential value true => [⟨.password credential, value⟩, ⟨.confirm, value⟩]
  | yesNo value => [⟨.yesNo, value⟩]

def label : Step → String
  | password .master _ true => "master+confirm"
  | password .master _ false => "master"
  | password .secret _ true => "secret+confirm"
  | password .secret _ false => "secret"
  | yesNo _ => "yes/no"

def describe (step : Step) : String :=
  "PromptStep(" ++ step.label ++ ")"

end Step

/-- The prompts of one command, in order. -/
structure Plan where
  steps : List Step
  deriving Repr, DecidableEq

namespace Plan

def empty : Plan := ⟨[]⟩

/-- Adds a step at the end, unless it is absent. -/
def expect (plan : Plan) (step : Option Step) : Plan :=
  ⟨plan.steps ++ step.toList⟩

/-- Expects the master password, unless it is absent. -/
def master (plan : Plan) (value : Option String) (confirmed : Bool) : Plan :=
  plan.expect (value.map (.password .master · confirmed))

def secret (plan : Plan) (value : Option String) (confirmed : Bool) : Plan :=
  plan.expect (value.map (.password .secret · confirmed))

/-- Expects a question to be answered with yes or no, unless the answer is absent. -/
def yesNo (plan : Plan) (value : Option String) : Plan :=
  plan.expect (value.map .yesNo)

/-! ## The shapes of the commands -/

/-- Making a store asks for its master password twice. -/
def forInit (masterPassword : Option String) : Plan :=
  empty.master masterPassword true

/-- Making a safe asks for the master password and then for the secret, twice unless it is to be
generated. -/
def forCreate (masterPassword password : Option String) (generate : Bool) : Plan :=
  (empty.master masterPassword false).secret password !generate

/-- Editing a safe is like making one, with a question that may follow. -/
def forEdit (masterPassword password : Option String) (generate : Bool)
    (answer : Option String) : Plan :=
  (forCreate masterPassword password generate).yesNo answer

/-- All commands that only open a safe ask for the master password. -/
def forOpening (masterPassword : Option String) : Plan :=
  empty.master masterPassword false

def forListing : Plan := empty

/-! ## Views -/

def isEmpty (plan : Plan) : Bool := plan.steps.isEmpty

/-- The cues and answers of a plan, in the order in which they will be used. -/
def exchanges (plan : Plan) : List Exchange :=
  plan.steps.flatMap Step.exchanges

def summary (plan : Plan) : String :=
  if plan.steps.isEmpty then "no prompts" else ", ".intercalate (plan.steps.map Step.label)

def describe (plan : Plan) : String :=
  describeRecord "PromptPlan"
    [("steps", "[" ++ ", ".intercalate (plan.steps.map Step.describe) ++ "]")]

def describeLong (plan : Plan) : String :=
  let steps :=
    if plan.steps.isEmpty then "[]"
    else "[\n" ++ String.join (plan.steps.map fun step => "        " ++ step.describe ++ ",\n") ++
      "    ]"
  "PromptPlan \x7b\n    steps: " ++ steps ++ ",\n\x7d"

end Plan

end PromptHarness
