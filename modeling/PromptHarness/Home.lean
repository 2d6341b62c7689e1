import PromptHarness.Fault
import PromptHarness.Files

/-!
# The home of a test

A fresh directory that every process of one test has as its home.  It holds the editors, unless
they come from elsewhere, and whatever the processes leave there.  Tearing it down removes the whole
tree; doing so again changes nothing.
-/

namespace PromptHarness

inductive Editor where
  /-- Writes the payload. -/
  | env
  /-- Writes the date. -/
  | date
  /-- Keeps a copy of the text. -/
  | save
  deriving Repr, DecidableEq

namespace Editor

def all : List Editor := [env, date, save]

def fileName : Editor → String
  | env => "TestFunctionalEditorEnv.sh"
  | date => "TestFunctionalEditorDate.sh"
  | save => "TestFunctionalEditorSave.sh"

def script : Editor → String
  | env =>
    "#!/bin/sh\n# Writes the payload from $EDITOR_ENV as the safe plaintext.\n" ++
      "printf \"%s\" \"$EDITOR_ENV\" > \"$1\"\n"
  | date =>
    "#!/bin/sh\n# Writes the current date as the safe plaintext.\ndate > \"$1\"\n"
  | save =>
    "#!/bin/sh\n# Leaves the plaintext untouched and keeps a copy next to the workspace.\n" ++
      "cp \"$1\" \"$HOME/editor-save.txt\"\n"

end Editor

/-- The directory in which a test keeps everything, and the editor it has chosen. -/
structure Home where
  root : String
  editorDirectory : String
  /-- The editor that commands are pointed at. -/
  editor : Option Editor
  /-- What the editor is to write. -/
  payload : Option String
  tornDown : Bool
  deriving Repr, DecidableEq

namespace Home

/-- Where the built-in editors are, seen from the root. -/
def editorsName : String := "editors"

/-- The directory of the program's own state, seen from the root. -/
def storeName : String := ".kickpass"

/-- The copy that an editor keeps, seen from the root. -/
def clearTextName : String := "editor-save.txt"

def installEditors (directory : String) (files : Files) : Files :=
  Editor.all.foldl
    (fun files editor =>
      files.insert (files.placeOf (Path.join directory editor.fileName))
        (.file (Text.encode editor.script) Files.programMode))
    (files.makeDirectory (files.placeOf directory))

/-- Makes a home at a root that is free.  The editors come from a directory that has to be there, or
else are put into the home.  A failure leaves nothing behind. -/
def setup (root : String) (editorDirectory : Option String) (files : Files) :
    Except Fault Home × Files :=
  let made := files.makeDirectory (files.placeOf root)
  match editorDirectory with
  | some directory =>
    if made.isDirectory directory then (.ok ⟨root, directory, none, none, false⟩, made)
    else
      (.error (.settings (.noEditorDirectory directory)), made.remove (made.placeOf root))
  | none =>
    let directory := Path.join root editorsName
    (.ok ⟨root, directory, none, none, false⟩, installEditors directory made)

def store (home : Home) : String := Path.join home.root storeName

def clearTextPath (home : Home) : String := Path.join home.root clearTextName

def safePath (home : Home) (name : String) : String := Path.join home.store name

def editorPath (home : Home) (editor : Editor) : String :=
  Path.join home.editorDirectory editor.fileName

def safeExists (home : Home) (name : String) (files : Files) : Bool :=
  files.isFile (home.safePath name)

def safeSize (home : Home) (name : String) (files : Files) : Except Fault Nat :=
  (files.size (home.safePath name)).mapError fun error => .io (.file error)

/-- Selects an editor for the commands from here on.  Without a payload the one before stays. -/
def selectEditor (home : Home) (editor : Editor) (payload : Option String) : Home :=
  { home with editor := some editor, payload := payload.or home.payload }

/-- The variables that every process of the test is given. -/
def environment (home : Home) : Environment :=
  [("HOME", home.root)] ++
    (home.editor.map fun editor => ("EDITOR", home.editorPath editor)).toList ++
    (home.payload.map fun payload => ("EDITOR_ENV", payload)).toList

/-- Removes the whole tree, if it is still there; what stands in its place is left alone.  No mode
below the root gets in the way of that.  Once it has been tried, nothing more is done. -/
def teardown (home : Home) (files : Files) : Except Fault Unit × Home × Files :=
  if home.tornDown then (.ok (), home, files)
  else
    let torn := { home with tornDown := true }
    match files.stat home.root with
    | .ok .directory | .error .missing =>
      (.ok (), torn, files.remove (files.placeOf home.root))
    | .ok _ => (.error (.io (.fileAt home.root .notDirectory)), torn, files)
    | .error reason => (.error (.io (.fileAt home.root reason)), torn, files)

end Home

end PromptHarness
