import SheetCompiler.Fault
import SheetCompiler.Settings.File

/-!
# Settings files

A settings file is a text in JSON, and what it says must pass the checks of settings.
-/

namespace SheetCompiler

namespace Settings

/-- The settings unless they have a fault. -/
def checked (settings : Settings) : Except Fault Settings :=
  match settings.check with
  | .ok () => .ok settings
  | .error fault => .error (.settings fault)

/-- The settings of a file. -/
def load (tree : FileTree) (path : FilePath) : Except Fault Settings :=
  if !tree.exists? path then .error (.fileNotFound path)
  else
    match tree.readText path with
    | .error fault => .error (.file fault)
    | .ok text =>
      match read text with
      | .error flaw => .error (.json path flaw)
      | .ok settings => settings.checked

end Settings

end SheetCompiler
