import Stencil.Command

/-!
# The program

Reads the files that a command line needs, and prints what the command answers.
-/

open Stencil

/-- The files at or below an entry of a directory, which is known by a path. -/
partial def filesBelow (path : String) (entry : IO.FS.DirEntry) : IO (List (String × String)) := do
  match ← entry.path.readDir.toBaseIO with
  | .ok found =>
    return (← found.toList.mapM fun e => filesBelow (path ++ "/" ++ e.fileName) e).flatten
  | .error _ => match ← (IO.FS.readFile entry.path).toBaseIO with
    | .ok content => return [(path, content)]
    | .error _ => return []

def filesOf (paths : List String) : IO (List (String × String)) := do
  let given := paths.filter fun p => !p.isEmpty
  return (← given.mapM fun p => filesBelow p ⟨".", p⟩).flatten

def neededFiles (args : List String) : IO Directory := do
  match Command.Line.parse args with
  | .ok (.act _ _ line) =>
    let named ← filesOf [line.config, line.context]
    match line.options (.ofFiles named) with
    | .ok options => return .ofFiles (named ++ (← filesOf options.templateDirs))
    | .error _ => return .ofFiles named
  | _ => return .ofFiles []

def main (args : List String) : IO UInt32 := do
  match Command.run args (← neededFiles args) with
  | .ok out =>
    IO.print out
    return 0
  | .error failure =>
    IO.eprintln ("error: " ++ failure.text)
    return 1
