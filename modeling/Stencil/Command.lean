import Stencil.Command.Line
import Stencil.Loader
import Stencil.Options.Reading
import Stencil.Render

/-!
# The command

The command renders a template, or shows its program or its tokens.  Options come from a file and
from the command line, variables from another file.  `Command.run` is all of it but for the reading
of files: it is given the files of the directory it runs in, and answers with what is printed.
-/

namespace Stencil.Command

/-- The options of a file.  A directory can be opened, but is no document. -/
def readOptions (d : Directory) (path : String) : Except Failure Options :=
  match d.read path with
  | .error .isDirectory =>
    let why := Unreadable.isDirectory.message path
    .error (.explained path (.explained "failed to decode options"
      (.plain s!"yaml: input error: {why}")))
  | .error why => .error (.explained "failed to open options" (.plain (why.message path)))
  | .ok document => (Options.parse document).mapError (.explained path)

def readVariables (d : Directory) (path : String) :
    Except Failure (List (String × Plain) × List Yaml.Moment) :=
  match d.read path with
  | .error why => .error (.explained "reading context" (.plain (why.message path)))
  | .ok document => (Yaml.read document [] Yaml.Node.readNamed).mapError fun why =>
    .explained s!"decoding context {path}" (.plain why.message)

def Line.refine (l : Line) (o : Options) : Options :=
  { o with
    debug := o.debug || l.debug
    strictVariables := o.strictVariables || l.strictVariables
    strictTypes := o.strictTypes || l.strictTypes
    autoescape := if l.autoescape.isEmpty then o.autoescape else l.autoescape
    templateDirs := if l.dirs.isEmpty then o.templateDirs else l.dirs }

def tokenLine (t : Token) : String :=
  let shown := if t.kind = .text then
      String.join (t.value.toList.map fun c => if c = '\n' then "\\n" else c.toString)
    else t.value
  s!"{t.line}\t{t.kind.describe}\t{shown}\n"

def Line.options (l : Line) (d : Directory) : Except Failure Options :=
  l.refine <$> if l.config.isEmpty then .ok {} else readOptions d l.config

def act (d : Directory) (a : Action) (name : String) (l : Line) : Except Failure String := do
  let options ← l.options d
  let loader := Loader.chain (options.templateDirs.map (Loader.ofDirectory d))
  let env ← Environment.make options [] loader .empty
  match a with
  | .render => do
    let (bindings, moments) ←
      if l.context.isEmpty then pure ([], []) else readVariables d l.context
    let things := moments.toArray.map fun m => ⟨.moment m.stamp, []⟩
    match ({ env with host := ⟨things⟩ }).render name bindings .start with
    | .ok out _ => return out
    | .error f _ => throw f
  | .compile => env.compileSource (← loader name) name
  | .tokens => do
    return String.join ((← env.tokenize (← loader name) name).toList.map tokenLine)

def run (words : List String) (d : Directory) : Except Failure String :=
  match Line.parse words with
  | .error e => .error (.plain e.message)
  | .ok (.help a) => .ok (help a)
  | .ok (.act a name l) => act d a name l

end Stencil.Command
