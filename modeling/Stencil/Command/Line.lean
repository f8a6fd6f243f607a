import Stencil.Text.Quoted
import Stencil.Text.Search

/-!
# Command lines

A command line names an action and gives settings and the name of a template.  Settings stand
anywhere after the program, a setting that takes a value has it after an equals sign or as the next
word, and after `--` no word is a setting.  Some settings belong to an action and can only follow
it.

* `Line.parse` — a request for help, or what is to be done.
* `Action.help` — the help of an action, or of the program.
-/

namespace Stencil.Command

open Text (quoted startsWith)

/-! ## What can be said -/

inductive Action
  | render
  | compile
  | tokens
  deriving DecidableEq, Repr

inductive Arity
  | flag
  | one
  | many
  deriving DecidableEq, Repr

inductive Setting
  | config
  | debug
  | dir
  | context
  | strictVariables
  | strictTypes
  | autoescape
  deriving DecidableEq, Repr

namespace Setting

def name : Setting → String
  | config => "config"
  | debug => "debug"
  | dir => "dir"
  | context => "context"
  | strictVariables => "strict-variables"
  | strictTypes => "strict-types"
  | autoescape => "autoescape"

def arity : Setting → Arity
  | debug | strictVariables | strictTypes => .flag
  | dir => .many
  | _ => .one

def purpose : Setting → String
  | config => "YAML options file"
  | debug => "enable debug logging and the dump function"
  | dir => "template directory, may be repeated"
  | context => "YAML file with the render context"
  | strictVariables => "fail on undefined variables"
  | strictTypes => "fail on comparisons of mismatched types"
  | autoescape => "escaping strategy for printed values (html or url)"

def usage (s : Setting) : String :=
  if s.arity = .flag then "--" ++ s.name
  else "--" ++ s.name ++ " " ++ String.ofList (s.name.toList.map Char.toUpper)

def globals : List Setting := [config, debug]

end Setting

namespace Action

def all : List Action := [render, compile, tokens]

def name : Action → String
  | render => "render"
  | compile => "compile"
  | tokens => "tokens"

def purpose : Action → String
  | render => "render a template"
  | compile => "print the generated code of a template"
  | tokens => "print the tokens of a template"

def settings : Action → List Setting
  | render => [.dir, .context, .strictVariables, .strictTypes, .autoescape]
  | _ => [.dir]

end Action

/-! ## Help -/

def explanationColumn : Nat := 25

def helpLine (left explanation : String) : String :=
  let left := "  " ++ left
  let width := left.length
  let gap := if width + 2 < explanationColumn then
      String.ofList (List.replicate (explanationColumn - width) ' ')
    else "\n" ++ String.ofList (List.replicate explanationColumn ' ')
  left ++ gap ++ explanation ++ "\n"

def settingLines (ss : List Setting) : String :=
  String.join (ss.map fun s => helpLine s.usage s.purpose)

def bracketed (ss : List Setting) : String :=
  String.join (ss.map fun s => " [" ++ s.usage ++ "]")

def description : String := "twig renders Twig templates through a Starlark code generator.\n"

def helpOnHelp : String := helpLine "--help, -h" "display this help and exit"

def help : Option Action → String
  | none =>
    description ++ "Usage: twig" ++ bracketed Setting.globals ++ " <command> [<args>]\n" ++
      "\nOptions:\n" ++ settingLines Setting.globals ++ helpOnHelp ++
      "\nCommands:\n" ++ String.join (Action.all.map fun a => helpLine a.name a.purpose)
  | some a =>
    description ++ "Usage: twig " ++ a.name ++ bracketed a.settings ++ " NAME\n" ++
      "\nPositional arguments:\n" ++ helpLine "NAME" "template name" ++
      "\nOptions:\n" ++ settingLines a.settings ++
      "\nGlobal options:\n" ++ settingLines Setting.globals ++ helpOnHelp

/-! ## What was said -/

structure Line where
  action : Option Action := none
  config : String := ""
  debug : Bool := false
  dirs : List String := []
  context : String := ""
  strictVariables : Bool := false
  strictTypes : Bool := false
  autoescape : String := ""
  words : List String := []

inductive Misuse
  | helpAsked
  | unknownAction (word : String)
  | unknownSetting (word : String)
  | missingValue (word : String)
  | notTruth (word value : String)
  | tooManyWords (word : String)
  | nameMissing
  deriving DecidableEq, Repr

def Misuse.message : Misuse → String
  | helpAsked => "help requested by user"
  | unknownAction w => "invalid subcommand: " ++ w
  | unknownSetting w => "unknown argument " ++ w
  | missingValue w => "missing value for " ++ w
  | notTruth w value =>
    s!"error processing {w}: strconv.ParseBool: parsing {quoted value}: invalid syntax"
  | tooManyWords w => s!"too many positional arguments at '{w}'"
  | nameMissing => "name is required"

namespace Line

def isSetting (w : String) : Bool :=
  startsWith w "-" && !w.toList.all (· = '-')

def split (w : String) : String × String :=
  let body := w.toList.dropWhile (· = '-')
  let name := body.takeWhile (· ≠ '=')
  (String.ofList name, String.ofList (body.drop (name.length + 1)))

def truth? (s : String) : Option Bool :=
  if ["1", "t", "T", "TRUE", "true", "True"].contains s then some true
  else if ["0", "f", "F", "FALSE", "false", "False"].contains s then some false
  else none

def settings (l : Line) : List Setting :=
  Setting.globals ++ (l.action.map Action.settings).getD []

def give (l : Line) (s : Setting) (value : String) : Line :=
  match s with
  | .config => { l with config := value }
  | .dir => { l with dirs := l.dirs ++ [value] }
  | .context => { l with context := value }
  | .autoescape => { l with autoescape := value }
  | _ => l

def switch (l : Line) (s : Setting) (b : Bool) : Line :=
  match s with
  | .debug => { l with debug := b }
  | .strictVariables => { l with strictVariables := b }
  | .strictTypes => { l with strictTypes := b }
  | _ => l

def takeWord (l : Line) (w : String) : Except Misuse Line :=
  match l.action with
  | some _ => .ok { l with words := l.words ++ [w] }
  | none => match Action.all.find? (·.name == w) with
    | some a => .ok { l with action := some a }
    | none => .error (.unknownAction w)

def setting? (l : Line) (w : String) : Except Misuse (Setting × String) :=
  if w = "-h" ∨ w = "--help" then .error .helpAsked
  else
    let (name, value) := split w
    match l.settings.find? (·.name == name) with
    | some s => .ok (s, value)
    | none => .error (.unknownSetting w)

/-- Reads the words of a command line.  What goes wrong is returned with what was read until
then. -/
def readWords (l : Line) (onlyWords : Bool) : List String → Except (Misuse × Line) Line
  | [] => .ok l
  | w :: ws =>
    if w = "--" ∧ !onlyWords then readWords l true ws
    else if onlyWords || !isSetting w then
      match l.takeWord w with
      | .ok l => readWords l onlyWords ws
      | .error e => .error (e, l)
    else match l.setting? w with
      | .error e => .error (e, l)
      | .ok (s, value) =>
        if s.arity = .flag then
          match truth? (if value.isEmpty then "true" else value) with
          | some b => readWords (l.switch s b) onlyWords ws
          | none => .error (.notTruth w value, l)
        else if !value.isEmpty then readWords (l.give s value) onlyWords ws
        else match ws with
          | v :: rest =>
            if isSetting v || (s.arity = .many && v = "--") then
              if s.arity = .many then readWords l onlyWords (v :: rest)
              else .error (.missingValue w, l)
            else readWords (l.give s v) onlyWords rest
          | [] => if s.arity = .many then .ok l else .error (.missingValue w, l)

def checkWords (l : Line) : Except (Misuse × Line) Line :=
  match l.action, l.words with
  | none, _ => .ok l
  | some _, [] => .error (.nameMissing, l)
  | some _, [_] => .ok l
  | some _, _ :: w :: _ => .error (.tooManyWords w, l)

/-- Whether help is asked for before all words are names. -/
def asksForHelp (ws : List String) : Bool :=
  (ws.takeWhile (· ≠ "--")).any fun w => w = "-h" || w = "--help"

end Line

inductive Request
  | help (action : Option Action)
  | act (action : Action) (name : String) (line : Line)

/-- What a command line asks for.  Help comes before everything that is wrong. -/
def Line.parse (ws : List String) : Except Misuse Request :=
  match readWords {} false ws >>= checkWords with
  | .ok l => match l.action, l.words with
    | some a, name :: _ => .ok (.act a name l)
    | _, _ => .ok (.help none)
  | .error (e, l) => if asksForHelp ws then .ok (.help l.action) else .error e

end Stencil.Command
