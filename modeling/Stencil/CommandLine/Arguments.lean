import Stencil.CommandLine.Command
import Stencil.Text.Digits

/-!
The arguments of the command line: which command they ask for, and with which files and options.
-/

namespace Stencil

inductive Topic where
  | program
  | render
  | tokens
  | outline
  | help
deriving DecidableEq, Repr

inductive Request where
  | run (command : Command)
  | help (topic : Topic)
  | version
  | invalid
deriving DecidableEq, Repr

inductive Switch where
  | model
  | config
  | maxDepth
deriving DecidableEq, Repr

namespace Switch

def ofLong? : List Char → Option Switch
  | ['m', 'o', 'd', 'e', 'l'] => some model
  | ['c', 'o', 'n', 'f', 'i', 'g'] => some config
  | ['m', 'a', 'x', '-', 'd', 'e', 'p', 't', 'h'] => some maxDepth
  | _ => none

def ofShort? : Char → Option Switch
  | 'm' => some model
  | 'c' => some config
  | _ => none

end Switch

/-- A count of at most sixty-four bits: decimal digits, behind a plus sign or not. -/
def readCount? (text : String) : Option Nat :=
  let digits := match text.toList with
    | '+' :: rest => rest
    | chars => chars
  if digits.isEmpty || !digits.all Char.isDigit then none
  else
    let n := Text.decimalValue digits
    if n < UInt64.size then some n else none

structure Given where
  template : Option String := none
  model : Option String := none
  config : Option String := none
  maxDepth : Option Nat := none
deriving DecidableEq, Repr

namespace Given

def setTemplate? (given : Given) (path : String) : Option Given :=
  if given.template.isSome then none else some { given with template := some path }

def set? (given : Given) (switch : Switch) (value : String) : Option Given :=
  match switch with
  | .model => if given.model.isSome then none else some { given with model := some value }
  | .config => if given.config.isSome then none else some { given with config := some value }
  | .maxDepth =>
    if given.maxDepth.isSome then none
    else (readCount? value).map fun n => { given with maxDepth := some n }

end Given

inductive Form where
  /-- two hyphens alone, behind which there are no options -/
  | separator
  | long (name : List Char) (value : Option (List Char))
  | short (first : Char) (rest : List Char)
  | plain
deriving DecidableEq, Repr

def Form.of (argument : String) : Form :=
  match argument.toList with
  | ['-', '-'] => .separator
  | '-' :: '-' :: rest =>
    .long (rest.takeWhile (· != '=')) (rest.dropWhile (· != '=')).tail?
  | '-' :: first :: rest => .short first rest
  | _ => .plain

/-- The value that is attached to a letter; an equals sign in front of it does not belong to it. -/
def attached? : List Char → Option (List Char)
  | [] => none
  | '=' :: value => some value
  | value => some value

inductive Progression where
  /-- more is known, and perhaps an option waits for its value -/
  | known (given : Given) (waiting : Option Switch)
  | separated
  | decided (request : Request)

def Progression.ofGiven : Option Given → Progression
  | some given => known given none
  | none => decided .invalid

/-- Takes one argument behind the name of a command. Only one command has options. An option
without an attached value takes the next argument, which must not look like an option itself. -/
def readArgument (topic : Topic) (given : Given) (waiting : Option Switch) (argument : String) :
    Progression :=
  let option (switch? : Option Switch) (value : Option (List Char)) : Progression :=
    match (if topic = .render then switch? else none), value with
    | some switch, some value => .ofGiven (given.set? switch (String.ofList value))
    | some switch, none => .known given (some switch)
    | none, _ => .decided .invalid
  match waiting, Form.of argument with
  | some switch, .plain => .ofGiven (given.set? switch argument)
  | some _, _ => .decided .invalid
  | none, .separator => .separated
  | none, .long ['h', 'e', 'l', 'p'] none => .decided (.help topic)
  | none, .long name value => option (Switch.ofLong? name) value
  | none, .short 'h' _ => .decided (.help topic)
  | none, .short first letters => option (Switch.ofShort? first) (attached? letters)
  | none, .plain => .ofGiven (given.setTemplate? argument)

def command? (topic : Topic) (given : Given) : Option Command :=
  match topic, given.template with
  | .render, some path => some (.render path given.model given.config given.maxDepth)
  | .tokens, some path => some (.tokens path)
  | .outline, some path => some (.outline path)
  | _, _ => none

def request (topic : Topic) (given : Option Given) : Request :=
  match given.bind (command? topic) with
  | some command => .run command
  | none => .invalid

def readArguments (topic : Topic) (given : Given) (waiting : Option Switch) :
    List String → Request
  | [] => request topic (if waiting.isNone then some given else none)
  | argument :: rest =>
    match readArgument topic given waiting argument with
    | .known given waiting => readArguments topic given waiting rest
    | .separated => request topic (rest.foldlM Given.setTemplate? given)
    | .decided request => request

namespace Topic

def ofName? : String → Option Topic
  | "render" => some render
  | "tokens" => some tokens
  | "ast" => some outline
  | "help" => some help
  | _ => none

end Topic

def Request.ofArguments : List String → Request
  | [] => .invalid
  | first :: rest =>
    match Form.of first with
    | .long ['h', 'e', 'l', 'p'] none | .short 'h' _ => .help .program
    | .long ['v', 'e', 'r', 's', 'i', 'o', 'n'] none | .short 'V' _ => .version
    | .plain =>
      match Topic.ofName? first, rest with
      | some .help, [] => .help .program
      | some .help, [name] => ((Topic.ofName? name).map Request.help).getD .invalid
      | some .help, _ => .invalid
      | some topic, _ => readArguments topic {} none rest
      | none, _ => .invalid
    | _ => .invalid

def versionLine : String := "tinyview 0.1.0\n"

def Topic.text : Topic → String
  | .program => "Render and inspect tinyview templates

Usage: tinyview <COMMAND>

Commands:
  render  Render a template against a JSON model
  tokens  Print the tokens of a template
  ast     Print the parsed tree of a template
  help    Print this message or the help of the given subcommand(s)

Options:
  -h, --help     Print help
  -V, --version  Print version
"
  | .render => "Render a template against a JSON model

Usage: tinyview render [OPTIONS] <template>

Arguments:
  <template>  Path to the template file

Options:
  -m, --model <model>          JSON file bound as `model` (defaults to null)
  -c, --config <config>        JSON engine configuration file
      --max-depth <max-depth>  Maximum if/foreach nesting depth
  -h, --help                   Print help
"
  | .tokens => "Print the tokens of a template

Usage: tinyview tokens <template>

Arguments:
  <template>  Path to the template file

Options:
  -h, --help  Print help
"
  | .outline => "Print the parsed tree of a template

Usage: tinyview ast <template>

Arguments:
  <template>  Path to the template file

Options:
  -h, --help  Print help
"
  | .help => "Print this message or the help of the given subcommand(s)

Usage: tinyview help [COMMAND]...

Arguments:
  [COMMAND]...  Print help for the subcommand(s)
"

def usageText : String :=
  "error: invalid arguments\n\nUsage: tinyview <COMMAND>\n\nFor more information, try '--help'.\n"

def readCommand (arguments : List String) : Except Outcome Command :=
  match Request.ofArguments arguments with
  | .run command => .ok command
  | .help topic => .error ⟨0, topic.text, ""⟩
  | .version => .error ⟨0, versionLine, ""⟩
  | .invalid => .error ⟨2, "", usageText⟩

end Stencil
