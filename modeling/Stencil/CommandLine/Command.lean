import Stencil.Value.OfJson
import Stencil.Engine
import Stencil.File

/-!
The commands of the program, over any way to read files and over any readers of what they hold. A
command either writes its whole output, or fails with one message at the first stage that goes
wrong.
-/

namespace Stencil

inductive Command where
  | render (template : String) (model config : Option String) (maxDepth : Option Nat)
  | tokens (template : String)
  | outline (template : String)
deriving DecidableEq, Repr

structure Outcome where
  status : Nat
  stdout : String
  stderr : String
deriving DecidableEq, Repr

/-- What the program takes from elsewhere: how the arguments are read, which may end the program
without a command, and how JSON texts are read as settings and as a model. Of what is wrong with a
text there is only a message. -/
structure Readers where
  command : List String → Except Outcome Command
  settings : String → Except String Settings
  model : String → Except String Json

inductive Failure where
  | settingsFile (fault : ReadFault)
  | settings (message : String)
  | file (path : String) (fault : ReadFault)
  | model (path message : String)
  | template (error : ParseError)
deriving DecidableEq, Repr

def Failure.message : Failure → String
  | .settingsFile fault => "I/O error: " ++ fault.message
  | .settings message => "invalid config: " ++ message
  | .file path fault => "reading " ++ path ++ ": " ++ fault.message
  | .model path message => "invalid model " ++ path ++ ": " ++ message
  | .template error => "parse error: " ++ error.message

def Outcome.ofResult : Except Failure String → Outcome
  | .ok output => ⟨0, output, ""⟩
  | .error failure => ⟨1, "", "Error: " ++ failure.message ++ "\n"⟩

namespace Command

variable {m : Type → Type} [Monad m]

/-- Reads the settings of a run: those of the file, if one is given, with the limit that is given on
its own in front of it. -/
def readSettings (readers : Readers) (read : String → m (Except ReadFault String))
    (config : Option String) (maxDepth : Option Nat) : ExceptT Failure m Settings := do
  let settings : Settings ←
    match config with
    | none => pure {}
    | some path =>
      match ← read path with
      | .error fault => throw (.settingsFile fault)
      | .ok text => liftExcept (readers.settings text)
  return { settings with maxNestingDepth := maxDepth.getD settings.maxNestingDepth }
where
  liftExcept (result : Except String Settings) : ExceptT Failure m Settings :=
    match result with
    | .error message => throw (.settings message)
    | .ok settings => pure settings

def readFile (read : String → m (Except ReadFault String)) (path : String) :
    ExceptT Failure m String := do
  match ← read path with
  | .error fault => throw (.file path fault)
  | .ok text => return text

/-- Reads the model, which is null if no file is given. -/
def readModel (readers : Readers) (read : String → m (Except ReadFault String))
    (model : Option String) : ExceptT Failure m Value := do
  match model with
  | none => return .null
  | some path =>
    match readers.model (← readFile read path) with
    | .error message => throw (.model path message)
    | .ok json => return .ofJson json

def output (readers : Readers) (read : String → m (Except ReadFault String)) :
    Command → ExceptT Failure m String
  | .render template model config maxDepth => do
    let settings ← readSettings readers read config maxDepth
    let model ← readModel readers read model
    let source ← readFile read template
    match (settings.render .empty source model).result with
    | .error error => throw (.template error)
    | .ok text => return text
  | .tokens template => return dump (tokenize (← readFile read template))
  | .outline template => do
    match (Settings.compile {} (← readFile read template)).result with
    | .error error => throw (.template error)
    | .ok template => return template.outline ""

def run (readers : Readers) (read : String → m (Except ReadFault String)) (command : Command) :
    m Outcome :=
  Outcome.ofResult <$> (command.output readers read).run

end Command

def Readers.runArguments {m : Type → Type} [Monad m] (readers : Readers)
    (read : String → m (Except ReadFault String)) (arguments : List String) : m Outcome :=
  match readers.command arguments with
  | .error outcome => pure outcome
  | .ok command => command.run readers read

end Stencil
