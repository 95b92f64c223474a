import Stencil.CommandLine.Arguments
import Stencil.Settings.Reader
import Stencil.Json.Reader

/-!
The command line of the program, with the readers that it runs with.
-/

namespace Stencil

def Readers.standard : Readers where
  command := readCommand
  settings text := (Settings.read text).mapError (·.message Settings.Fault.message)
  model text := (Json.read text).mapError (·.message Json.Fault.message)

def runArguments {m : Type → Type} [Monad m] (read : String → m (Except ReadFault String))
    (arguments : List String) : m Outcome :=
  Readers.standard.runArguments read arguments

end Stencil
