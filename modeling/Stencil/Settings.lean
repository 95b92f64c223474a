import Stencil.Parse.Parser

/-!
The settings of an engine.
-/

namespace Stencil

structure Settings where
  maxNestingDepth : Nat := defaultLimit
deriving DecidableEq, Repr

def Settings.toJson (settings : Settings) : String :=
  "\x7b\"max_nesting_depth\":" ++ toString settings.maxNestingDepth ++ "\x7d"

end Stencil
