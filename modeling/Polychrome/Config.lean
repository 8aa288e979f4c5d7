import Polychrome.Library.Bytes

/-!
# Runtime options

The values the command line settles before the manager starts.  Paths and the
endpoint are byte strings, the request timeout is a whole number of seconds.
-/

namespace Polychrome

/-- The settings of one manager. -/
structure Config where
  root : Bytes
  listen : Bytes
  workers : Nat
  timeout : Nat
  preload : Bool
  ini : Option Bytes
  defines : List Bytes
deriving DecidableEq, Repr

end Polychrome
