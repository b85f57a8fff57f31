import Mathlib.Logic.Basic

/-!
# Filter errors

`FilterError` (`src/filters/error.rs`), what a filter's `read` or `write` fails with. The errors of
the token router and of I/O are kept as their text.
-/

namespace Quilkin.Filters

/-- `FilterError`. -/
inductive FilterError
  | noValueCaptured
  | tokenRouter (error : String)
  | io (error : String)
  | firewallDenied
  | matchNoMetadata
  | dropped
  | rateLimitExceeded
  | custom (error : String)
  deriving DecidableEq

/-- `CreationError`, what building a filter from its configuration fails with; the one variant
the modelled filters return. -/
inductive CreationError
  | fieldInvalid (field reason : String)
  deriving DecidableEq

end Quilkin.Filters
