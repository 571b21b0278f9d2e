import Mathlib.Data.Set.Pairwise.List
import Tendwire.Herdr.Projection

/-!
# Public ids and routes of a projection

The ids of the projected workers are those that single rows keep and those that suffixes make.
The sendable tokens and the private fingerprints tell the routes apart.
-/

namespace Tendwire

open Json List

namespace ObservationRules

variable {R : ObservationRules}

/-! ### Sendable tokens -/

end ObservationRules

namespace ProjectionRules

variable (R : ProjectionRules)

/-! ### What the records of a payload carry -/

variable {R} {record agentRecord paneRecord : WorkerRecord} {config : ObservationConfig}
  {item : Fields}

end ProjectionRules

end Tendwire
