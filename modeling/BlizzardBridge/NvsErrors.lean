import BlizzardBridge.NvsTermination
import Mathlib.Data.List.Induction

/-! Reads that fail. A block whose read has failed goes on as if it had succeeded, and
hands its setter what the scratch buffers hold from the blocks before. -/
namespace BlizzardBridge
open CArray

namespace Board

section use
variable {k j : NvsKey} {b r : Board}

end use

section error
variable {k : NvsKey} {b : Board} {e : EspErr}

end error

section gateway
variable {b : Board} {t : ℕ}

end gateway

section same
variable {k j : NvsKey} {b : Board}

end same

end Board

end BlizzardBridge
