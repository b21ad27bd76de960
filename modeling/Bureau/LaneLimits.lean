import Bureau.LaneSelection

/-!
The limits of a lane selection. A selection is always within them. It is maximal unless lanes that wait for a
review keep coding places from others.
-/

namespace Bureau

namespace Closure

namespace Standing

variable {limits : WipLimits} {st : Standing} {lane : Lane}

namespace Accounts

end Accounts

/-! The lists of a standing and the lanes it comes from. -/

variable {plan : List Lane}

end Standing

section Limits

open Standing

variable {limits : WipLimits} {plan : List Lane} {lane : Lane}

namespace Sample

end Sample

end Limits

end Closure

end Bureau
