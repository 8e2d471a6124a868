import CapabilityGate.Build.Library
import CapabilityGate.Form.Read

/-!
# Structured values of libraries

## Main definitions

* `Library.form`, `Library.ofForm`: the structured value of a library.
-/

namespace CapabilityGate

open Form

/-- The structured value of a library. -/
def Library.form (l : Library) : Data :=
  .record [("name", .text l.name), ("path", .text l.path)]

/-- Reads a library. -/
def Library.ofForm : Reads Library := fun d => do
  let f ← record true [field "name" Form.text, field "path" Form.text] d
  return ⟨← need f "name" Form.text, ← need f "path" Form.text⟩

end CapabilityGate
