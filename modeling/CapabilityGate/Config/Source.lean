import CapabilityGate.Config.Form
import CapabilityGate.Files.Tree
import CapabilityGate.Report.Fault
import CapabilityGate.Toml.Read

/-!
# Settings from a text

Settings are written as a TOML text, in which every setting may be left out. Settings that do not
make sense are refused.

## Main definitions

* `Config.ofToml`: the settings that a text describes.
* `Config.ofFile`: the settings in a file.
-/

namespace CapabilityGate.Config

/-- The settings that a TOML text describes, whether they make sense or not. -/
def decode (s : String) : Except Fault Config :=
  match Toml.read s with
  | none => .error (.configMalformed none)
  | some d => (ofForm false d).mapError fun
    | .mismatch => .configMalformed none
    | .descriptor cause => .configMalformed (some cause)

/-- The **settings** that a TOML text describes. -/
def ofToml (s : String) : Except Fault Config := do
  let c ← decode s
  c.validate.mapError .config
  return c

/-- The settings in a file. -/
def ofFile (f : Files) (path : String) : Except Fault Config := do
  let s ← (f.readText path).mapError (.configUnreadable path)
  ofToml s

end CapabilityGate.Config
