import CapabilityGate.Config.Basic
import CapabilityGate.Files.Tree
import CapabilityGate.Report.Fault

/-!
# Workspaces

Each run takes place in a directory of its own, its workspace, which holds a support file at first
and is removed in the end.

## Main definitions

* `Workspace`: the directory of a run.
* `Workspace.create`: makes a workspace with its support file, or nothing.
* `Workspace.destroy`: removes a workspace.
* `Workspace.abandon`: removes a workspace that nobody asks about any more.
-/

namespace CapabilityGate

/-- The directory of a run. -/
structure Workspace where
  /-- Its path. -/
  path : String
  deriving Repr, DecidableEq, Inhabited

namespace Workspace

/-- The name of the support file. -/
def supportName : String := "sandbox.runtime.json"

/-- What the support file says unless another file takes its place. -/
def supportText : String :=
  "\x7b\n  \"runtimeOptions\": \x7b\n    \"sandbox\": true,\n    \"stdin\": \"null\",\n" ++
  "    \"network\": \"inherited\",\n    \"environment\": \"cleared\"\n  \x7d\n\x7d\n"

/-- The directory that holds workspaces unless another one is set. -/
def systemRoot : String := "/tmp"

/-- The directory that holds workspaces. -/
def root (c : WorkspaceConfig) : String :=
  c.tempRoot.getD systemRoot

/-- The path of the workspace of a run. -/
def pathFor (c : WorkspaceConfig) (id : RunId) : String :=
  FilePath.join (root c) (c.namePrefix ++ id.text)

/-- A path in a workspace. -/
def join (w : Workspace) (name : String) : String :=
  FilePath.join w.path name

/-- Puts the support file into a workspace. -/
def seed (c : WorkspaceConfig) (w : Workspace) (f : Files) : Except Fault Files :=
  match c.supportTemplate with
  | some template => (f.copy template (w.join supportName)).mapError (.template template)
  | none =>
    (f.write (w.join supportName) (.file (Text.bytesOf supportText))).mapError .supportFile

/-- Removes a directory. There may be none. -/
def remove (f : Files) (path : String) : Files × Except Fault Unit :=
  match f.removeAll path with
  | (f, .ok ()) => (f, .ok ())
  | (f, .error .notFound) => (f, .ok ())
  | (f, .error e) => (f, .error (.removal path e))

/-- **Removes** a workspace. -/
def destroy (w : Workspace) (f : Files) : Files × Except Fault Unit :=
  remove f w.path

/-- Removes a workspace that nobody asks about any more, as far as that is possible. -/
def abandon (w : Workspace) (f : Files) : Files :=
  (w.destroy f).1

/-- Makes the directory of a workspace. It must not be there before, so that no two runs share
one. -/
def make (c : WorkspaceConfig) (id : RunId) (f : Files) : Files × Except Fault Workspace :=
  match f.makeDirectories (root c) with
  | (f, .error e) => (f, .error (.tempRoot (root c) e))
  | (f, .ok ()) =>
    match f.makeDirectory (pathFor c id) with
    | .error e => (f, .error (.workspace (pathFor c id) e))
    | .ok f => (f, .ok ⟨pathFor c id⟩)

/-- **Makes** a workspace with its support file. Without a support file there is no workspace. -/
def create (c : WorkspaceConfig) (id : RunId) (f : Files) : Files × Except Fault Workspace :=
  match make c id f with
  | (f, .error e) => (f, .error e)
  | (f, .ok w) =>
    match w.seed c f with
    | .ok f => (f, .ok w)
    | .error e => (w.abandon f, .error e)

end Workspace

end CapabilityGate
