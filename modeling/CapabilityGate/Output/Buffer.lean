/-!
# Output buffers

An output buffer collects chunks of text. Several handles may share a buffer: a clone of a handle
stands for the same buffer as the handle itself.

## Main definitions

* `Buffer`: the chunks collected so far.
* `Handles`: buffers, and the handles that stand for them.
-/

namespace CapabilityGate

/-- A buffer: its chunks in the order in which they were appended. -/
structure Buffer where
  /-- The chunks. -/
  chunks : List String
  deriving Repr, DecidableEq, Inhabited

namespace Buffer

/-- The buffer without chunks. -/
def empty : Buffer := ⟨[]⟩

/-- Appends a text and a line break as one chunk. -/
def append (b : Buffer) (text : String) : Buffer :=
  ⟨b.chunks ++ [text ++ "\n"]⟩

/-- Appends several texts, one after another. -/
def appendAll (b : Buffer) (texts : List String) : Buffer :=
  ⟨b.chunks ++ texts.map (· ++ "\n")⟩

/-- All chunks as one text. -/
def contents (b : Buffer) : String :=
  String.join b.chunks

/-- The number of chunks. -/
def size (b : Buffer) : Nat :=
  b.chunks.length

/-- Whether there is no chunk. -/
def isEmpty (b : Buffer) : Bool :=
  b.chunks.isEmpty

end Buffer

/-- Buffers and handles. -/
structure Handles where
  /-- The buffers. -/
  buffers : List Buffer
  /-- The number of the buffer that each handle stands for. -/
  targets : List Nat
  deriving Repr, DecidableEq, Inhabited

namespace Handles

/-- One handle of a new buffer. -/
def start : Handles := ⟨[.empty], [0]⟩

/-- The buffer that a handle stands for. -/
def buffer? (h : Handles) (handle : Nat) : Option Buffer :=
  h.targets[handle]?.bind fun i => h.buffers[i]?

/-- Appends a text through a handle. -/
def append (h : Handles) (handle : Nat) (text : String) : Handles :=
  match h.targets[handle]? with
  | some i => { h with buffers := h.buffers.modify i (·.append text) }
  | none => h

/-- Adds a handle that stands for the same buffer as another one. -/
def clone (h : Handles) (handle : Nat) : Handles :=
  match h.targets[handle]? with
  | some i => { h with targets := h.targets ++ [i] }
  | none => h

/-- Adds a handle of a new buffer. -/
def fresh (h : Handles) : Handles :=
  ⟨h.buffers ++ [.empty], h.targets ++ [h.buffers.length]⟩

end Handles

end CapabilityGate
