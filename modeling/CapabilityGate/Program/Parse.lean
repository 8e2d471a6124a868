import CapabilityGate.Program.Grammar.Items
import CapabilityGate.Program.Lexer

/-!
# From text to tree

Ties the rules of the grammar together and reads a whole source text.

## Main definitions

* `Grammar.ofDepth`: the grammar in which rules call one another at most so deeply.
* `SourceFile.parse`: the tree of a source text, or the first place at which it is no program.
-/

namespace CapabilityGate.Program

/-- The grammar in which rules call one another at most `depth` deep. -/
def Grammar.ofDepth : (depth : Nat) → Grammar
  | 0 => .bottom
  | depth + 1 => {
    type := fun plus i => (ofDepth depth).typeRule plus i
    bound := fun captures consts i => (ofDepth depth).boundRule captures consts i
    unary := fun structs i => (ofDepth depth).unaryRule structs i
    climb := fun structs e p i => (ofDepth depth).climbRule structs e p i
    early := fun i => (ofDepth depth).earlyRule i
    pattern := fun i => (ofDepth depth).patternRule i
    item := fun i => (ofDepth depth).itemRule i
    statements := fun i => (ofDepth depth).statementsRule i
    useTree := fun global i => (ofDepth depth).useTreeRule global i }

/-- How deeply rules may call one another while they read `size` tokens. Between two tokens that
they take, rules call one another a few times at most. -/
def depthFor (size : Nat) : Nat :=
  16 * size + 64

/-- The whole of a source file. -/
def fileRule (g : Grammar) : Reader SourceFile := do
  let attributes ← g.innerAttributes
  let items ← Reader.untilEmpty g.item
  return ⟨attributes, items⟩

/-- The tree of a source text. -/
def SourceFile.parse (source : String) : Except SyntaxError SourceFile :=
  match Lexer.scan (Lexer.programText source.toList) with
  | .error p => .error (.unreadable p)
  | .ok tokens => (fileRule (.ofDepth (depthFor (Token.sizeAll tokens)))).run tokens

end CapabilityGate.Program
