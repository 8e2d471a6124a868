import CapabilityGate.Program.Reader
import CapabilityGate.Program.Tree

/-!
# The parts of the grammar that need each other

Types hold expressions, expressions hold items, and items hold types. The rules of the grammar
are therefore written against a record of the readers that they need from one another; the
record for a given depth is built from the one for a smaller depth once all rules stand.

## Main definitions

* `Grammar`: the readers that rules of other kinds need.
* `Precedence`: how tightly an operator binds.
* `Attributes`: the attributes in front of a construct.
* `Expr.withAttributes`: an expression with attributes in front of it.
-/

namespace CapabilityGate.Program

/-- How tightly an operator binds, from the loosest to the tightest. -/
inductive Precedence where
  /-- What binds nothing to its left. -/
  | jump
  /-- Assignments. -/
  | assign
  /-- Ranges. -/
  | range
  /-- The lazy disjunction. -/
  | or
  /-- The lazy conjunction. -/
  | and
  /-- Comparisons. -/
  | compare
  /-- The bitwise disjunction. -/
  | bitOr
  /-- The bitwise exclusive disjunction. -/
  | bitXor
  /-- The bitwise conjunction. -/
  | bitAnd
  /-- Shifts. -/
  | shift
  /-- Sums and differences. -/
  | sum
  /-- Products, quotients and remainders. -/
  | product
  /-- Changes of type. -/
  | cast
  deriving Repr, DecidableEq, Inhabited

namespace Precedence

/-- The place of a precedence among all. -/
def rank (p : Precedence) : Nat :=
  p.ctorIdx

instance : LT Precedence := ⟨fun p q => p.rank < q.rank⟩
instance : LE Precedence := ⟨fun p q => p.rank ≤ q.rank⟩
instance (p q : Precedence) : Decidable (p < q) := inferInstanceAs (Decidable (p.rank < q.rank))
instance (p q : Precedence) : Decidable (p ≤ q) := inferInstanceAs (Decidable (p.rank ≤ q.rank))

end Precedence

/-- The readers that the rules of the grammar need from one another. -/
structure Grammar where
  /-- A type; whether bounds may be added to it with a plus sign. -/
  type : (plus : Bool) → Reader Ty
  /-- A bound; whether it may capture lifetimes, and whether its trait may be `const`. It yields
  whether it names a trait, and what it contains. -/
  bound : (captures consts : Bool) → Reader (Bool × List Part)
  /-- An operand with the operators in front of it; whether a brace may open a structure. -/
  unary : (structs : Bool) → Reader Expr
  /-- The operators behind an operand that bind at least as tightly as a precedence. -/
  climb : (structs : Bool) → Expr → Precedence → Reader Expr
  /-- An expression as a statement or as the arm of a choice. -/
  early : Reader Expr
  /-- A pattern without alternatives. -/
  pattern : Reader Pat
  /-- An item. -/
  item : Reader Item
  /-- The statements of a block. -/
  statements : Reader (List Part)
  /-- What a `use` item imports; whether a tree in it may start with `::`. None if one does. -/
  useTree : (global : Bool) → Reader (Option UseTree)

namespace Grammar

/-- The grammar of no depth. -/
def bottom : Grammar where
  type _ := Reader.tooDeep
  bound _ _ := Reader.tooDeep
  unary _ := Reader.tooDeep
  climb _ _ _ := Reader.tooDeep
  early := Reader.tooDeep
  pattern := Reader.tooDeep
  item := Reader.tooDeep
  statements := Reader.tooDeep
  useTree _ := Reader.tooDeep

instance : Inhabited Grammar := ⟨bottom⟩

/-- An expression; whether a brace may open a structure in it. -/
def exprWith (g : Grammar) (structs : Bool) : Reader Expr := do
  let e ← g.unary structs
  g.climb structs e .jump

/-- An expression. -/
def expr (g : Grammar) : Reader Expr :=
  g.exprWith true

end Grammar

/-! ### Attributes -/

/-- The attributes in front of a construct: where they start, if there are any, and the
expressions in them. -/
structure Attributes where
  /-- Where the first attribute starts. -/
  start : Option Position
  /-- The expressions that the attributes hold. -/
  parts : List Part
  deriving Inhabited

namespace Attributes

/-- No attributes. -/
def empty : Attributes := ⟨none, []⟩

/-- Attributes with more attributes behind them. -/
def append (a b : Attributes) : Attributes :=
  ⟨a.start.or b.start, a.parts ++ b.parts⟩

instance : Append Attributes := ⟨append⟩

end Attributes

namespace Expr

/-- A path expression that starts with the attributes in front of it. -/
def startingAt (p : Position) : Expr → Expr
  | path _ name => path p name
  | qualified _ owner position name => qualified p owner position name
  | e => e

/-- An expression with attributes in front of it. -/
def withAttributes (a : Attributes) (e : Expr) : Expr :=
  match a.start with
  | none => e
  | some p =>
    match e with
    | attributed parts inner => attributed (a.parts ++ parts) (inner.startingAt p)
    | e =>
      if a.parts.isEmpty then e.startingAt p else attributed a.parts (e.startingAt p)

/-- The forms whose first part is an operand to which attributes in front of them belong. -/
def startsWithOperand : Form → Bool
  | .assign | .binary | .comparison | .cast => true
  | _ => false

/-- An expression with the attributes of the statement it makes up: they belong to its first
operand. -/
def withStatementAttributes (a : Attributes) : Expr → Expr
  | compound form (.expr left :: rest) =>
    if startsWithOperand form then
      compound form (.expr (withStatementAttributes a left) :: rest)
    else (compound form (.expr left :: rest)).withAttributes a
  | e => e.withAttributes a

/-- Whether an expression ends a statement or the arm of a choice without a semicolon or comma
behind it. -/
def isBlockLike (e : Expr) : Bool :=
  match e.form? with
  | some .conditional | some .choice | some .block | some .unsafeBlock | some .whileLoop
  | some .loop | some .forLoop | some .tryBlock | some .constBlock => true
  | _ => false

/-- Whether an expression is a range. -/
def isRange (e : Expr) : Bool :=
  e.form? = some .range

/-- Whether an expression is a comparison. -/
def isComparison (e : Expr) : Bool :=
  e.form? = some .comparison

end Expr

end CapabilityGate.Program
