import CapabilityGate.Program.Grammar.Types

/-!
# Patterns

The rules for patterns. A lone name binds, a path with nothing behind it is an expression to
compare with, and so are literals, the ends of ranges and constant blocks.

## Main definitions

* `Grammar.patternRule`: a pattern without alternatives.
* `Grammar.alternatives`: patterns between bars.
-/

namespace CapabilityGate.Program.Grammar

open Reader

/-! ### Ranges and fields -/

/-- Whether a range includes its end. -/
inductive Limits where
  /-- It does not. -/
  | halfOpen
  /-- It does. -/
  | closed
  deriving Repr, DecidableEq

/-- The dots of a range. Three dots are accepted only in the `old` writing of patterns. -/
def limits (old : Bool) : Reader Limits := do
  let ts ← ahead
  if atMark "..=" ts then
    mark "..="
    return .closed
  else if atMark "..." ts then
    unless old do fail "expected `..`"
    mark "..."
    return .closed
  else
    mark ".."
    return .halfOpen

/-- A path expression, which may start with a type in angle brackets. -/
def pathExpr (g : Grammar) : Reader Expr := do
  let p ← here
  match ← g.qualifiedPath true with
  | (some (owner, n), name) => return .qualified p owner n name
  | (none, name) => return .path p name

/-- A block evaluated when the program is compiled. -/
def constBlock (g : Grammar) : Reader Expr := do
  keyword "const"
  return .compound .constBlock (← g.body)

/-- The value of digits of a base up to sixteen, between which underscores may stand. -/
def digitsValue? (base : Nat) (digits : List Char) : Option Nat :=
  digits.foldl (fun value c => do
    let value ← value
    if c == '_' then some value
    else
      let d := if c.isDigit then c.toNat - 48 else c.toLower.toNat - 87
      if (c.isDigit || c.isAlpha) && d < base then some (value * base + d) else none) (some 0)

/-- The number of a tuple field that a literal without suffix stands for. -/
def fieldIndex? (literal : String) : Option Nat :=
  let value := match literal.toList with
    | '0' :: 'x' :: digits => digitsValue? 16 digits
    | '0' :: 'o' :: digits => digitsValue? 8 digits
    | '0' :: 'b' :: digits => digitsValue? 2 digits
    | digits => digitsValue? 10 digits
  value.filter (· < UInt32.size)

/-- The field of a structure or a tuple: a name or a number. It yields the name, if it is one. -/
def member : Reader (Option Word) := do
  match ← ahead with
  | .literal s _ :: _ =>
    if (fieldIndex? s).isNone then fail "expected identifier or integer"
    any
    return none
  | ts =>
    unless atIdent ts do fail "expected identifier or integer"
    return some (← ident)

/-- Whether no end of a range is next. -/
def atNoBound (ts : List Token) : Bool :=
  ts.isEmpty || atMark "|" ts || atMark "=" ts || (atMark ":" ts && !atMark "::" ts) ||
    atMark "," ts || atMark ";" ts || atName "if" ts

/-- An end of a range in a pattern, if one is next. -/
def rangeBound (g : Grammar) : Reader (Option Expr) := do
  let ts ← ahead
  if atNoBound ts then return none
  if atLiteral ts then
    literal
    return some (.compound .literal [])
  else if atPathName ts || atMark "::" ts || atMark "<" ts then
    return some (← g.pathExpr)
  else if atName "const" ts then
    return some (← g.constBlock)
  else
    fail "expected the end of a range"

/-- The dots and the end of a range in a pattern. A closed range has an end. -/
def rangeEnd (g : Grammar) (old : Bool) : Reader (Option Expr) := do
  let limits ← limits old
  let last ← g.rangeBound
  if limits = .closed && last.isNone then fail "expected range upper bound"
  return last

/-- The pattern for a range with the ends that it has. -/
def rangePattern (first last : Option Expr) : Pat :=
  .compound [.expr (.compound .range ((first.toList ++ last.toList).map .expr))]

/-! ### Patterns -/

/-- Patterns between bars. A bar may stand in front. -/
def alternatives (g : Grammar) : Reader Pat := do
  let led ← mark? "|"
  let first ← g.pattern
  let more ← collect do
    let ts ← ahead
    if atMark "|" ts && !atMark "||" ts && !atMark "|=" ts then
      mark "|"
      return some (Part.pattern (← g.pattern))
    return none
  if led || !more.isEmpty then return .compound (.pattern first :: more)
  return first

/-- The field of a structure in a pattern, with the pattern for it. -/
def fieldPattern (g : Grammar) : Reader (List Part) := do
  let boxed ← keyword? "box"
  let byRef ← keyword? "ref"
  let mutable_ ← keyword? "mut"
  if boxed || byRef || mutable_ then
    let name ← ident
    return if boxed then [] else [.pattern (.bind name [])]
  match ← member with
  | none =>
    mark ":"
    return [.pattern (← g.alternatives)]
  | some name =>
    if ← mark? ":" then return [.pattern (← g.alternatives)]
    return [.pattern (.bind name [])]

/-- The fields of a structure in a pattern. Two dots end them. -/
def fieldPatterns (g : Grammar) : Reader (List Part) :=
  iterate (fun (done : List Part) => do
    if ← isEmpty then return .inr done
    let attributes ← g.outerAttributes
    let done := done ++ attributes.parts
    if ← mark? ".." then return .inr done
    let done := done ++ (← g.fieldPattern)
    if ← isEmpty then return .inr done
    mark ","
    return .inl done) []

/-- A pattern that starts with a path: a macro, a structure, a tuple structure, a range or the
path itself. -/
def pathPattern (g : Grammar) : Reader Pat := do
  let p ← here
  let (owner, name) ← g.qualifiedPath true
  let before : List Part := (owner.map fun o => Part.type o.1).toList
  let value : Expr := match owner with
    | some (owner, n) => .qualified p owner n name
    | none => .path p name
  let ts ← ahead
  if owner.isNone && name.isPlain && atMacroMark ts then
    mark "!"
    return .compound [.invoke (← g.invocation name)]
  if atGroup .brace ts then
    return .compound (before ++ .path name :: (← group .brace g.fieldPatterns))
  else if atGroup .paren ts then
    let fields ← group .paren (terminated g.alternatives)
    return .compound (before ++ .path name :: fields.map .pattern)
  else if atMark ".." ts then
    return rangePattern (some value) (← g.rangeEnd true)
  else
    return .compound [.expr value]

/-- Whether a pattern is a range without one of its ends. -/
def isOpenRange : Pat → Bool
  | .compound [.expr (.compound .range ends)] => ends.length < 2
  | _ => false

/-- The patterns of a slice, none of which is an open range. -/
def slicePatterns (g : Grammar) : Reader (List Part) :=
  terminated do
    let ts ← ahead
    let p ← g.alternatives
    if isOpenRange p then
      let dots := ts.dropWhile fun t => !atMark "." [t]
      failAt "range pattern is not allowed unparenthesized inside slice pattern"
        ((dots.head?.map Token.position).getD .start)
    return .pattern p

/-- Whether a path that is no lone name is next. -/
def atPathPattern (ts : List Token) : Bool :=
  let next := afterOne ts
  (atIdent ts && (atMark "::" next || atMark "!" next || atGroup .brace next ||
      atGroup .paren next || atMark ".." next)) ||
    (atName "self" ts && atMark "::" next) || atMark "::" ts || atMark "<" ts ||
    atOneOf ["Self", "super", "crate"] ts

/-- A pattern without alternatives. -/
def patternRule (g : Grammar) : Reader Pat := do
  let ts ← ahead
  if atPathPattern ts then
    g.pathPattern
  else if atName "_" ts then
    any
    return .compound []
  else if atName "box" ts then
    any
    discard g.pattern
    return .compound []
  else if atMark "-" ts || atLiteral ts || atName "const" ts then
    let first ← g.rangeBound
    if ← sees (atMark "..") then return rangePattern first (← g.rangeEnd true)
    return .compound (first.toList.map .expr)
  else if atOneOf ["ref", "mut", "self"] ts || atIdent ts then
    discard (keyword? "ref")
    discard (keyword? "mut")
    let name ← if ← sees (atName "self") then word else ident
    let inner ← if ← mark? "@" then pure [Part.pattern (← g.pattern)] else pure []
    return .bind name inner
  else if atMark "&" ts then
    mark "&"
    discard (keyword? "mut")
    return .compound [.pattern (← g.pattern)]
  else if atGroup .paren ts then
    let elements ← group .paren (terminated g.alternatives)
    return .compound (elements.map .pattern)
  else if atGroup .bracket ts then
    return .compound (← group .bracket g.slicePatterns)
  else if atMark ".." ts && !atMark "..." ts then
    match ← g.rangeEnd false with
    | none => return .compound []
    | some last => return rangePattern none (some last)
  else
    fail "expected a pattern"

/-- A pattern with the type behind its colon, if there is one. -/
def typedPattern (g : Grammar) (attributes : List Part) : Reader Pat := do
  let p ← g.pattern
  if ← mark? ":" then return .typed attributes p (← g.type true)
  if attributes.isEmpty then return p
  return .compound (attributes ++ [.pattern p])

end CapabilityGate.Program.Grammar
