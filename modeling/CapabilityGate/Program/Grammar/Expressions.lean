import CapabilityGate.Program.Grammar.Patterns

/-!
# Expressions

The rules for expressions: operands, what stands in front of and behind them, and the operators
between them, which bind by their precedence.

## Main definitions

* `Grammar.unaryRule`: an operand with the operators in front of it and all that follows it.
* `Grammar.climbRule`: the binary operators behind an operand.
* `Grammar.earlyExpr`: an expression as a statement or the arm of a choice, which ends with a
  block in front of it.
-/

namespace CapabilityGate.Program.Grammar

open Reader

/-! ### Operators -/

/-- The binary operators with their precedences, each before those that it starts with. -/
def binaryOperators : List (String × Precedence) :=
  [("+=", .assign), ("-=", .assign), ("*=", .assign), ("/=", .assign), ("%=", .assign),
   ("^=", .assign), ("&=", .assign), ("|=", .assign), ("<<=", .assign), (">>=", .assign),
   ("&&", .and), ("||", .or), ("<<", .shift), (">>", .shift), ("==", .compare), ("<=", .compare),
   ("!=", .compare), (">=", .compare), ("+", .sum), ("-", .sum), ("*", .product),
   ("/", .product), ("%", .product), ("^", .bitXor), ("&", .bitAnd), ("|", .bitOr),
   ("<", .compare), (">", .compare)]

/-- The binary operator that is next. -/
def binaryOperator? (ts : List Token) : Option (String × Precedence) :=
  match ts with
  | .mark _ _ _ :: _ => binaryOperators.find? fun op => atMark op.1 ts
  | _ => none

/-- Whether an assignment without an operator is next. -/
def atAssign (ts : List Token) : Bool :=
  atMark "=" ts && !atMark "=>" ts

/-- The precedence of the operator that is next. -/
def nextPrecedence (ts : List Token) : Precedence :=
  match binaryOperator? ts with
  | some (_, p) => p
  | none =>
    if atAssign ts then .assign
    else if atMark ".." ts then .range
    else if atName "as" ts then .cast
    else .jump

/-- The operand to the right of an operator, with the operators that bind more tightly. -/
def rightOperand (g : Grammar) (structs : Bool) (p : Precedence) : Reader Expr := do
  let first ← g.unary structs
  iterate (fun (right : Expr) => do
    let before ← ahead
    let next := nextPrecedence before
    if p < next || (next = p && p = .assign) then
      let right ← g.climb structs right next
      if (← ahead).length = before.length then return .inr right
      return .inl right
    return .inr right) first

/-- Whether a range without an end stops here. -/
def atOpenEnd (structs : Bool) (ts : List Token) : Bool :=
  ts.isEmpty || atMark "," ts || atMark ";" ts || (atMark "." ts && !atMark ".." ts) ||
    atMark "?" ts || atMark "=>" ts || (!structs && atGroup .brace ts) || atMark "=" ts ||
    atMark "+" ts || atMark "/" ts || atMark "%" ts || atMark "^" ts || atMark ">" ts ||
    atMark "<=" ts || atMark "!=" ts || atMark "-=" ts || atMark "*=" ts || atMark "&=" ts ||
    atMark "|=" ts || atMark "<<=" ts || atName "as" ts

/-- The dots of a range and its end, if it has one. -/
def rangeTail (g : Grammar) (structs : Bool) : Reader (List Part) := do
  let limits ← limits false
  if limits = .halfOpen && atOpenEnd structs (← ahead) then return []
  return [.expr (← g.rightOperand structs .range)]

/-- Fails if what follows a change of type would belong to the type. -/
def checkCast : Reader Unit := do
  let ts ← ahead
  if (atMark "." ts && !atMark ".." ts) || atMark "?" ts || atGroup .bracket ts ||
      atGroup .paren ts then
    fail "casts cannot be followed by this"

/-- The operators behind an operand that bind at least as tightly as `base`. -/
def climbRule (g : Grammar) (structs : Bool) (left : Expr) (base : Precedence) : Reader Expr :=
  iterate (fun (left : Expr) => do
    let ts ← ahead
    if left.isRange then return .inr left
    match binaryOperator? ts with
    | some (op, p) =>
      if p < base then return .inr left
      if p = .compare && left.isComparison then fail "comparison operators cannot be chained"
      mark op
      let right ← g.rightOperand structs p
      let form : Form := if p = .compare then .comparison else .binary
      return .inl (.compound form [.expr left, .expr right])
    | none =>
      if base ≤ .assign && atAssign ts then
        mark "="
        let right ← g.rightOperand structs .assign
        return .inl (.compound .assign [.expr left, .expr right])
      else if base ≤ .range && atMark ".." ts then
        return .inl (.compound .range (.expr left :: (← g.rangeTail structs)))
      else if base ≤ .cast && atName "as" ts then
        any
        let t ← g.type false
        checkCast
        return .inl (.compound .cast [.expr left, .type t])
      else
        return .inr left) left

/-! ### Blocks with a head -/

/-- An expression in a place where a brace opens the block behind it. -/
def headExpr (g : Grammar) : Reader Expr :=
  g.exprWith false

/-- Conditionals, each but the last the alternative of the one before. -/
def conditional (g : Grammar) : Reader Expr := do
  let clauses ← iterate (fun (done : List (List Part)) => do
    keyword "if"
    let condition ← g.headExpr
    let block ← g.plainBlock
    let parts := [.expr condition, .expr (.compound .block block)]
    unless ← keyword? "else" do return .inr (parts :: done)
    let ts ← ahead
    if atName "if" ts then return .inl (parts :: done)
    unless atGroup .brace ts do fail "expected `if` or curly braces"
    let last ← g.plainBlock
    return .inr ((parts ++ [.expr (.compound .block last)]) :: done)) []
  match clauses with
  | last :: before =>
    return before.foldl (fun inner parts => .compound .conditional (parts ++ [.expr inner]))
      (.compound .conditional last)
  | [] => fail "expected `if`"

/-- A loop with a condition, from its keyword on. -/
def whileLoop (g : Grammar) : Reader Expr := do
  keyword "while"
  let condition ← g.headExpr
  return .compound .whileLoop (.expr condition :: (← g.body))

/-- A loop over an iterator, from its keyword on. -/
def forLoop (g : Grammar) : Reader Expr := do
  keyword "for"
  let p ← g.alternatives
  keyword "in"
  let e ← g.headExpr
  return .compound .forLoop (.pattern p :: .expr e :: (← g.body))

/-- An endless loop, from its keyword on. -/
def endlessLoop (g : Grammar) : Reader Expr := do
  keyword "loop"
  return .compound .loop (← g.body)

/-- An unsafe block. -/
def unsafeBlock (g : Grammar) : Reader Expr := do
  keyword "unsafe"
  return .compound .unsafeBlock (← g.body)

/-- A block that errors leave. -/
def tryBlock (g : Grammar) : Reader Expr := do
  keyword "try"
  return .compound .tryBlock (← g.plainBlock)

/-- A loop or a block behind a label. -/
def labelled (g : Grammar) : Reader Expr := do
  lifetime
  mark ":"
  let ts ← ahead
  if atName "while" ts then g.whileLoop
  else if atName "for" ts then g.forLoop
  else if atName "loop" ts then g.endlessLoop
  else if atGroup .brace ts then return .compound .block (← g.body)
  else fail "expected loop or block expression"

/-! ### Operands -/

/-- Whether a list of generic parameters rather than a qualified path is next. -/
def atGenericParameters (ts : List Token) : Bool :=
  let second := afterOne ts
  let third := afterTwo ts
  atMark "<" ts &&
    (atMark ">" second || atMark "#" second || atName "const" second ||
      ((atLifetime second || atIdent second) &&
        (atMark ":" third || atMark "," third || atMark ">" third || atMark "=" third)))

/-- Whether an expression can start here. -/
def atExprStart (ts : List Token) : Bool :=
  atWord ts || atGroup .paren ts || atGroup .bracket ts || atGroup .brace ts || atLiteral ts ||
    (atMark "!" ts && !atMark "!=" ts) ||
    (atMark "-" ts && !atMark "-=" ts && !atMark "->" ts) ||
    (atMark "*" ts && !atMark "*=" ts) || (atMark "|" ts && !atMark "|=" ts) ||
    (atMark "&" ts && !atMark "&=" ts) || atMark ".." ts ||
    (atMark "<" ts && !atMark "<=" ts && !atMark "<<=" ts) || atMark "::" ts ||
    atLifetime ts || atMark "#" ts

/-- An expression, if one can start here. -/
def optionalExpr (g : Grammar) : Reader (List Part) := do
  if atExprStart (← ahead) then return [.expr (← g.expr)]
  return []

/-- The fields of a structure. Two dots and the structure that has the others may end them. -/
def structFields (g : Grammar) : Reader (List Part) :=
  iterate (fun (done : List Part) => do
    if ← isEmpty then return .inr done
    if ← mark? ".." then
      if ← isEmpty then return .inr done
      return .inr (done ++ [.expr (← g.expr)])
    let attributes ← g.outerAttributes
    let p ← here
    let value ← match ← member with
      | none =>
        mark ":"
        g.expr
      | some name =>
        if ← mark? ":" then g.expr
        else pure (.path p (.mk false [.mk name .none []]))
    let done := done ++ attributes.parts ++ [.expr value]
    if ← isEmpty then return .inr done
    mark ","
    return .inl done) []

/-- An operand that starts with a path: a macro, a structure or the path itself. -/
def pathOperand (g : Grammar) (structs : Bool) : Reader Expr := do
  let p ← here
  let (owner, name) ← g.qualifiedPath true
  let ts ← ahead
  if owner.isNone && name.isPlain && atMacroMark ts then
    mark "!"
    return .invoke (← g.invocation name)
  if structs && atGroup .brace ts then
    let fields ← group .brace g.structFields
    return .construct (owner.map fun o => Part.type o.1).toList name fields
  match owner with
  | some (owner, n) => return .qualified p owner n name
  | none => return .path p name

/-- What stands in round brackets: nothing, an expression, or the elements of a tuple. -/
def parenOperand (g : Grammar) : Reader Expr :=
  group .paren do
    if ← isEmpty then return .compound .tuple []
    let first ← g.expr
    if ← isEmpty then return .paren first
    mark ","
    let more ← terminated g.expr
    return .compound .tuple (.expr first :: more.map .expr)

/-- What stands in square brackets: elements, or one element and how often it is repeated. -/
def bracketOperand (g : Grammar) : Reader Expr :=
  group .bracket do
    if ← isEmpty then return .compound .array []
    let first ← g.expr
    if ← isEmpty then return .compound .array [.expr first]
    if ← mark? "," then
      let more ← terminated g.expr
      return .compound .array (.expr first :: more.map .expr)
    if ← mark? ";" then return .compound .repeated [.expr first, .expr (← g.expr)]
    fail "expected `,` or `;`"

/-- The parameters of a closure, between its bars. -/
def closureParameters (g : Grammar) : Reader (List Part) :=
  iterate (fun (done : List Part) => do
    if ← sees (atMark "|") then return .inr done
    let attributes ← g.outerAttributes
    let p ← g.typedPattern attributes.parts
    let done := done ++ [.pattern p]
    if ← sees (atMark "|") then return .inr done
    mark ","
    return .inl done) []

/-- A closure. -/
def closure (g : Grammar) (structs : Bool) : Reader Expr := do
  let lifetimes ← g.binder?
  discard (keyword? "const")
  discard (keyword? "static")
  discard (keyword? "async")
  discard (keyword? "move")
  mark "|"
  let parameters ← g.closureParameters
  mark "|"
  let before := lifetimes.getD [] ++ parameters
  if ← mark? "->" then
    let t ← g.type true
    let block ← g.plainBlock
    return .compound .closure (before ++ [.type t, .expr (.compound .block block)])
  return .compound .closure (before ++ [.expr (← g.exprWith structs)])

/-- A way out of a loop or block, perhaps with a label and a value. -/
def breakOut (g : Grammar) (structs : Bool) : Reader Expr := do
  keyword "break"
  let ts ← ahead
  if atLifetime ts && atMark ":" (afterOne ts) then
    let p ← here
    discard g.expr
    failAt "parentheses required" p
  discard lifetime?
  let ts ← ahead
  if atExprStart ts && (structs || !atGroup .brace ts) then
    return .compound .breakOut [.expr (← g.expr)]
  return .compound .breakOut []

/-- A pattern test. -/
def letTest (g : Grammar) (structs : Bool) : Reader Expr := do
  keyword "let"
  let p ← g.alternatives
  mark "="
  let first ← g.unary structs
  let e ← g.climb structs first .compare
  return .compound .letTest [.pattern p, .expr e]

/-- A range without a start. -/
def openRange (g : Grammar) (structs : Bool) : Reader Expr :=
  (fun tail => .compound .range tail) <$> g.rangeTail structs

/-- Whether a closure is next. -/
def atClosure (ts : List Token) : Bool :=
  let next := afterOne ts
  atMark "|" ts || atName "move" ts ||
    (atName "for" ts && atGenericParameters next) ||
    (atName "const" ts && !atGroup .brace next) || atName "static" ts ||
    (atName "async" ts && (atMark "|" next || atName "move" next))

/-- Whether an asynchronous block is next. -/
def atAsyncBlock (ts : List Token) : Bool :=
  let next := afterOne ts
  atName "async" ts &&
    (atGroup .brace next || (atName "move" next && atGroup .brace (afterOne next)))

/-- One arm of a choice: a pattern, perhaps a condition, and an expression, with a comma behind
it unless it is a block or the last. -/
def arm (g : Grammar) : Reader Part := do
  let attributes ← g.outerAttributes
  let p ← g.alternatives
  let guard_ ← if ← keyword? "if" then pure [Part.expr (← g.expr)] else pure []
  mark "=>"
  let e ← g.early
  if e.isBlockLike || (← isEmpty) then discard (mark? ",") else mark ","
  return .group (attributes.parts ++ .pattern p :: guard_ ++ [.expr e])

/-- A choice between patterns. -/
def choice (g : Grammar) : Reader Expr := do
  keyword "match"
  let e ← g.headExpr
  let arms ← group .brace do
    let attributes ← g.innerAttributes
    return attributes ++ (← untilEmpty g.arm)
  return .compound .choice (.expr e :: arms)

/-- An operand without what follows it. -/
def atom (g : Grammar) (structs : Bool) : Reader Expr := do
  let ts ← ahead
  let next := afterOne ts
  if atLiteral ts then
    literal
    return .compound .literal []
  else if atAsyncBlock ts then
    keyword "async"
    discard (keyword? "move")
    return .compound .asyncBlock (← g.plainBlock)
  else if atName "try" ts && atGroup .brace next then
    g.tryBlock
  else if atClosure ts then
    g.closure structs
  else if atName "builtin" ts && atMark "#" next then
    any
    mark "#"
    discard ident
    group .paren all
    return .compound .verbatim []
  else if atPathName ts || atMark "::" ts || atMark "<" ts ||
      (atName "try" ts && (atMark "!" next || atMark "::" next)) then
    g.pathOperand structs
  else if atGroup .paren ts then
    g.parenOperand
  else if atName "break" ts then
    g.breakOut structs
  else if atName "continue" ts then
    any
    discard lifetime?
    return .compound .continueOn []
  else if atName "return" ts then
    any
    return .compound .returnOut (← g.optionalExpr)
  else if atName "become" ts then
    any
    discard g.expr
    return .compound .verbatim []
  else if atGroup .bracket ts then
    g.bracketOperand
  else if atName "let" ts then
    g.letTest structs
  else if atName "if" ts then
    g.conditional
  else if atName "while" ts then
    g.whileLoop
  else if atName "for" ts then
    g.forLoop
  else if atName "loop" ts then
    g.endlessLoop
  else if atName "match" ts then
    g.choice
  else if atName "yield" ts then
    any
    return .compound .yieldOut (← g.optionalExpr)
  else if atName "unsafe" ts then
    g.unsafeBlock
  else if atName "const" ts then
    g.constBlock
  else if atGroup .brace ts then
    return .compound .block (← g.body)
  else if atMark ".." ts then
    g.openRange structs
  else if atName "_" ts then
    any
    return .compound .infer []
  else if atLifetime ts then
    g.labelled
  else
    fail "expected an expression"

/-- The numbers of the tuple fields that a number with a point stands for, as in `x.0.1`, and
whether a point ends it. -/
def fieldIndices? (literal : String) : Option (List Nat × Bool) := do
  let dotted := literal.toList.contains '.'
  let open_ := literal.toList.getLast? == some '.'
  let parts := (literal.splitOn ".").filter (!·.isEmpty)
  let indices ← parts.mapM fieldIndex?
  if dotted then some (indices, open_) else none

/-- Whether a literal is a number with a point or an exponent. -/
def isFloat (literal : String) : Bool :=
  isNumeral literal &&
    match literal.toList with
    | '0' :: 'x' :: _ | '0' :: 'o' :: _ | '0' :: 'b' :: _ => false
    | cs => cs.any fun c => c == '.' || c == 'e' || c == 'E'

/-- A field, a method call or the wait for a future, behind the point that asks for it. -/
def selection (g : Grammar) (e : Expr) : Reader Expr := do
  if ← keyword? "await" then return .compound .await [.expr e]
  let p ← here
  let name ← member
  match name with
  | none => return .compound .field [.expr e]
  | some name =>
    let turbofish ← if ← sees (atMark "::") then
        mark "::"
        some <$> g.angleArguments
      else pure none
    if turbofish.isSome || (← sees (atGroup .paren)) then
      let args ← group .paren (terminated g.expr)
      return .method e name p (turbofish.getD []) args
    return .compound .field [.expr e]

/-- What follows an operand: calls, fields, indices and question marks. -/
def trailers (g : Grammar) (e : Expr) : Reader Expr :=
  iterate (fun (e : Expr) => do
    let ts ← ahead
    if atGroup .paren ts then
      return .inl (.call e (← group .paren (terminated g.expr)))
    else if atMark "." ts && !atMark ".." ts && !e.isRange then
      mark "."
      match ← ahead with
      | .literal s p :: _ =>
        if isFloat s then
          any
          match fieldIndices? s with
          | none => failAt "expected unsuffixed integer" p
          | some (indices, open_) =>
            let e := indices.foldl (fun e _ => .compound .field [.expr e]) e
            if open_ then return .inl (← g.selection e) else return .inl e
        else return .inl (← g.selection e)
      | _ => return .inl (← g.selection e)
    else if atGroup .bracket ts then
      return .inl (.compound .index [.expr e, .expr (← group .bracket g.expr)])
    else if atMark "?" ts && !e.isRange then
      mark "?"
      return .inl (.tried e)
    else
      return .inr e) e

/-- An operand with the operators in front of it and all that follows it. -/
def unaryRule (g : Grammar) (structs : Bool) : Reader Expr := do
  let attributes ← g.outerAttributes
  let ts ← ahead
  if atMark "&" ts then
    mark "&"
    let ts ← ahead
    let raw := atName "raw" ts && atOneOf ["mut", "const"] (afterOne ts)
    if raw then any
    unless ← keyword? "mut" do
      if raw then keyword "const"
    let inner ← g.unary structs
    if raw then return (Expr.compound .rawAddress [.expr inner]).withAttributes attributes
    return (Expr.reference inner).withAttributes attributes
  else if atMark "*" ts || atMark "!" ts || atMark "-" ts then
    any
    return (Expr.compound .unary [.expr (← g.unary structs)]).withAttributes attributes
  else
    let p ← here
    let e ← g.trailers (← g.atom structs)
    if e.form? = some .verbatim then return e
    if attributes.start.isSome && e.isRange then
      failAt "attributes are not allowed on range expressions starting with `..`" p
    return e.withAttributes attributes

/-- A block, or an expression that starts with a keyword and ends with a block. -/
def blockLike? (g : Grammar) : Reader (Option Expr) := do
  let ts ← ahead
  let next := afterOne ts
  if atName "if" ts then some <$> g.conditional
  else if atName "while" ts then some <$> g.whileLoop
  else if atName "for" ts && !atGenericParameters next then some <$> g.forLoop
  else if atName "loop" ts then some <$> g.endlessLoop
  else if atName "match" ts then some <$> g.choice
  else if atName "try" ts && atGroup .brace next then some <$> g.tryBlock
  else if atName "unsafe" ts then some <$> g.unsafeBlock
  else if atName "const" ts && atGroup .brace next then some <$> g.constBlock
  else if atGroup .brace ts then return some (.compound .block (← g.body))
  else if atLifetime ts then some <$> g.labelled
  else return none

/-- An expression as a statement or as the arm of a choice: it ends with a block at its start,
unless a field, a method or a question mark follows. -/
def earlyRule (g : Grammar) : Reader Expr := do
  let attributes ← g.outerAttributes
  match ← g.blockLike? with
  | none =>
    let e ← g.unary true
    g.climb true (e.withAttributes attributes) .jump
  | some e =>
    let ts ← ahead
    if (atMark "." ts && !atMark ".." ts) || atMark "?" ts then
      let e ← g.trailers e
      g.climb true (e.withAttributes attributes) .jump
    else
      return e.withAttributes attributes

end CapabilityGate.Program.Grammar
