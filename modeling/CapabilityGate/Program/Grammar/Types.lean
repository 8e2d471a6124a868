import CapabilityGate.Program.Grammar.Basic

/-!
# Attributes, paths, types and generics

The rules for what stands around expressions: attributes, paths with their generic arguments,
bounds, types, and the parameters and conditions of generic items.

## Main definitions

* `Grammar.outerAttributes`, `Grammar.innerAttributes`.
* `Grammar.path`, `Grammar.qualifiedPath`, `Grammar.plainPath`.
* `Grammar.typeRule`: types.
* `Grammar.generics`, `Grammar.whereClause`: generic parameters and conditions.
* `Grammar.invocation`: what follows the mark of a macro use.
-/

namespace CapabilityGate.Program.Grammar

open Reader

/-! ### Paths without arguments -/

/-- The keywords that may be names in a path. -/
def pathKeywords : List String :=
  ["super", "self", "Self", "crate"]

/-- Whether a name of a path is next. -/
def atPathName (ts : List Token) : Bool :=
  atIdent ts || atOneOf pathKeywords ts

/-- A path whose segments have no arguments. -/
def plainPath : Reader Path := do
  let global ← mark? "::"
  let (names, open_) ← iterate (fun (names : List Word) => do
    unless ← sees atPathName do return .inr (names.reverse, true)
    let name ← word
    if ← mark? "::" then return .inl (name :: names)
    return .inr ((name :: names).reverse, false)) []
  if names.isEmpty then
    let _ ← ident
  else if open_ then
    fail "expected path segment after `::`"
  return .mk global (names.map fun name => .mk name .none [])

/-! ### Macros -/

/-- How the tokens of a macro read: as expressions between commas if they can. -/
def readingOf (g : Grammar) (tokens : List Token) : Reading :=
  match (terminated g.expr).run tokens with
  | .ok members => .list members
  | .error _ => .raw

/-- The use of the macro `name`: the tokens in delimiters behind its mark. -/
def invocation (g : Grammar) (name : Path) : Reader Invocation := do
  let (d, tokens) ← anyGroup
  return .mk name.names (d = .brace) tokens (g.readingOf tokens)

/-- Whether a mark of a macro use is next. -/
def atMacroMark (ts : List Token) : Bool :=
  atMark "!" ts && !atMark "!=" ts

/-! ### Attributes -/

/-- What an attribute says: a path, with tokens in delimiters or with a value behind it. A value
that is not just a literal is an expression in the attribute. -/
def meta_ (g : Grammar) : Reader (List Part) := do
  if ← sees (atName "unsafe") then any else discard plainPath
  let ts ← ahead
  if atGroup .paren ts || atGroup .bracket ts || atGroup .brace ts then
    any
    return []
  else if ← mark? "=" then
    let alone ← would do
      literal
      isEmpty
    if alone = some true then
      literal
      return []
    let ts ← ahead
    if atMark "#" ts && atGroup .bracket (afterOne ts) then
      fail "unexpected attribute inside of attribute"
    return [.expr (← g.expr)]
  else
    return []

/-- One attribute, from its hash on; inner attributes have an exclamation mark. -/
def attribute_ (g : Grammar) (inner : Bool) : Reader Attributes := do
  let p ← here
  mark "#"
  if inner then mark "!"
  let parts ← group .bracket g.meta_
  return ⟨some p, parts⟩

/-- The attributes in front of a construct. -/
def outerAttributes (g : Grammar) : Reader Attributes := do
  let found ← collect do
    if ← sees (atMark "#") then return some (← g.attribute_ false)
    return none
  return found.foldl (· ++ ·) Attributes.empty

/-- The attributes at the start of a body. -/
def innerAttributes (g : Grammar) : Reader (List Part) := do
  let found ← collect do
    let ts ← ahead
    if atMark "#" ts && atMark "!" (afterOne ts) then return some (← g.attribute_ true)
    return none
  return found.flatMap Attributes.parts

/-! ### Blocks -/

/-- A block. -/
def plainBlock (g : Grammar) : Reader (List Part) :=
  group .brace g.statements

/-- A block that may start with attributes of its own. -/
def body (g : Grammar) : Reader (List Part) :=
  group .brace do
    let attributes ← g.innerAttributes
    return attributes ++ (← g.statements)

/-- A block as an expression: attributes, a label, and the block. -/
def blockExpr (g : Grammar) : Reader Expr := do
  let attributes ← g.outerAttributes
  if ← lifetime? then mark ":"
  return (Expr.compound .block (← g.body)).withAttributes attributes

/-! ### Generic arguments -/

/-- A value as a generic argument: a literal, a name or a block. -/
def constArgument (g : Grammar) : Reader Expr := do
  let ts ← ahead
  if atLiteral ts then
    literal
    return .compound .literal []
  else if atIdent ts then
    let p ← here
    let name ← ident
    return .path p (.mk false [.mk name .none []])
  else if atGroup .brace ts then
    g.blockExpr
  else
    fail "expected literal, identifier or block"

/-- A type behind an arrow, if there is an arrow. -/
def returnType (g : Grammar) (plus : Bool) : Reader (List Part) := do
  if ← mark? "->" then return [.type (← g.type plus)]
  return []

/-- The arguments of a function trait. -/
def parenArguments (g : Grammar) : Reader (List Part) := do
  let inputs ← group .paren (terminated (g.type true))
  return inputs.map .type ++ (← g.returnType false)

/-- The lifetimes of a `for<..>` binder, with the expressions in their attributes. -/
def binder (g : Grammar) : Reader (List Part) := do
  keyword "for"
  mark "<"
  let found ← iterate (fun (done : List Part) => do
    if ← sees (atMark ">") then return .inr done
    let attributes ← g.outerAttributes
    lifetime
    if ← mark? ":" then
      discard (joined "+" (fun ts => ts.isEmpty || atMark "," ts || atMark ">" ts) lifetime)
    let done := done ++ attributes.parts
    if ← sees (atMark ">") then return .inr done
    mark ","
    return .inl done) []
  mark ">"
  return found

/-- A `for<..>` binder, if there is one. -/
def binder? (g : Grammar) : Reader (Option (List Part)) := do
  if ← sees (atName "for") then return some (← g.binder)
  return none

/-! ### Paths -/

/-- Appends arguments in round brackets to the last segment of a path. -/
def withParenArguments (p : Path) (args : List Part) : Path :=
  match p.segments.reverse with
  | .mk name _ _ :: before => .mk p.isGlobal ((Segment.mk name .paren args :: before).reverse)
  | [] => p

/-- Whether the last segment of a path has no arguments, or an empty list of them. -/
def lastIsBare (p : Path) : Bool :=
  match p.segments.getLast? with
  | some s => s.style == .none || (s.style == .angle && s.args.isEmpty)
  | none => false

/-- Whether arguments in round brackets are next. -/
def atParenArguments (ts : List Token) : Bool :=
  atGroup .paren ts || (atMark "::" ts && atGroup .paren (afterTwo ts))

/-- One generic argument. A lifetime, a value, and a constraint on an associated item are groups;
a type is a part of its own. -/
def argument (g : Grammar) : Reader Part := do
  let ts ← ahead
  if atLifetime ts && !atMark "+" (afterOne ts) then
    lifetime
    return .group []
  if atLiteral ts || atGroup .brace ts then
    return .group [.expr (← g.constArgument)]
  let t ← g.type true
  match t with
  | .path (.mk false [.mk name style args]) =>
    if style == .paren then return .type t
    if ← mark? "=" then
      let ts ← ahead
      if atLiteral ts || atGroup .brace ts then
        return .group (args ++ [.expr (← g.constArgument)])
      return .group (args ++ [.type (← g.type true)])
    if ← mark? ":" then
      let bounds ← joined "+" (fun ts => atMark "," ts || atMark ">" ts) (g.bound false true)
      return .group (args ++ bounds.flatMap Prod.snd)
    return .type (.path (.mk false [.mk name style args]))
  | t => return .type t

/-- The arguments of a segment in angle brackets. -/
def angleArguments (g : Grammar) : Reader (List Part) := do
  discard (mark? "::")
  mark "<"
  let args ← iterate (fun (done : List Part) => do
    if ← sees (atMark ">") then return .inr done.reverse
    let arg ← g.argument
    if ← sees (atMark ">") then return .inr (arg :: done).reverse
    mark ","
    return .inl (arg :: done)) []
  mark ">"
  return args

/-- One segment of a path. In an expression its arguments stand behind `::`. -/
def segment (g : Grammar) (inExpr : Bool) : Reader Segment := do
  if ← sees (atOneOf ["super", "self", "crate", "try"]) then return .mk (← word) .none []
  let name ← if ← sees (atName "Self") then word else ident
  let ts ← ahead
  if (!inExpr && atMark "<" ts && !atMark "<=" ts && !atMark "<<=" ts) ||
      (atMark "::" ts && atMark "<" (afterTwo ts)) then
    return .mk name .angle (← g.angleArguments)
  return .mk name .none []

/-- The segments behind one, each after `::`. -/
def moreSegments (g : Grammar) (inExpr : Bool) : Reader (List Segment) :=
  collect do
    let ts ← ahead
    if atMark "::" ts && !atGroup .paren (afterTwo ts) then
      mark "::"
      return some (← g.segment inExpr)
    return none

/-- A path; whether it stands in an expression. -/
def path (g : Grammar) (inExpr : Bool) : Reader Path := do
  let global ← mark? "::"
  let first ← g.segment inExpr
  let more ← g.moreSegments inExpr
  return .mk global (first :: more)

/-- One bound: whether it names a trait, and what it contains. Captures of lifetimes with `use`
are refused unless `captures`, and traits with `const` are refused unless `consts`. -/
def boundRule (g : Grammar) (captures consts : Bool) : Reader (Bool × List Part) := do
  if ← sees atLifetime then
    lifetime
    return (false, [])
  if ← sees (atName "use") then
    let p ← here
    keyword "use"
    mark "<"
    discard (iterate (fun (_ : Unit) => do
      if ← sees (atMark ">") then return .inr ()
      if ← sees atLifetime then lifetime
      else if ← sees (atName "Self") then any
      else discard ident
      if ← sees (atMark ">") then return .inr ()
      mark ","
      return .inl ()) ())
    mark ">"
    if captures then return (false, [])
    failAt "`use<...>` precise capturing syntax is not allowed here" p
  let trait_ : Reader (Bool × List Part) := do
    let binder ← g.binder?
    let p ← here
    let conditional ← sees (atGroup .bracket)
    let isConst ← (do
      if conditional then
        group .bracket (keyword "const")
        return true
      if atName "const" (afterOne (← ahead)) && (← mark? "~") then
        keyword "const"
        return true
      keyword? "const")
    if isConst && !consts then failAt "`const` is not allowed here" p
    let maybe ← mark? "?"
    let binder ← if binder.isNone && maybe then g.binder? else pure binder
    let name ← g.path false
    let name ← if lastIsBare name && (← sees atParenArguments) then do
        discard (mark? "::")
        pure (withParenArguments name (← g.parenArguments))
      else pure name
    if isConst then return (true, [])
    return (true, binder.getD [] ++ [.path name])
  if ← sees (atGroup .paren) then group .paren trait_ else trait_

/-- Bounds with plus signs between them, until the tokens left pass a test. -/
def boundsUntil (g : Grammar) (stop : List Token → Bool) : Reader (List Part) := do
  return (← joined "+" stop (g.bound false true)).flatMap Prod.snd

/-- A path that may start with a type in angle brackets: that type and the number of segments
of the trait behind it, if it does, and all segments. -/
def qualifiedPath (g : Grammar) (inExpr : Bool) : Reader (Option (Ty × Nat) × Path) := do
  unless ← sees (atMark "<") do return (none, ← g.path inExpr)
  mark "<"
  let owner ← g.type true
  let trait_ ← if ← keyword? "as" then some <$> g.path false else pure none
  mark ">"
  mark "::"
  let first ← g.segment inExpr
  let more ← collect do
    if ← mark? "::" then return some (← g.segment inExpr)
    return none
  match trait_ with
  | some p => return (some (owner, p.segments.length), .mk p.isGlobal (p.segments ++ first :: more))
  | none => return (some (owner, 0), .mk true (first :: more))

/-! ### Types -/

/-- Whether a bound may follow a plus sign. -/
def atBound (consts : Bool) (ts : List Token) : Bool :=
  atWord ts || atMark "::" ts || atMark "?" ts || atLifetime ts || atGroup .paren ts ||
    (consts && (atGroup .bracket ts || atName "const" ts))

/-- Bounds with plus signs between them, one if not `plus`; whether one of them names a trait,
and what they contain. -/
def bounds (g : Grammar) (plus captures consts : Bool) : Reader (Bool × List Part) := do
  let found ← iterate (fun (done : List (Bool × List Part)) => do
    let done := done ++ [← g.bound captures consts]
    unless plus do return .inr done
    unless ← mark? "+" do return .inr done
    unless ← sees (atBound consts) do return .inr done
    return .inl done) []
  return (found.any Prod.fst, found.flatMap Prod.snd)

/-- The bounds of a trait object, one of which names a trait. An error is at `p`. -/
def objectBounds (g : Grammar) (p : Position) (plus : Bool) : Reader (List Part) := do
  let (hasTrait, parts) ← g.bounds plus false false
  unless hasTrait do failAt "at least one trait is required for an object type" p
  return parts

/-- A trait object, with or without its keyword. -/
def traitObject (g : Grammar) : Reader Ty := do
  let p ← here
  let (parts, text) ← withText do
    discard (keyword? "dyn")
    g.objectBounds p true
  return .other text parts

/-- The bounds that follow a first one, each after a plus sign. -/
def moreBounds (g : Grammar) : Reader (List Part) := do
  let found ← collect do
    if ← mark? "+" then return some (← g.bound false false).2
    return none
  return found.flatten

/-- A path as a type: it may have arguments in round brackets. -/
def typePath (g : Grammar) : Reader (Option (Ty × Nat) × Path) := do
  let (owner, p) ← g.qualifiedPath false
  let p ← iterate (fun (p : Path) => do
    unless lastIsBare p && (← sees atParenArguments) do return .inr p
    discard (mark? "::")
    let inputs ← group .paren (terminated (g.type true))
    let output ← if ← mark? "->" then some <$> g.type false else pure none
    let p := withParenArguments p (inputs.map .type ++ (output.map .type).toList)
    let continues := match output with
      | none => true
      | some (.wrapped _) => true
      | _ => false
    if continues then
      let more ← g.moreSegments false
      return .inl (.mk p.isGlobal (p.segments ++ more))
    return .inr p) p
  return (owner, p)

/-- The name and colon in front of the type of a parameter, if they are there. -/
def parameterName (self : Bool) : Reader Bool := do
  let ts ← ahead
  if (atIdent ts || atName "_" ts || (self && atName "self" ts)) &&
      atMark ":" (afterOne ts) && !atMark "::" (afterOne ts) then
    any
    mark ":"
    return true
  return false

/-- A parameter of a function type; `first` when no other is before it. -/
def functionTypeParameter (g : Grammar) (first : Bool) : Reader (List Part) := do
  let attributes ← g.outerAttributes
  let ts ← ahead
  let mutSelf := first && atName "mut" ts && atName "self" (afterOne ts)
  if mutSelf then any
  let named ← parameterName first
  if mutSelf && !named then
    keyword "self"
    return attributes.parts
  let t ← g.type true
  return attributes.parts ++ (if mutSelf then [] else [.type t])

/-- Whether the dots of a variable number of arguments are next, perhaps after a name. -/
def atDots (ts : List Token) : Bool :=
  atMark "..." ts ||
    ((atIdent ts || atName "_" ts) && atMark ":" (afterOne ts) && atMark "..." (afterTwo ts))

/-- The parameters of a function type. -/
def functionTypeParameters (g : Grammar) : Reader (List Part) :=
  iterate (fun (first, done) => do
    if ← isEmpty then return .inr done
    let attributes ← g.outerAttributes
    let done := done ++ attributes.parts
    if ← sees atDots then
      unless ← mark? "..." do
        any
        mark ":"
        mark "..."
      discard (mark? ",")
      return .inr done
    let done := done ++ (← g.functionTypeParameter first)
    if ← isEmpty then return .inr done
    mark ","
    return .inl (false, done)) (true, ([] : List Part))

/-- The name of a calling convention. -/
def abi? : Reader Unit := do
  if ← keyword? "extern" then
    if ← sees atStringLiteral then any

/-- A function type, after its binder. -/
def functionType (g : Grammar) : Reader (List Part) := do
  let lifetimes ← g.binder?
  discard (keyword? "unsafe")
  abi?
  keyword "fn"
  let inputs ← group .paren g.functionTypeParameters
  let output ← g.returnType false
  return lifetimes.getD [] ++ inputs ++ output

/-- What stands in round brackets as a type: the type if it is nothing but that, and what the
brackets contain. `one` says that it is a single bound or a path, to which more bounds may be
added. -/
inductive Bracketed where
  /-- A type in brackets, to which bounds may be added if `one`. -/
  | type (inner : Ty) (one : Bool)
  /-- A tuple. -/
  | tuple (parts : List Part)
  /-- A bound that starts with a question mark. -/
  | maybe (parts : List Part)

/-- The inside of round brackets. -/
def bracketed (g : Grammar) : Reader Bracketed := do
  if ← isEmpty then return .tuple []
  if ← sees atLifetime then return .type (← g.traitObject) false
  if ← sees (atMark "?") then
    let (_, parts) ← g.bound false false
    return .maybe parts
  let ts ← ahead
  let first ← g.type true
  if ← mark? "," then
    return .tuple (.type first :: (← terminated (g.type true)).map .type)
  let one := match first with
    | .path _ => true
    | .other _ _ => atName "for" ts && !ts.any fun t => atMark "+" [t] || atName "fn" [t]
    | .wrapped _ => false
  return .type first one

/-- A type. `other` types get their text from the caller. -/
def typeForm (g : Grammar) (plus : Bool) : Reader Ty := do
  let lifetimes ← g.binder?
  let ts ← ahead
  if lifetimes.isSome &&
      (!(atIdent ts || atOneOf ["fn", "unsafe", "extern", "super", "self", "Self", "crate"] ts) ||
        atName "dyn" ts) then
    fail "expected a function type or a trait"
  if atGroup .paren ts then
    match ← group .paren g.bracketed with
    | .tuple parts => return .other "" parts
    | .maybe parts => return .other "" (parts ++ (← g.moreBounds))
    | .type inner one =>
      if plus && one && (← sees (atMark "+")) then
        let first := match inner with
          | .path p => Part.path p
          | t => Part.type t
        return .other "" (first :: (← g.moreBounds))
      return .wrapped inner
  else if atOneOf ["fn", "unsafe", "extern"] ts then
    return .other "" (lifetimes.getD [] ++ (← g.functionType))
  else if atPathName ts || atMark "::" ts || atMark "<" ts then
    let (owner, p) ← g.typePath
    match owner with
    | some (owner, _) => return .other "" [.type owner, .path p]
    | none =>
      if p.isPlain && (← sees atMacroMark) then
        mark "!"
        return .other "" [.invoke (← g.invocation p)]
      if lifetimes.isSome || (plus && (← sees (atMark "+"))) then
        let more ← if plus then collect (do
            if ← mark? "+" then
              unless ← sees (atBound false) do return none
              return some (← g.bound false false).2
            return none)
          else pure []
        return .other "" (lifetimes.getD [] ++ .path p :: more.flatten)
      return .path p
  else if atName "dyn" ts then
    let p ← here
    keyword "dyn"
    let star ← mark? "*"
    let parts ← g.objectBounds p plus
    return .other "" (if star then [] else parts)
  else if atGroup .bracket ts then
    group .bracket do
      let element ← g.type true
      if ← mark? ";" then return .other "" [.type element, .expr (← g.expr)]
      return .other "" [.type element]
  else if atMark "*" ts then
    mark "*"
    unless ← keyword? "const" do
      unless ← keyword? "mut" do fail "expected `const` or `mut`"
    return .wrapped (← g.type false)
  else if atMark "&" ts then
    mark "&"
    discard lifetime?
    discard (keyword? "mut")
    return .wrapped (← g.type false)
  else if atMark "!" ts && !atMark "=" ts then
    mark "!"
    return .other "" []
  else if atName "impl" ts then
    let p ← here
    keyword "impl"
    let (hasTrait, parts) ← g.bounds plus true true
    unless hasTrait do failAt "at least one trait must be specified" p
    return .other "" parts
  else if atName "_" ts then
    any
    return .other "" []
  else if atLifetime ts then
    g.traitObject
  else
    fail "expected a type"

/-- A type; whether bounds may be added to it with a plus sign. -/
def typeRule (g : Grammar) (plus : Bool) : Reader Ty := do
  match ← withText (g.typeForm plus) with
  | (.other "" parts, text) => return .other text parts
  | (t, _) => return t

/-! ### Generic parameters -/

/-- A generic parameter. -/
def genericParameter (g : Grammar) : Reader (List Part) := do
  let attributes ← g.outerAttributes
  let ts ← ahead
  let stop (ts : List Token) : Bool := ts.isEmpty || atMark "," ts || atMark ">" ts
  if atLifetime ts then
    lifetime
    if ← mark? ":" then discard (joined "+" stop lifetime)
    return attributes.parts
  else if atIdent ts then
    discard ident
    let bounds ← if ← mark? ":" then
        g.boundsUntil fun ts => stop ts || atMark "=" ts
      else pure []
    let default_ ← if ← mark? "=" then pure [Part.type (← g.type true)] else pure []
    return attributes.parts ++ bounds ++ default_
  else if atName "const" ts then
    keyword "const"
    discard ident
    mark ":"
    let t ← g.type true
    let default_ ← if ← mark? "=" then pure [Part.expr (← g.constArgument)] else pure []
    return attributes.parts ++ .type t :: default_
  else if atName "_" ts then
    any
    return attributes.parts
  else
    fail "expected a generic parameter"

/-- The generic parameters of an item: whether there is a list of them, and what it contains. -/
def generics (g : Grammar) : Reader (Bool × List Part) := do
  unless ← mark? "<" do return (false, [])
  let found ← iterate (fun (done : List Part) => do
    if ← sees (atMark ">") then return .inr done
    let done := done ++ (← g.genericParameter)
    if ← sees (atMark ">") then return .inr done
    mark ","
    return .inl done) []
  mark ">"
  return (true, found)

/-- Whether the conditions of an item, or the bounds in one, end here. -/
def atConditionEnd (ts : List Token) : Bool :=
  ts.isEmpty || atGroup .brace ts || atMark "," ts || atMark ";" ts ||
    (atMark ":" ts && !atMark "::" ts) || atMark "=" ts

/-- One condition of an item. -/
def condition (g : Grammar) : Reader (List Part) := do
  let ts ← ahead
  if atLifetime ts && atMark ":" (afterOne ts) then
    lifetime
    mark ":"
    discard (joined "+" (fun ts => atConditionEnd ts || atMark ":" ts) lifetime)
    return []
  let lifetimes ← g.binder?
  let t ← g.type true
  mark ":"
  let bounds ← g.boundsUntil atConditionEnd
  return lifetimes.getD [] ++ .type t :: bounds

/-- The conditions of an item, if it has any: whether it has, and what they contain. -/
def whereClause (g : Grammar) : Reader (Bool × List Part) := do
  unless ← keyword? "where" do return (false, [])
  let found ← iterate (fun (done : List Part) => do
    if ← sees atConditionEnd then return .inr done
    let done := done ++ (← g.condition)
    if ← mark? "," then return .inl done
    return .inr done) []
  return (true, found)

end CapabilityGate.Program.Grammar
