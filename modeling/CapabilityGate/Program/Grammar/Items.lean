import CapabilityGate.Program.Grammar.Expressions

/-!
# Statements and items

The rules for the statements of a block, for items, and for the members of traits,
implementations and foreign blocks. Some writings are accepted and not looked into, because no
program that compiles has them; their items have no parts.

## Main definitions

* `Grammar.statementsRule`: the statements of a block.
* `Grammar.itemRule`: an item.
* `Grammar.useTreeRule`: what a `use` item imports.
-/

namespace CapabilityGate.Program.Grammar

open Reader

/-! ### Visibility and signatures -/

/-- The visibility of an item; whether there is one. Brackets that hold no visibility belong to
what follows. -/
def visibility : Reader Bool := do
  unless ← keyword? "pub" do return false
  match ← ahead with
  | .group .paren body _ _ :: _ =>
    if atOneOf ["crate", "self", "super"] body then
      if (afterOne body).isEmpty then any
    else if atName "in" body then
      group .paren do
        any
        discard plainPath
    return true
  | _ => return true

/-- A keyword that may be left out, with the tokens behind it. -/
def skipWord (word : String) (ts : List Token) : List Token :=
  if atName word ts then afterOne ts else ts

/-- Whether the signature of a function is next: its qualifiers and the keyword for functions.
Members of foreign blocks may be marked as safe. -/
def atSignature (safe : Bool) (ts : List Token) : Bool :=
  let ts := skipWord "async" (skipWord "const" ts)
  let ts := if safe && atName "safe" ts then afterOne ts else skipWord "unsafe" ts
  let ts := if atName "extern" ts then
      let ts := afterOne ts
      if atStringLiteral ts then afterOne ts else ts
    else ts
  atName "fn" ts

/-- The receiver of a method. -/
def receiver (g : Grammar) : Reader (List Part) := do
  let byReference ← mark? "&"
  if byReference then discard lifetime?
  discard (keyword? "mut")
  keyword "self"
  if byReference then return []
  if ← mark? ":" then return [.type (← g.type true)]
  return []

/-- The parameters of a function. Dots for a variable number of arguments end them, and a
receiver comes first. -/
def parameters (g : Grammar) : Reader (List Part) :=
  iterate (fun ((count, done) : Nat × List Part) => do
    if ← isEmpty then return .inr done
    let attributes ← g.outerAttributes
    if ← mark? "..." then
      unless ← isEmpty do mark ","
      return .inr (done ++ attributes.parts)
    let start ← ahead
    match ← attempt g.receiver with
    | some parts =>
      if 0 < count then
        let self_ := start.dropWhile fun t => !atName "self" [t]
        failAt "unexpected method receiver" ((self_.head?.map Token.position).getD .start)
      let done := done ++ attributes.parts ++ parts
      if ← isEmpty then return .inr done
      mark ","
      return .inl (count + 1, done)
    | none =>
      if atIdent start && atMark "<" (afterOne start) then
        let t ← g.type true
        let done := done ++ [.pattern (.typed attributes.parts (.compound []) t)]
        if ← isEmpty then return .inr done
        mark ","
        return .inl (count + 1, done)
      let p ← g.pattern
      mark ":"
      if ← mark? "..." then
        unless ← isEmpty do mark ","
        return .inr (done ++ attributes.parts ++ [.pattern p])
      let t ← g.type true
      let done := done ++ [.pattern (.typed attributes.parts p t)]
      if ← isEmpty then return .inr done
      mark ","
      return .inl (count + 1, done)) (0, [])

/-- The signature of a function: its name, whether it is marked as safe, and what it contains. -/
def signature (g : Grammar) (safe : Bool) : Reader (Word × Bool × List Part) := do
  discard (keyword? "const")
  discard (keyword? "async")
  let isUnsafe ← keyword? "unsafe"
  let isSafe ← if safe && !isUnsafe then keyword? "safe" else pure false
  abi?
  keyword "fn"
  let name ← ident
  let (_, generics) ← g.generics
  let inputs ← group .paren g.parameters
  let output ← g.returnType true
  let (_, conditions) ← g.whereClause
  return (name, isSafe, generics ++ conditions ++ inputs ++ output)

/-! ### Statements -/

/-- A `let` statement, from its keyword on. -/
def binding (g : Grammar) (attributes : List Part) : Reader Part := do
  keyword "let"
  let p ← g.typedPattern []
  let values ← if ← mark? "=" then
      let (e, braced) ← withBrace g.expr
      let other ← if !braced && (← keyword? "else") then
          pure [Expr.compound .block (← g.plainBlock)]
        else pure []
      pure (e :: other)
    else pure []
  mark ";"
  return .binding attributes p values

/-- Whether an item is next in a block, `ts` being the tokens behind its attributes. -/
def atItem (ts : List Token) : Bool :=
  let next := afterOne ts
  let third := afterTwo ts
  atName "pub" ts || (atName "crate" ts && !atMark "::" next) || atName "extern" ts ||
    atName "use" ts ||
    (atName "static" ts &&
      (atName "mut" next ||
        (atIdent next &&
          !(atName "async" next && (atName "move" third || atMark "|" third))))) ||
    (atName "const" ts &&
      !(atGroup .brace next || atName "static" next ||
        (atName "async" next && !atOneOf ["unsafe", "extern", "fn"] third) ||
        atName "move" next || atMark "|" next)) ||
    (atName "unsafe" ts && !atGroup .brace next) ||
    (atName "async" ts && atOneOf ["unsafe", "extern", "fn"] next) ||
    atOneOf ["fn", "mod", "type", "struct", "enum", "trait", "impl", "macro"] ts ||
    (atName "union" ts && atIdent next) || (atName "auto" ts && atName "trait" next) ||
    (atName "default" ts && atOneOf ["unsafe", "impl"] next)

/-- What the use of a macro at the start of a statement is. -/
inductive MacroStatement where
  /-- A statement of its own, by its path. -/
  | statement (name : Path)
  /-- An item with a name. -/
  | item
  /-- The start of an expression, or no use of a macro. -/
  | no

/-- Tells what kind of macro use is next, and takes its path if it is a statement. -/
def macroStatement : Reader MacroStatement := fun i =>
  match plainPath i with
  | .error _ => .ok (.no, i)
  | .ok (name, j) =>
    let ts := j.rest
    let next := afterOne ts
    let third := afterTwo ts
    if !atMark "!" ts then .ok (.no, i)
    else if atIdent next || atName "try" next then .ok (.item, i)
    else if atGroup .brace next && !((atMark "." third && !atMark ".." third) || atMark "?" third)
    then .ok (.statement name, j)
    else .ok (.no, i)

/-- A statement: the part it is, and whether a semicolon has to follow if it is not the last. -/
def statement (g : Grammar) : Reader (Part × Bool) := do
  let start ← ahead
  let attributes ← g.outerAttributes
  let withParts (p : Part) : Part :=
    if attributes.parts.isEmpty then p else .group (attributes.parts ++ [p])
  let kind ← macroStatement
  let ts ← ahead
  match kind with
  | .statement name =>
    mark "!"
    let use ← g.invocation name
    discard (mark? ";")
    return (withParts (.invoke use), false)
  | kind =>
    let isItem := match kind with
      | .item => true
      | _ => false
    if atName "let" ts then
      return (← g.binding attributes.parts, false)
    else if atItem ts || isItem then
      let item : Reader Item := fun i => g.item { i with rest := start }
      return (.item (← item), false)
    else
      let e ← g.early
      let isPlainMacro := match e with
        | .invoke _ => true
        | _ => false
      let e := e.withStatementAttributes attributes
      let ended ← mark? ";"
      let bracedMacro := match e.bare with
        | .invoke (.mk _ braced _ _) => braced
        | _ => false
      let open_ := !ended && (if isPlainMacro then !bracedMacro else !e.isBlockLike)
      return (.expr e, open_)

/-- The statements of a block. -/
def statementsRule (g : Grammar) : Reader (List Part) :=
  iterate (fun (done : List Part) => do
    if ← mark? ";" then return .inl done
    if ← isEmpty then return .inr done.reverse
    let (part, open_) ← g.statement
    let done := part :: done
    if ← isEmpty then return .inr done.reverse
    if open_ then fail "unexpected token, expected `;`"
    return .inl done) []

/-! ### Imports -/

/-- What a `use` item imports. A tree in braces may start with `::` if `global`, and then the item
is none that a program can have. -/
def useTreeRule (g : Grammar) (global : Bool) : Reader (Option UseTree) := do
  let ts ← ahead
  if atIdent ts || atOneOf ["self", "super", "crate", "try"] ts then
    let name ← word
    if ← mark? "::" then
      return (← g.useTree false).map (.under name)
    else if ← keyword? "as" then
      let ts ← ahead
      if atIdent ts || atName "_" ts then return some (.rename name (← word))
      fail "expected identifier or underscore"
    else
      return some (.name name)
  else if atMark "*" ts then
    any
    return some .glob
  else if atGroup .brace ts then
    let trees ← group .brace (terminated do
      let here := global && (← mark? "::")
      let tree ← g.useTree (global && !here)
      return if here then none else tree)
    return (trees.mapM id).map .group
  else
    fail "expected an import"

/-- A `use` item behind its visibility. -/
def useItem (g : Grammar) (attributes : List Part) : Reader Item := do
  keyword "use"
  let global ← mark? "::"
  let tree ← g.useTree (!global)
  mark ";"
  match tree with
  | some tree => return .use attributes global tree
  | none => return .other []

/-! ### Types and values -/

/-- A named field. -/
def namedField (g : Grammar) : Reader Part := do
  let attributes ← g.outerAttributes
  discard visibility
  let unnamed ← sees (atName "_")
  if unnamed then any else discard ident
  mark ":"
  let ts ← ahead
  if unnamed && (atName "struct" ts || (atName "union" ts && atGroup .brace (afterOne ts))) then
    any
    group .brace do all
    return .group attributes.parts
  return .group (attributes.parts ++ [.type (← g.type true)])

/-- The fields of a structure in braces. -/
def namedFields (g : Grammar) : Reader (List Part) :=
  group .brace (terminated g.namedField)

/-- The fields of a tuple structure. -/
def unnamedFields (g : Grammar) : Reader (List Part) :=
  group .paren (terminated do
    let attributes ← g.outerAttributes
    discard visibility
    return .group (attributes.parts ++ [.type (← g.type true)]))

/-- The fields of a structure with its conditions in front of them or behind them. -/
def structBody (g : Grammar) : Reader (List Part) := do
  let (hasConditions, conditions) ← g.whereClause
  let ts ← ahead
  if !hasConditions && atGroup .paren ts then
    let fields ← g.unnamedFields
    let (_, conditions) ← g.whereClause
    mark ";"
    return conditions ++ fields
  else if atGroup .brace ts then
    return conditions ++ (← g.namedFields)
  else if ← mark? ";" then
    return conditions
  else
    fail "expected the fields of a structure"

/-- A variant of an enumeration. -/
def variant (g : Grammar) : Reader Part := do
  let attributes ← g.outerAttributes
  discard visibility
  discard ident
  let ts ← ahead
  let fields ← if atGroup .brace ts then g.namedFields
    else if atGroup .paren ts then g.unnamedFields
    else pure []
  let value ← if ← mark? "=" then pure [Part.expr (← g.expr)] else pure []
  return .group (attributes.parts ++ fields ++ value)

/-- A name for a type, from its keyword on, with the conditions before its type, behind it or
either way. It yields the name, the type if the writing is one that a program can have, and what
stands in front of the type. -/
def namedType (g : Grammar) (before after : Bool) : Reader (Word × Option Ty × List Part) := do
  keyword "type"
  let name ← ident
  let (_, generics) ← g.generics
  let hasBounds ← mark? ":"
  let bounds ← if hasBounds then
      g.boundsUntil fun ts => atName "where" ts || atMark "=" ts || atMark ";" ts
    else pure []
  let (has, conditions) ← if before then g.whereClause else pure (false, [])
  let type ← if ← mark? "=" then some <$> g.type true else pure none
  let (_, more) ← if after && !has then g.whereClause else pure (false, [])
  mark ";"
  return (name, if hasBounds then none else type, generics ++ conditions ++ more ++ bounds)

/-- A constant, from its keyword on: its name, whether the writing is one that a program can
have if its value may be missing, whether the value is there, and what it contains. -/
def constant (g : Grammar) : Reader (Word × Bool × Bool × List Part) := do
  keyword "const"
  let ts ← ahead
  unless atIdent ts || atName "_" ts do fail "expected identifier or `_`"
  let name ← word
  let (generic, generics) ← g.generics
  mark ":"
  let t ← g.type true
  let value ← if ← mark? "=" then pure [Part.expr (← g.expr)] else pure []
  let (conditional, conditions) ← g.whereClause
  mark ";"
  return (name, !generic && !conditional, !value.isEmpty,
    generics ++ conditions ++ .type t :: value)

/-- Whether a path that could name a macro is next. -/
def atMacroPath (ts : List Token) : Bool :=
  atIdent ts || atOneOf ["self", "super", "crate"] ts || atMark "::" ts

/-- The use of a macro as an item, perhaps with a name. A semicolon ends it unless it is in
braces. -/
def macroItem (g : Grammar) (named : Bool) : Reader (List Part) := do
  let path ← plainPath
  mark "!"
  if named then
    if ← sees (atName "try") then any
    else if ← sees atIdent then any
  let use ← g.invocation path
  unless use matches .mk _ true _ _ do mark ";"
  return [.invoke use]

/-! ### Members -/

/-- A member of a trait. -/
def traitMember (g : Grammar) : Reader Item := do
  let attributes ← g.outerAttributes
  let visible ← visibility
  let default_ ← keyword? "default"
  let ts ← ahead
  let parts ← if atName "fn" ts || atSignature false ts ||
        (atName "const" ts && atOneOf ["async", "unsafe", "extern", "fn"] (afterOne ts)) then do
      let (_, _, parts) ← g.signature false
      if ← sees (atGroup .brace) then
        let statements ← group .brace do
          let inner ← g.innerAttributes
          return (inner, ← g.statements)
        pure (some (statements.1 ++ parts ++ statements.2))
      else
        mark ";"
        pure (some parts)
    else if atName "const" ts then do
      let (_, plain, _, parts) ← g.constant
      pure (if plain then some parts else none)
    else if atName "type" ts then do
      let (_, type, parts) ← g.namedType false true
      pure (some (parts ++ (type.map Part.type).toList))
    else if !visible && !default_ && atMacroPath ts then
      some <$> g.macroItem false
    else fail "expected a member of a trait"
  if visible || default_ then return .other []
  match parts with
  | some parts => return .other (attributes.parts ++ parts)
  | none => return .other []

/-- A member of an implementation. -/
def implMember (g : Grammar) : Reader Item := do
  let attributes ← g.outerAttributes
  let visible ← visibility
  let ts ← ahead
  let default_ := atName "default" ts && !atMark "!" (afterOne ts)
  if default_ then any
  let ts ← ahead
  if atName "fn" ts || atSignature false ts then
    let (_, _, parts) ← g.signature false
    if ← mark? ";" then return .other []
    let (inner, statements) ← group .brace do
      let inner ← g.innerAttributes
      return (inner, ← g.statements)
    return .other (attributes.parts ++ inner ++ parts ++ statements)
  else if atName "const" ts then
    let (_, plain, valued, parts) ← g.constant
    return .other (if plain && valued then attributes.parts ++ parts else [])
  else if atName "type" ts then
    let (_, type, parts) ← g.namedType false true
    match type with
    | some t => return .other (attributes.parts ++ parts ++ [.type t])
    | none => return .other []
  else if !visible && !default_ && atMacroPath ts then
    return .other (attributes.parts ++ (← g.macroItem false))
  else
    fail "expected a member of an implementation"

/-- A member of a foreign block. -/
def foreignMember (g : Grammar) : Reader Item := do
  let attributes ← g.outerAttributes
  let visible ← visibility
  let ts ← ahead
  if atName "fn" ts || atSignature true ts then
    let (_, safe, parts) ← g.signature true
    if ← sees (atGroup .brace) then
      discard (group .brace do
        discard g.outerAttributes
        g.statements)
      return .other []
    mark ";"
    return .other (if safe then [] else attributes.parts ++ parts)
  else if atName "static" ts ||
      (atOneOf ["unsafe", "safe"] ts && atName "static" (afterOne ts)) then
    let isUnsafe ← keyword? "unsafe"
    let isSafe ← if isUnsafe then pure false else keyword? "safe"
    keyword "static"
    discard (keyword? "mut")
    discard ident
    mark ":"
    let t ← g.type true
    let valued ← mark? "="
    if valued then discard g.expr
    mark ";"
    return .other (if isUnsafe || isSafe || valued then [] else attributes.parts ++ [.type t])
  else if atName "type" ts then
    let (_, type, parts) ← g.namedType true true
    return .other (if type.isSome then [] else attributes.parts ++ parts)
  else if !visible && atMacroPath ts then
    return .other (attributes.parts ++ (← g.macroItem false))
  else
    fail "expected a member of a foreign block"

/-! ### Items -/

/-- The body of a trait or an implementation or a foreign block: its inner attributes and its
members. -/
def members (g : Grammar) (member : Reader Item) : Reader (List Part × List Part) :=
  group .brace do
    let inner ← g.innerAttributes
    let items ← untilEmpty member
    return (inner, items.map .item)

/-- A function, from its qualifiers on. -/
def functionItem (g : Grammar) (attributes : List Part) : Reader Item := do
  let (name, _, parts) ← g.signature false
  if ← mark? ";" then return .other []
  let (inner, statements) ← group .brace do
    let inner ← g.innerAttributes
    return (inner, ← g.statements)
  return .declaration .function name (attributes ++ inner ++ parts ++ statements)

/-- A static variable. -/
def staticItem (g : Grammar) (attributes : List Part) : Reader Item := do
  keyword "static"
  discard (keyword? "mut")
  let name ← ident
  if ← mark? "=" then
    discard g.expr
    mark ";"
    return .other []
  mark ":"
  let t ← g.type true
  if ← mark? ";" then return .other []
  mark "="
  let e ← g.expr
  mark ";"
  return .declaration .static name (attributes ++ [.type t, .expr e])

/-- A module. -/
def moduleItem (g : Grammar) (attributes : List Part) : Reader Item := do
  discard (keyword? "unsafe")
  keyword "mod"
  let name ← if ← sees (atName "try") then word else ident
  if ← mark? ";" then return .module name attributes
  unless ← sees (atGroup .brace) do fail "expected `;` or curly braces"
  let (inner, items) ← g.members g.item
  return .module name (attributes ++ inner ++ items)

/-- A trait or a name for bounds, from its qualifiers on. -/
def traitItem (g : Grammar) (attributes : List Part) : Reader Item := do
  let isUnsafe ← keyword? "unsafe"
  let isAuto ← keyword? "auto"
  keyword "trait"
  let name ← ident
  let (_, generics) ← g.generics
  if !isUnsafe && !isAuto && (← mark? "=") then
    let bounds ← joined "+" (fun ts => atName "where" ts || atMark ";" ts) (g.bound false false)
    let (_, conditions) ← g.whereClause
    mark ";"
    return .other (attributes ++ generics ++ conditions ++ bounds.flatMap Prod.snd)
  let bounds ← if ← mark? ":" then
      g.boundsUntil fun ts => atName "where" ts || atGroup .brace ts
    else pure []
  let (_, conditions) ← g.whereClause
  let (inner, items) ← g.members g.traitMember
  return .declaration .trait name
    (attributes ++ inner ++ generics ++ conditions ++ bounds ++ items)

/-- An implementation, from its qualifiers on; `visible` when a visibility is in front of it. -/
def implItem (g : Grammar) (attributes : List Part) (visible : Bool) : Reader Item := do
  discard (keyword? "default")
  discard (keyword? "unsafe")
  keyword "impl"
  let (_, generics) ← if atGenericParameters (← ahead) then g.generics else pure (false, [])
  let ts ← ahead
  let isConst := atName "const" ts || (atMark "?" ts && atName "const" (afterOne ts))
  if isConst then
    discard (mark? "?")
    keyword "const"
  let ts ← ahead
  let negative := atMark "!" ts && !atGroup .brace (afterOne ts)
  let ((first, _), text) ← withText do
    if negative then mark "!"
    let t ← g.type true
    return (t, ())
  let isFor ← keyword? "for"
  let (trait_, self_, plain) ← if isFor then do
      let self_ ← g.type true
      match first with
      | .path p => pure ([Part.path p], self_, true)
      | _ => pure ([], self_, false)
    else pure ([], if negative then .other text [] else first, true)
  let (_, conditions) ← g.whereClause
  let (inner, items) ← g.members g.implMember
  if visible || isConst || !plain then return .other []
  return .implementation (attributes ++ inner ++ generics ++ conditions ++ trait_) self_ items

/-- An external crate. -/
def externCrateItem (attributes : List Part) : Reader Item := do
  keyword "extern"
  keyword "crate"
  let name ← if ← sees (atName "self") then word else ident
  let alias_ ← if ← keyword? "as" then
      if ← sees (atName "_") then some <$> word else some <$> ident
    else pure none
  mark ";"
  return .externCrate attributes name alias_

/-- A foreign block. -/
def foreignItem (g : Grammar) (attributes : List Part) : Reader Item := do
  discard (keyword? "unsafe")
  keyword "extern"
  if ← sees atStringLiteral then any
  let (inner, items) ← g.members g.foreignMember
  return .other (attributes ++ inner ++ items)

/-- A macro with a name of its own, by its keyword. -/
def macroDefinition : Reader Item := do
  keyword "macro"
  discard ident
  if ← sees (atGroup .paren) then any
  unless ← sees (atGroup .brace) do fail "expected curly braces"
  any
  return .other []

/-- An item. -/
def itemRule (g : Grammar) : Reader Item := do
  let attributes := (← g.outerAttributes).parts
  let start ← here
  let visible ← visibility
  let noVisibility (item : Reader Item) : Reader Item := do
    if visible then failAt "expected `extern`" start
    item
  let ts ← ahead
  let next := afterOne ts
  if atName "fn" ts || atSignature false ts then
    g.functionItem attributes
  else if atName "extern" ts then
    if atName "crate" next then externCrateItem attributes
    else if atGroup .brace next then noVisibility (g.foreignItem attributes)
    else if atStringLiteral next && atGroup .brace (afterOne next) then
      noVisibility (g.foreignItem attributes)
    else
      any
      if atStringLiteral next then any
      fail "expected curly braces"
  else if atName "use" ts then
    g.useItem attributes
  else if atName "static" ts then
    g.staticItem attributes
  else if atName "const" ts then
    let (name, plain, valued, parts) ← g.constant
    if plain && valued then return .declaration .constant name (attributes ++ parts)
    return .other []
  else if atName "unsafe" ts then
    if atName "trait" next || (atName "auto" next && atName "trait" (afterOne next)) then
      g.traitItem attributes
    else if atName "impl" next then g.implItem attributes visible
    else if atName "extern" next then noVisibility (g.foreignItem attributes)
    else if atName "mod" next then g.moduleItem attributes
    else
      any
      fail "expected an unsafe item"
  else if atName "mod" ts then
    g.moduleItem attributes
  else if atName "type" ts then
    let (name, type, parts) ← g.namedType true false
    match type with
    | some t => return .typeAlias (attributes ++ parts) name t
    | none => return .other []
  else if atName "struct" ts then
    keyword "struct"
    let name ← ident
    let (_, generics) ← g.generics
    return .declaration .structure_ name (attributes ++ generics ++ (← g.structBody))
  else if atName "enum" ts then
    keyword "enum"
    let name ← ident
    let (_, generics) ← g.generics
    let (_, conditions) ← g.whereClause
    let variants ← group .brace (terminated g.variant)
    return .declaration .enumeration name (attributes ++ generics ++ conditions ++ variants)
  else if atName "union" ts && atIdent next then
    keyword "union"
    let name ← ident
    let (_, generics) ← g.generics
    let (_, conditions) ← g.whereClause
    return .declaration .union name
      (attributes ++ generics ++ conditions ++ (← g.namedFields))
  else if atName "trait" ts || (atName "auto" ts && atName "trait" next) then
    g.traitItem attributes
  else if atName "impl" ts || (atName "default" ts && !atMark "!" next) then
    g.implItem attributes visible
  else if atName "macro" ts then
    macroDefinition
  else if !visible && atMacroPath ts then
    return .other (attributes ++ (← g.macroItem true))
  else
    fail "expected an item"

end CapabilityGate.Program.Grammar
