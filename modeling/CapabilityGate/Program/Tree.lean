import CapabilityGate.Program.Token

/-!
# Syntax trees

The tree of a program. It tells apart the constructs that bind, import or name something, and
keeps every other construct as a form with its parts in the order in which they are written, so
that a walk over the parts of a construct meets all that it contains.

## Main definitions

* `Expr`, `Ty`, `Pat`, `Item`: expressions, types, patterns and items.
* `Part`: any of these, as a part of a larger construct.
* `Path`, `Segment`: paths with generic arguments.
* `Invocation`: a use of a macro, with its tokens and with the expressions they list, if they
  list any.
* `UseTree`: what a `use` item imports.
* `SourceFile`: the tree of a source file.
-/

namespace CapabilityGate.Program

/-- What a `use` item imports. -/
inductive UseTree where
  /-- One name. -/
  | name (ident : Word)
  /-- One name under another. -/
  | rename (ident alias_ : Word)
  /-- Everything. -/
  | glob
  /-- A tree below a name. -/
  | under (ident : Word) (tree : UseTree)
  /-- Several trees. -/
  | group (trees : List UseTree)
  deriving Repr, Inhabited

/-- How the generic arguments of a path segment are written. -/
inductive ArgumentStyle where
  /-- There are none. -/
  | none
  /-- In angle brackets. -/
  | angle
  /-- In round brackets, as for function traits. -/
  | paren
  deriving Repr, DecidableEq, Inhabited

/-- The forms of expression that neither name nor bind anything themselves. -/
inductive Form where
  /-- A list of elements. -/
  | array
  /-- One element many times. -/
  | repeated
  /-- An assignment without an operator. -/
  | assign
  /-- An asynchronous block. -/
  | asyncBlock
  /-- The wait for a future. -/
  | await
  /-- A comparison, which cannot be compared again without brackets. -/
  | comparison
  /-- Any other binary operator, those that assign included. -/
  | binary
  /-- A block. -/
  | block
  /-- A way out of a loop or block. -/
  | breakOut
  /-- A change of type. -/
  | cast
  /-- A closure. -/
  | closure
  /-- A block evaluated when the program is compiled. -/
  | constBlock
  /-- The next round of a loop. -/
  | continueOn
  /-- A field of a value. -/
  | field
  /-- A loop over an iterator. -/
  | forLoop
  /-- A conditional. -/
  | conditional
  /-- An element of a value. -/
  | index
  /-- The placeholder. -/
  | infer
  /-- A pattern test. -/
  | letTest
  /-- A literal. -/
  | literal
  /-- An endless loop. -/
  | loop
  /-- A choice between patterns. -/
  | choice
  /-- A range. -/
  | range
  /-- A raw address. -/
  | rawAddress
  /-- A way out of a function. -/
  | returnOut
  /-- A block that errors leave. -/
  | tryBlock
  /-- A tuple. -/
  | tuple
  /-- A unary operator. -/
  | unary
  /-- An unsafe block. -/
  | unsafeBlock
  /-- A loop with a condition. -/
  | whileLoop
  /-- A value handed out of a generator. -/
  | yieldOut
  /-- Tokens that are accepted and not looked into. -/
  | verbatim
  deriving Repr, DecidableEq, Inhabited

/-- The kinds of items whose name is declared by the module they stand in. -/
inductive Declared where
  /-- A function. -/
  | function
  /-- A constant. -/
  | constant
  /-- A static variable. -/
  | static
  /-- A trait. -/
  | trait
  /-- A structure. -/
  | structure_
  /-- An enumeration. -/
  | enumeration
  /-- A union. -/
  | union
  deriving Repr, DecidableEq, Inhabited

mutual

/-- A path, `global` when it starts with `::`. -/
inductive Path where
  /-- The segments in order. -/
  | mk (global : Bool) (segments : List Segment)

/-- One name of a path with its generic arguments. An argument that is a type is a part of its
own; any other argument is a group of the parts in it. -/
inductive Segment where
  /-- The name, and the arguments in order. -/
  | mk (word : Word) (style : ArgumentStyle) (args : List Part)

/-- A type. -/
inductive Ty where
  /-- A path. -/
  | path (path : Path)
  /-- A reference, a pointer or brackets around a type. -/
  | wrapped (inner : Ty)
  /-- Any other type, by its text without blanks, and what it contains. -/
  | other (text : String) (parts : List Part)

/-- An expression. -/
inductive Expr where
  /-- A path that starts at `at_`. -/
  | path (at_ : Position) (path : Path)
  /-- A path below a type, as in `<T as Trait>::f`: the type, the number of segments that name
  the trait, and the segments of the trait and of what is named below it. -/
  | qualified (at_ : Position) (owner : Ty) (position : Nat) (path : Path)
  /-- A call. -/
  | call (callee : Expr) (args : List Expr)
  /-- A method call. The place is that of the method's name. -/
  | method (receiver : Expr) (name : Word) (at_ : Position) (turbofish : List Part)
      (args : List Expr)
  /-- Brackets around an expression. -/
  | paren (inner : Expr)
  /-- A reference to a value. -/
  | reference (inner : Expr)
  /-- The question mark operator. -/
  | tried (inner : Expr)
  /-- A structure: the type before its path if it is qualified, the path, and the fields. -/
  | construct (owner : List Part) (path : Path) (fields : List Part)
  /-- A use of a macro. -/
  | invoke (invocation : Invocation)
  /-- An expression with attributes that hold expressions. -/
  | attributed (attributes : List Part) (inner : Expr)
  /-- Any other form. -/
  | compound (form : Form) (parts : List Part)

/-- A pattern. -/
inductive Pat where
  /-- A name, with the pattern behind `@` if there is one. -/
  | bind (name : Word) (parts : List Part)
  /-- A pattern with a type, after its attributes. -/
  | typed (attributes : List Part) (pattern : Pat) (type : Ty)
  /-- Any other pattern. -/
  | compound (parts : List Part)

/-- An item, or a member of a trait, an implementation or a foreign block. -/
inductive Item where
  /-- An import. It is global when it starts with `::`. -/
  | use (attributes : List Part) (global : Bool) (tree : UseTree)
  /-- An external crate, perhaps under another name. -/
  | externCrate (attributes : List Part) (name : Word) (alias_ : Option Word)
  /-- A name for a type, after its attributes and generic parameters. -/
  | typeAlias (parts : List Part) (name : Word) (type : Ty)
  /-- An item that declares its name. -/
  | declaration (kind : Declared) (name : Word) (parts : List Part)
  /-- A module, with its items if it has a body. -/
  | module (name : Word) (parts : List Part)
  /-- An implementation: what stands before the type it is for, that type, and its members. -/
  | implementation (parts : List Part) (selfType : Ty) (members : List Part)
  /-- Any other item. -/
  | other (parts : List Part)

/-- A use of a macro by the path `name`: the tokens between its delimiters, and how they read. -/
inductive Invocation where
  /-- The path, whether the delimiters are braces, the tokens and their reading. -/
  | mk (name : List String) (braced : Bool) (tokens : List Token) (reading : Reading)

/-- How the tokens of a macro read. -/
inductive Reading where
  /-- As expressions between commas. -/
  | list (members : List Expr)
  /-- As nothing but tokens. -/
  | raw

/-- A part of a construct. -/
inductive Part where
  /-- A type. -/
  | type (type : Ty)
  /-- An expression. -/
  | expr (expr : Expr)
  /-- A pattern. -/
  | pattern (pattern : Pat)
  /-- An item. -/
  | item (item : Item)
  /-- A path that is neither a type nor an expression. -/
  | path (path : Path)
  /-- A use of a macro. -/
  | invoke (invocation : Invocation)
  /-- A `let` statement: its attributes, its pattern, and its initialiser and alternative, those
  of them that it has. -/
  | binding (attributes : List Part) (pattern : Pat) (values : List Expr)
  /-- Several parts. -/
  | group (parts : List Part)

end

instance : Inhabited Path := ⟨.mk false []⟩
instance : Inhabited Expr := ⟨.compound .infer []⟩
instance : Inhabited Ty := ⟨.other "" []⟩
instance : Inhabited Pat := ⟨.compound []⟩
instance : Inhabited Item := ⟨.other []⟩
instance : Inhabited Part := ⟨.group []⟩

namespace Segment

/-- The name of a segment, as a word. -/
def word : Segment → Word
  | mk word _ _ => word

/-- The name of a segment. -/
def name (s : Segment) : String :=
  s.word.text

/-- How the arguments of a segment are written. -/
def style : Segment → ArgumentStyle
  | mk _ style _ => style

/-- The arguments of a segment. -/
def args : Segment → List Part
  | mk _ _ args => args

end Segment

namespace Path

/-- Whether a path starts with `::`. -/
def isGlobal : Path → Bool
  | mk global _ => global

/-- The segments of a path. -/
def segments : Path → List Segment
  | mk _ segments => segments

/-- The names of a path. -/
def names (p : Path) : List String :=
  p.segments.map Segment.name

/-- Whether no segment of a path has arguments. -/
def isPlain (p : Path) : Bool :=
  p.segments.all (·.style == .none)

/-- The only name of a path that is nothing but a name. -/
def ident? : Path → Option String
  | mk false [.mk word .none _] => some word.text
  | _ => none

end Path

namespace Expr

/-- The expression without its attributes. -/
def bare : Expr → Expr
  | attributed _ inner => inner.bare
  | e => e

/-- The form of an expression, if it has one. -/
def form? (e : Expr) : Option Form :=
  match e.bare with
  | compound form _ => some form
  | _ => none

end Expr

/-- A source file: its attributes and its items. -/
structure SourceFile where
  /-- What the attributes of the file contain. -/
  attributes : List Part
  /-- The items in order. -/
  items : List Item

end CapabilityGate.Program
