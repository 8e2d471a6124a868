import CapabilityGate.Program.Token

/-!
# Reading token by token

The readers that a grammar is built from. A reader looks at the tokens of one group from the left,
takes some of them and yields a result, or fails at the token that does not fit. Tokens that a
reader leaves over in a group it has entered are remembered, so that a program with stray tokens
is refused in the end.

## Main definitions

* `SyntaxError`: why a text is no program, and where.
* `Input`: what is left of a group.
* `Reader`: a reader.
* `atMark`, `atName`, `atGroup`, `atLifetime`, `atLiteral`: what a list of tokens starts with.
-/

namespace CapabilityGate.Program

/-- Why a text is no program. -/
inductive SyntaxError where
  /-- The text cannot be cut into tokens from `at_` on. -/
  | unreadable (at_ : Position)
  /-- Something else stands at `at_` than `expected` says; nothing when `ended`. -/
  | mismatch (expected : String) (ended : Bool) (at_ : Position)
  /-- The constructs at `at_` nest more deeply than a reader follows. -/
  | tooDeep (at_ : Position)
  deriving Repr, DecidableEq

namespace SyntaxError

/-- Where the text goes wrong. -/
def position : SyntaxError → Position
  | unreadable p => p
  | mismatch _ _ p => p
  | tooDeep p => p

/-- The wording of an error. -/
def message : SyntaxError → String
  | unreadable _ => "cannot parse string into token stream"
  | mismatch expected false _ => expected
  | mismatch expected true _ => "unexpected end of input, " ++ expected
  | tooDeep _ => "constructs nest too deeply"

end SyntaxError

/-! ### What tokens start with -/

/-- Whether the tokens start with these marks, joined to one another. -/
def atMarks : List Char → List Token → Bool
  | [c], .mark d _ _ :: _ => c == d
  | c :: cs, .mark d joint _ :: rest => c == d && joint && atMarks cs rest
  | _, _ => false

/-- Whether the tokens start with the operator `op`, or with one that starts like it. -/
def atMark (op : String) (ts : List Token) : Bool :=
  atMarks op.toList ts

/-- Whether the first token is the name or keyword `word`. -/
def atName (word : String) : List Token → Bool
  | .name w _ :: _ => w.text == word
  | _ => false

/-- Whether the first token is one of the names or keywords `words`. -/
def atOneOf (words : List String) : List Token → Bool
  | .name w _ :: _ => words.contains w.text
  | _ => false

/-- The words that are no identifiers. -/
def keywords : List String :=
  ["_", "abstract", "as", "async", "await", "become", "box", "break", "const", "continue", "crate",
   "do", "dyn", "else", "enum", "extern", "false", "final", "fn", "for", "if", "impl", "in", "let",
   "loop", "macro", "match", "mod", "move", "mut", "override", "priv", "pub", "ref", "return",
   "Self", "self", "static", "struct", "super", "trait", "true", "try", "type", "typeof", "unsafe",
   "unsized", "use", "virtual", "where", "while", "yield"]

/-- Whether the first token is an identifier. -/
def atIdent : List Token → Bool
  | .name w _ :: _ => !keywords.contains w.text
  | _ => false

/-- Whether the first token is an identifier or a keyword. -/
def atWord : List Token → Bool
  | .name _ _ :: _ => true
  | _ => false

/-- Whether the first token is a group with the delimiter. -/
def atGroup (d : Delimiter) : List Token → Bool
  | .group e _ _ _ :: _ => d = e
  | _ => false

/-- Whether the tokens start with a lifetime. -/
def atLifetime : List Token → Bool
  | .mark '\'' true _ :: .name _ _ :: _ => true
  | _ => false

/-- Whether a literal is a number. -/
def isNumeral (s : String) : Bool :=
  s.toList.head?.any Char.isDigit

/-- Whether a literal is a string of characters. -/
def isStringLiteral (s : String) : Bool :=
  match s.toList with
  | '"' :: _ => true
  | 'r' :: _ => true
  | _ => false

/-- Whether the tokens start with a literal: a literal token, a truth value, or a number behind
a minus sign. -/
def atLiteral : List Token → Bool
  | .literal _ _ :: _ => true
  | .name w _ :: _ => w.text == "true" || w.text == "false"
  | .mark '-' _ _ :: .literal s _ :: _ => isNumeral s
  | _ => false

/-- Whether the first token is the literal of a string. -/
def atStringLiteral : List Token → Bool
  | .literal s _ :: _ => isStringLiteral s
  | _ => false

/-- The tokens after the first, where a lifetime counts as one token. -/
def afterOne : List Token → List Token
  | .mark '\'' _ _ :: .name _ _ :: rest => rest
  | _ :: rest => rest
  | [] => []

/-- The tokens after the first two. -/
def afterTwo (ts : List Token) : List Token :=
  afterOne (afterOne ts)

/-! ### Readers -/

/-- What is left of a group: its tokens, where it closes, and the first token that was left over
in a group before. -/
structure Input where
  /-- The tokens that are left. -/
  rest : List Token
  /-- Where the group closes; the start of the text for the whole of it. -/
  closes : Position
  /-- The first token left over. -/
  stray : Option Position
  deriving Inhabited

/-- A reader of results of type `α`. -/
def Reader (α : Type) : Type :=
  Input → Except SyntaxError (α × Input)

namespace Reader

/-- The reader that takes nothing and yields `a`. -/
def pure' {α : Type} (a : α) : Reader α :=
  fun i => .ok (a, i)

/-- Reads with `r`, then with the reader that `f` chooses by its result. -/
def andThen {α β : Type} (r : Reader α) (f : α → Reader β) : Reader β :=
  fun i =>
    match r i with
    | .ok (a, i) => f a i
    | .error e => .error e

instance : Monad Reader where
  pure := pure'
  bind := andThen

/-- Where the next token starts, or where the group closes if none is left. -/
def here : Reader Position :=
  fun i => .ok ((i.rest.head?.map Token.position).getD i.closes, i)

/-- The tokens that are left. -/
def ahead : Reader (List Token) :=
  fun i => .ok (i.rest, i)

/-- Whether the tokens that are left pass a test. -/
def sees (test : List Token → Bool) : Reader Bool :=
  fun i => .ok (test i.rest, i)

/-- Whether no token is left. -/
def isEmpty : Reader Bool :=
  sees List.isEmpty

/-- Fails at the next token, which is not what was `expected`. -/
def fail {α : Type} (expected : String) : Reader α :=
  fun i => .error (.mismatch expected i.rest.isEmpty
    ((i.rest.head?.map Token.position).getD i.closes))

/-- Fails at the given place. -/
def failAt {α : Type} (expected : String) (p : Position) : Reader α :=
  fun _ => .error (.mismatch expected false p)

/-- Fails for want of depth. -/
def tooDeep {α : Type} : Reader α :=
  fun i => .error (.tooDeep ((i.rest.head?.map Token.position).getD i.closes))

/-- Takes the marks of an operator from the front of a list of tokens. -/
def dropMarks : List Char → List Token → Option (List Token)
  | [c], .mark d _ _ :: rest => if c == d then some rest else none
  | c :: cs, .mark d joint _ :: rest => if c == d && joint then dropMarks cs rest else none
  | _, _ => none

/-- Takes the operator `op`. -/
def mark (op : String) : Reader Unit :=
  fun i =>
    match dropMarks op.toList i.rest with
    | some rest => .ok ((), { i with rest := rest })
    | none => fail ("expected `" ++ op ++ "`") i

/-- Takes the operator `op` if it is next, and says whether it was. -/
def mark? (op : String) : Reader Bool :=
  fun i =>
    match dropMarks op.toList i.rest with
    | some rest => .ok (true, { i with rest := rest })
    | none => .ok (false, i)

/-- Takes the keyword `word`. -/
def keyword (word : String) : Reader Unit :=
  fun i =>
    match i.rest with
    | .name w _ :: rest =>
      if w.text == word then .ok ((), { i with rest := rest })
      else fail ("expected `" ++ word ++ "`") i
    | _ => fail ("expected `" ++ word ++ "`") i

/-- Takes the keyword `word` if it is next, and says whether it was. -/
def keyword? (word : String) : Reader Bool :=
  fun i =>
    match i.rest with
    | .name w _ :: rest =>
      if w.text == word then .ok (true, { i with rest := rest }) else .ok (false, i)
    | _ => .ok (false, i)

/-- Takes an identifier or a keyword. -/
def word : Reader Word :=
  fun i =>
    match i.rest with
    | .name w _ :: rest => .ok (w, { i with rest := rest })
    | _ => fail "expected ident" i

/-- Takes an identifier. -/
def ident : Reader Word :=
  fun i =>
    match i.rest with
    | .name w _ :: rest =>
      if keywords.contains w.text then
        fail ("expected identifier, found keyword `" ++ w.text ++ "`") i
      else .ok (w, { i with rest := rest })
    | _ => fail "expected identifier" i

/-- Takes a lifetime. -/
def lifetime : Reader Unit :=
  fun i =>
    match i.rest with
    | .mark '\'' true _ :: .name _ _ :: rest => .ok ((), { i with rest := rest })
    | _ => fail "expected lifetime" i

/-- Takes a lifetime if one is next, and says whether one was. -/
def lifetime? : Reader Bool :=
  fun i =>
    match i.rest with
    | .mark '\'' true _ :: .name _ _ :: rest => .ok (true, { i with rest := rest })
    | _ => .ok (false, i)

/-- Takes a literal. -/
def literal : Reader Unit :=
  fun i =>
    match i.rest with
    | .literal _ _ :: rest => .ok ((), { i with rest := rest })
    | .name w _ :: rest =>
      if w.text == "true" || w.text == "false" then .ok ((), { i with rest := rest })
      else fail "expected literal" i
    | .mark '-' _ _ :: .literal s _ :: rest =>
      if isNumeral s then .ok ((), { i with rest := rest }) else fail "expected literal" i
    | _ => fail "expected literal" i

/-- Takes any token. -/
def any : Reader Unit :=
  fun i => .ok ((), { i with rest := i.rest.drop 1 })

/-- Takes all tokens that are left. -/
def all : Reader Unit :=
  fun i => .ok ((), { i with rest := [] })

/-- How a group with the delimiter is asked for. -/
def groupName : Delimiter → String
  | .paren => "expected parentheses"
  | .bracket => "expected square brackets"
  | .brace => "expected curly braces"

/-- Takes a group and reads its tokens. The first token that is left over in it is remembered,
unless one is already. -/
def group {α : Type} (d : Delimiter) (inside : Reader α) : Reader α :=
  fun i =>
    match i.rest with
    | .group e body _ closes :: rest =>
      if d = e then
        match inside { rest := body, closes := closes, stray := i.stray } with
        | .ok (a, j) =>
          .ok (a, { i with rest := rest, stray := j.stray.or (j.rest.head?.map Token.position) })
        | .error e => .error e
      else fail (groupName d) i
    | _ => fail (groupName d) i

/-- Takes a group with any delimiter and yields its delimiter and its tokens. -/
def anyGroup : Reader (Delimiter × List Token) :=
  fun i =>
    match i.rest with
    | .group d body _ _ :: rest => .ok ((d, body), { i with rest := rest })
    | _ => fail "expected delimiter" i

/-- What `r` would yield here. Nothing is taken. -/
def would {α : Type} (r : Reader α) : Reader (Option α) :=
  fun i =>
    match r { i with stray := none } with
    | .ok (a, _) => .ok (some a, i)
    | .error _ => .ok (none, i)

/-- Reads with `r` if it does not fail, and takes nothing if it does. -/
def attempt {α : Type} (r : Reader α) : Reader (Option α) :=
  fun i =>
    match r i with
    | .ok (a, j) => .ok (some a, j)
    | .error _ => .ok (none, i)

/-- Repeats a step that either ends with a result or goes on with a new state, at most `fuel`
times. -/
def iterateFor {σ β : Type} (step : σ → Reader (σ ⊕ β)) : (fuel : Nat) → σ → Reader β
  | 0, _ => tooDeep
  | fuel + 1, s =>
    step s >>= fun
      | .inl s => iterateFor step fuel s
      | .inr b => pure b

/-- Repeats a step that either ends with a result, or takes a token and goes on with a new
state. -/
def iterate {σ β : Type} (step : σ → Reader (σ ⊕ β)) (s : σ) : Reader β :=
  fun i => iterateFor step (i.rest.length + 2) s i

/-- The results of a step that is repeated until it yields none. -/
def collect {α : Type} (step : Reader (Option α)) : Reader (List α) :=
  iterate (fun done => do
    match ← step with
    | some a => return .inl (a :: done)
    | none => return .inr done.reverse) []

/-- The results of `r`, repeated until no token is left. -/
def untilEmpty {α : Type} (r : Reader α) : Reader (List α) :=
  collect do
    if ← isEmpty then return none
    return some (← r)

/-- The results of `r` between commas, until no token is left. A comma may stand at the end. -/
def terminated {α : Type} (r : Reader α) : Reader (List α) :=
  collect do
    if ← isEmpty then return none
    let a ← r
    unless ← isEmpty do mark ","
    return some a

/-- The results of `r` with the operator `op` between them, while the tokens left do not pass the
test `stop` before a result, and as long as the operator follows. -/
def joined {α : Type} (op : String) (stop : List Token → Bool) (r : Reader α) :
    Reader (List α) :=
  iterate (fun done => do
    if ← sees stop then return .inr done.reverse
    let a ← r
    if ← mark? op then return .inl (a :: done)
    return .inr (a :: done).reverse) []

/-- The text of the tokens that `r` takes, and what it yields. -/
def withText {α : Type} (r : Reader α) : Reader (α × String) :=
  fun i =>
    match r i with
    | .ok (a, j) => .ok ((a, Token.textAll (i.rest.take (i.rest.length - j.rest.length))), j)
    | .error e => .error e

/-- Whether the last of the tokens that `r` takes is a group in braces, and what it yields. -/
def withBrace {α : Type} (r : Reader α) : Reader (α × Bool) :=
  fun i =>
    match r i with
    | .ok (a, j) =>
      .ok ((a, atGroup .brace (i.rest.drop (i.rest.length - j.rest.length - 1))), j)
    | .error e => .error e

/-- Reads all of a list of tokens. It fails at a token left over, in the list or in one of its
groups. -/
def run {α : Type} (r : Reader α) (tokens : List Token) : Except SyntaxError α :=
  match r { rest := tokens, closes := .start, stray := none } with
  | .error e => .error e
  | .ok (a, i) =>
    match i.stray.or (i.rest.head?.map Token.position) with
    | none => .ok a
    | some p => .error (.mismatch "unexpected token" false p)

end Reader

end CapabilityGate.Program
