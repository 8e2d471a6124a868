import CapabilityGate.Program.Word

/-!
# Tokens of a program

A program text is a tree of tokens: names, punctuation marks, literals, and groups, which are
the tokens between two delimiters. Every token knows where it starts.

## Main definitions

* `Position`: a place of a text.
* `Token`: a token or a group of tokens.
* `Token.text`: the characters of a token without the blanks between its parts.
-/

namespace CapabilityGate.Program

/-- A place of a text. Lines and columns are counted from one, columns in characters. -/
structure Position where
  /-- The line. -/
  line : Nat
  /-- The column. -/
  column : Nat
  deriving Repr, DecidableEq, Inhabited

namespace Position

/-- The first place of a text. -/
def start : Position := ⟨1, 1⟩

/-- The place after one character. -/
def after (p : Position) (c : Char) : Position :=
  if c == '\n' then ⟨p.line + 1, 1⟩ else ⟨p.line, p.column + 1⟩

/-- The place after a run of characters. -/
def afterAll (p : Position) (cs : List Char) : Position :=
  cs.foldl after p

end Position

/-- The kinds of brackets that delimit a group. -/
inductive Delimiter where
  /-- Round brackets. -/
  | paren
  /-- Square brackets. -/
  | bracket
  /-- Curly brackets. -/
  | brace
  deriving Repr, DecidableEq, Inhabited

namespace Delimiter

/-- The delimiter that a character opens. -/
def opened? : Char → Option Delimiter
  | '(' => some paren
  | '[' => some bracket
  | '\x7b' => some brace
  | _ => none

/-- The delimiter that a character closes. -/
def closed? : Char → Option Delimiter
  | ')' => some paren
  | ']' => some bracket
  | '\x7d' => some brace
  | _ => none

/-- The character that opens a group. -/
def opening : Delimiter → String
  | paren => "("
  | bracket => "["
  | brace => "\x7b"

/-- The character that closes a group. -/
def closing : Delimiter → String
  | paren => ")"
  | bracket => "]"
  | brace => "\x7d"

end Delimiter

/-- A token. A mark is `joint` when another mark follows it directly. The name of a lifetime
follows the mark `'`. -/
inductive Token where
  /-- A name or keyword. -/
  | name (word : Word) (at_ : Position)
  /-- One punctuation character. -/
  | mark (c : Char) (joint : Bool) (at_ : Position)
  /-- A literal with its suffix. -/
  | literal (text : String) (at_ : Position)
  /-- The tokens between two delimiters, and the places of these. -/
  | group (delimiter : Delimiter) (body : List Token) (opens closes : Position)
  deriving Repr, Inhabited

namespace Token

/-- Where a token starts. -/
def position : Token → Position
  | name _ p => p
  | mark _ _ p => p
  | literal _ p => p
  | group _ _ p _ => p

mutual
/-- The characters of a token, those of a group with its delimiters. -/
def text : Token → String
  | name w _ => w.text
  | mark c _ _ => String.ofList [c]
  | literal s _ => s
  | group d body _ _ => d.opening ++ textAll body ++ d.closing

/-- The characters of a list of tokens. -/
def textAll : List Token → String
  | [] => ""
  | t :: rest => t.text ++ textAll rest
end

mutual
/-- The number of tokens in a token, each group counted as one and all that it holds. -/
def size : Token → Nat
  | group _ body _ _ => sizeAll body + 1
  | _ => 1

/-- The number of tokens in a list. -/
def sizeAll : List Token → Nat
  | [] => 0
  | t :: rest => t.size + sizeAll rest
end

end Token

end CapabilityGate.Program
