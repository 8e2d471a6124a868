import CapabilityGate.Text.Blank
import CapabilityGate.Program.Reader

/-!
# Diagnostics

The messages of a compiler about a program.

## Main definitions

* `Severity`, `Diagnostic`: a message, how bad it is and where it points.
* `Diagnostic.text`: the line that is shown for a message.
-/

namespace CapabilityGate

/-- How bad a message is. -/
inductive Severity where
  /-- The program cannot be compiled. -/
  | error
  /-- The program is dubious. -/
  | warning
  /-- More is said about another message. -/
  | note
  /-- A remedy is proposed. -/
  | help
  deriving Repr, DecidableEq, Inhabited

/-- The word for a severity. -/
def Severity.word : Severity → String
  | error => "error"
  | warning => "warning"
  | note => "note"
  | help => "help"

/-- A message about a program. -/
structure Diagnostic where
  /-- How bad it is. -/
  severity : Severity
  /-- What it says. -/
  message : String
  /-- The code that the compiler gives to messages of its kind. -/
  code : Option String
  /-- The line that it points to, counted from one. -/
  line : Option Nat
  /-- The column that it points to, counted from one. -/
  column : Option Nat
  /-- The whole message as the compiler would show it. -/
  rendered : Option String
  deriving Repr, DecidableEq, Inhabited

namespace Diagnostic

/-- An error with nothing but a message. -/
def error (message : String) : Diagnostic :=
  ⟨.error, message, none, none, none, none⟩

/-- The diagnostic with a place to point to. -/
def at_ (d : Diagnostic) (line column : Nat) : Diagnostic :=
  { d with line := some line, column := some column }

/-- Whether a diagnostic is an error. -/
def isError (d : Diagnostic) : Bool :=
  d.severity = .error

/-- The text that is shown for a diagnostic: the one of the compiler without the blanks at its
end, or else its severity, code, message and place. -/
def text (d : Diagnostic) : String :=
  match d.rendered with
  | some rendered => Text.trimBlanksRight rendered
  | none =>
    let code := match d.code with
      | some code => "[" ++ code ++ "]"
      | none => ""
    let place := match d.line, d.column with
      | some line, some column =>
        " (line " ++ toString line ++ ", column " ++ toString column ++ ")"
      | _, _ => ""
    d.severity.word ++ code ++ ": " ++ d.message ++ place

/-- The diagnostic for a text that is no program. -/
def ofSyntaxError (e : Program.SyntaxError) : Diagnostic :=
  (error e.message).at_ e.position.line e.position.column

end Diagnostic

end CapabilityGate
