import CapabilityGate.Data.JsonText
import CapabilityGate.Report.Form
import CapabilityGate.Text.Lines

/-!
# Messages of the compiler

The compiler writes its messages as JSON texts, one on a line, between lines of other kinds. A line
is decoded into a message, and a message that is a diagnostic is reported. How a line is decoded is
left open where it does not matter.

## Main definitions

* `Message`: a message of the compiler.
* `Message.Decoding`: how a line is decoded into a message.
* `Message.ofLine?`: the decoding of lines that are JSON texts.
* `Message.diagnostic?`: the diagnostic that a message is, if it is one.
* `Message.diagnostics`: the diagnostics in what a compiler wrote.
-/

namespace CapabilityGate

/-- A place that a message points to. -/
structure Span where
  /-- The line. -/
  line : Nat
  /-- The column. -/
  column : Nat
  /-- Whether this is the place that the message is about. -/
  isPrimary : Bool

/-- A message of the compiler. -/
structure Message where
  /-- What kind of message it says that it is. -/
  kind : Option String
  /-- What it says. -/
  text : String
  /-- How serious it is. -/
  level : String
  /-- The code of the diagnostic. -/
  code : Option String
  /-- The places that it points to. -/
  spans : List Span
  /-- The whole message as it would be shown. -/
  rendered : Option String

namespace Message

/-! ### Reading messages -/

open Form JsonText

/-- Reads the code of a message. -/
def codeOfForm : Reads String := fun d => do
  let f ← record true [field "code" Form.text] d
  need f "code" Form.text

/-- Reads a place that a message points to. -/
def spanOfForm : Reads Span := fun d => do
  let f ← record true [field "line_start" (natural 64), field "column_start" (natural 64),
    field "is_primary" truth] d
  return ⟨← need f "line_start" (natural 64), ← need f "column_start" (natural 64),
    ← need f "is_primary" truth⟩

/-- The fields of a message, each with the check that its value has to pass. -/
def shape : List Field :=
  [field "$message_type" (maybe Form.text), field "message" Form.text, field "level" Form.text,
    field "code" (maybe codeOfForm), field "spans" (listOf spanOfForm),
    field "rendered" (maybe Form.text)]

/-- Reads a message. -/
def ofForm : Reads Message := fun d => do
  let f ← record true shape d
  return ⟨← optional f "$message_type" Form.text, ← need f "message" Form.text,
    ← need f "level" Form.text, ← optional f "code" codeOfForm,
    ← orElse f "spans" (listOf spanOfForm) [], ← optional f "rendered" Form.text⟩

/-- What is looked at in the JSON text of a message. The compiler says more: texts to be shown with
a code, the lines of a place and the macros behind it, and messages that belong to this one. -/
def look : Look :=
  .fields [("$message_type", .whole), ("message", .whole), ("level", .whole),
    ("code", .fields [("code", .whole)]),
    ("spans", .members
      (.fields [("line_start", .whole), ("column_start", .whole), ("is_primary", .whole)])),
    ("rendered", .whole)]

/-- How a line is **decoded** into a message, if it is one. -/
abbrev Decoding : Type := String → Option Message

/-- The message that a line is **the JSON text of**. -/
def ofLine? : Decoding := fun line =>
  (readFor look line).bind fun d => (ofForm d).toOption

/-! ### Diagnostics -/

/-- The severity that a level stands for. -/
def severity (level : String) : Severity :=
  if level == "warning" then .warning
  else if level == "help" then .help
  else if "error".isPrefixOf level then .error
  else .note

/-- Whether a message is a diagnostic: it is none if it says that it is of another kind. -/
def isDiagnostic (m : Message) : Bool :=
  m.kind.all (· == "diagnostic")

/-- The **diagnostic** that a message is, if it is one. Its place is the first primary one. -/
def diagnostic? (m : Message) : Option Diagnostic :=
  let place := m.spans.find? Span.isPrimary
  if m.isDiagnostic then
    some ⟨severity m.level, m.text, m.code, place.map Span.line, place.map Span.column, m.rendered⟩
  else none

/-- Whether the first character of a line that is not blank opens a record. -/
def opensRecord (line : String) : Bool :=
  (line.toList.dropWhile Text.isBlank).head? == some '\x7b'

/-- The diagnostic on a line, if it holds one. Only a line that opens a record is decoded. -/
def diagnosticOn? (decode : Decoding) (line : String) : Option Diagnostic :=
  if opensRecord line then (decode line).bind diagnostic? else none

/-- The **diagnostics** in what a compiler wrote, in order. -/
def diagnostics (decode : Decoding) (written : String) : List Diagnostic :=
  (Text.lines written).filterMap (diagnosticOn? decode)

end Message

end CapabilityGate
