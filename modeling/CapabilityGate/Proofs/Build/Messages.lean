import CapabilityGate.Build.Message
import CapabilityGate.Proofs.Report.FormReading
import CapabilityGate.Proofs.Text.LineBytes

/-!
# What a compiler says

A compiler writes lines. Some of them are decoded into messages that are diagnostics; the others say
nothing, whatever they are. What is said here of lines holds however they are decoded. Lines that
are JSON texts say nothing if they are no JSON at all, a value of another kind, an object with a
field missing or of another form, or a message of another type; what else stands in the object does
not matter.

## Main definitions

* `Message.Says`: a message is a diagnostic.
* `Message.Describes`: a line describes a diagnostic.
* `Message.Described`: lines describe diagnostics in order, between lines that describe none.

## Main results

* `Message.diagnosticOn?_eq_some_iff`: the diagnostic on a line is the one that it describes.
* `Message.described_iff`: so are the diagnostics in what a compiler wrote.
* `Message.diagnostics_insert`: lines that describe nothing may stand between any two.
* `Message.describes_ofLine?_iff`: which diagnostic a JSON text describes.
-/

namespace CapabilityGate

open Form

/-! ### Objects -/

namespace JsonText

/-- What may stand in a gap **is blank**. -/
theorem isBlank_of_isGap {c : Char} (h : isGap c = true) : Text.isBlank c = true := by
  simp only [isGap, Bool.or_eq_true, beq_iff_eq] at h
  rcases h with ((rfl | rfl) | rfl) | rfl <;> decide

/-- A blank is **no digit**. -/
theorem isDigit_eq_false_of_isBlank {c : Char} (h : Text.isBlank c = true) :
    c.isDigit = false := by
  rw [Bool.eq_false_iff]
  intro hdigit
  have hn : 48 ≤ c.toNat ∧ c.toNat ≤ 57 := by
    simpa [Char.isDigit, Char.le_def, UInt32.le_iff_toNat_le] using hdigit
  rw [Text.isBlank, if_pos (by omega), Bool.or_eq_true, beq_iff_eq, Bool.and_eq_true,
    decide_eq_true_eq, decide_eq_true_eq] at h
  rcases h with rfl | h
  · exact absurd hn (by decide)
  · omega

/-- A number does **not start with a blank**. -/
theorem readNumber_of_isBlank {c : Char} (h : Text.isBlank c = true) (s : List Char) :
    readNumber (c :: s) = none := by
  have hminus : c ≠ '-' := by
    rintro rfl
    exact absurd h (by decide)
  rw [readNumber]
  · simp [isDigit_eq_false_of_isBlank h]
  · rintro rest heq
    exact hminus (List.cons.inj heq).1

/-- A number is **no record**. -/
theorem ne_record_of_readNumber {s rest : List Char} {d : Data}
    (h : readNumber s = some (d, rest)) (fields : List (String × Data)) : d ≠ .record fields := by
  rw [readNumber.eq_def] at h
  -- with a minus sign or without one
  split at h
  all_goals
    dsimp only at h
    split at h
    next => exact nomatch h
    next =>
      obtain ⟨⟨fraction, behind⟩, -, h⟩ := Option.bind_eq_some_iff.mp h
      obtain ⟨⟨exponent, behind⟩, -, h⟩ := Option.bind_eq_some_iff.mp h
      dsimp only at h
      split at h
      all_goals
        cases h
        exact nofun

/-- A word is read as **its value**. -/
theorem eq_of_readWord {word s rest : List Char} {d value : Data}
    (h : readWord word value s = some (d, rest)) : d = value := by
  rw [readWord] at h
  split at h
  next =>
    cases h
    rfl
  next => exact nomatch h

/-- What a value starts with is **not blank**, and says whether it is a record. -/
theorem exists_start_of_readValue {fuel depth : Nat} {look : Look} {s rest : List Char} {d : Data}
    (h : readValue (fuel + 1) depth look s = some (d, rest)) :
    ∃ c more, skipGap s = c :: more ∧ Text.isBlank c = false ∧
      (c = '\x7b' ↔ ∃ fields, d = .record fields) := by
  rw [readValue] at h
  split at h
  next hs =>
    -- a text
    obtain ⟨_, -, ⟨⟩⟩ := Option.bind_eq_some_iff.mp h
    exact ⟨_, _, hs, by decide, by simp⟩
  next hs =>
    -- a list
    split at h
    next =>
      split at h
      next =>
        cases h
        exact ⟨_, _, hs, by decide, by simp⟩
      next =>
        obtain ⟨_, -, ⟨⟩⟩ := Option.bind_eq_some_iff.mp h
        exact ⟨_, _, hs, by decide, by simp⟩
    next => cases h
  next hs =>
    -- a record
    split at h
    next =>
      split at h
      next =>
        cases h
        exact ⟨_, _, hs, by decide, by simp⟩
      next =>
        obtain ⟨_, -, ⟨⟩⟩ := Option.bind_eq_some_iff.mp h
        exact ⟨_, _, hs, by decide, by simp⟩
    next => cases h
  next hs =>
    cases eq_of_readWord h
    exact ⟨_, _, hs, by decide, by simp⟩
  next hs =>
    cases eq_of_readWord h
    exact ⟨_, _, hs, by decide, by simp⟩
  next hs =>
    cases eq_of_readWord h
    exact ⟨_, _, hs, by decide, by simp⟩
  next hrecord _ _ _ =>
    cases hs : skipGap s with
    | nil =>
        rw [hs] at h
        cases h
    | cons c more =>
        rw [hs] at h
        refine ⟨c, more, rfl, ?_, iff_of_false ?_ ?_⟩
        · rw [Bool.eq_false_iff]
          intro hblank
          rw [readNumber_of_isBlank hblank] at h
          cases h
        · rintro rfl
          exact hrecord more hs
        · rintro ⟨fields, hd⟩
          exact ne_record_of_readNumber h fields hd

/-- A text that denotes a value **starts as a record** exactly when it denotes one. -/
theorem opensRecord_iff {look : Look} {line : String} {d : Data} (h : readFor look line = some d) :
    Message.opensRecord line = true ↔ ∃ fields, d = .record fields := by
  rw [readFor] at h
  split at h
  next value rest hread =>
    split at h
    next =>
      cases h
      obtain ⟨c, more, hskip, hblank, hrecord⟩ := exists_start_of_readValue hread
      have hgap : ∀ c ∈ line.toList.takeWhile isGap, Text.isBlank c = true := fun c hc =>
        isBlank_of_isGap (List.mem_takeWhile_imp hc)
      have hstart : line.toList.dropWhile Text.isBlank = c :: more := by
        have hline : line.toList = line.toList.takeWhile isGap ++ c :: more := by
          rw [← hskip, skipGap, List.takeWhile_append_dropWhile]
        rw [hline, List.dropWhile_append_of_pos (by simpa using hgap),
          List.dropWhile_cons_of_neg (by simp [hblank])]
      rw [Message.opensRecord, hstart, ← hrecord]
      simp
    next => cases h
  next => cases h

end JsonText

namespace Message

/-! ### Diagnostics in lines -/

/-- A message **is a diagnostic**: it is not of another kind, and says all that the diagnostic does.
The place of the diagnostic is the first primary one of the message, if there is one. -/
structure Says (m : Message) (d : Diagnostic) : Prop where
  /-- The kind is not given, or it is that of a diagnostic. -/
  kind : ∀ word ∈ m.kind, word = "diagnostic"
  /-- The level stands for the severity. -/
  severity : d.severity = severity m.level
  /-- What it says is the same. -/
  message : d.message = m.text
  /-- So is its code. -/
  code : d.code = m.code
  /-- The line is that of the place. -/
  line : d.line = (m.spans.find? Span.isPrimary).map Span.line
  /-- So is the column. -/
  column : d.column = (m.spans.find? Span.isPrimary).map Span.column
  /-- The whole message is the same. -/
  rendered : d.rendered = m.rendered

/-- A line **describes a diagnostic** if it opens a record and is decoded into a message that is the
diagnostic. -/
def Describes (decode : Decoding) (line : String) (d : Diagnostic) : Prop :=
  opensRecord line = true ∧ ∃ m, decode line = some m ∧ m.Says d

/-- Whether a message is a diagnostic is **what it says of itself**. -/
theorem isDiagnostic_iff {m : Message} :
    m.isDiagnostic = true ↔ ∀ word ∈ m.kind, word = "diagnostic" := by
  rw [isDiagnostic, Option.all_eq_true]
  exact forall₂_congr fun word _ => beq_iff_eq

/-- The diagnostic of a message is **the one that it is**. -/
theorem diagnostic?_eq_some_iff {m : Message} {d : Diagnostic} :
    m.diagnostic? = some d ↔ m.Says d := by
  rw [diagnostic?]
  constructor
  · intro h
    split at h
    next hkind =>
      cases h
      exact ⟨isDiagnostic_iff.mp hkind, rfl, rfl, rfl, rfl, rfl, rfl⟩
    next => exact nomatch h
  · rintro ⟨hkind, hseverity, hmessage, hcode, hline, hcolumn, hrendered⟩
    rw [if_pos (isDiagnostic_iff.mpr hkind), ← hseverity, ← hmessage, ← hcode, ← hrendered]
    simp only [← hline, ← hcolumn]

variable {decode : Decoding}

/-- The diagnostic on a line is **the one that the line describes**. -/
theorem diagnosticOn?_eq_some_iff {line : String} {d : Diagnostic} :
    diagnosticOn? decode line = some d ↔ Describes decode line d := by
  rw [diagnosticOn?, Describes]
  split
  next hopens =>
    rw [Option.bind_eq_some_iff]
    simp only [diagnostic?_eq_some_iff, hopens, true_and]
  next hopens =>
    simp [hopens]

/-- A line that describes nothing **has no diagnostic**. -/
theorem diagnosticOn?_eq_none_iff {line : String} :
    diagnosticOn? decode line = none ↔ ∀ d, ¬ Describes decode line d := by
  rw [Option.eq_none_iff_forall_ne_some]
  exact forall_congr' fun d => not_congr diagnosticOn?_eq_some_iff

/-- Lines **describe diagnostics**, in order, between lines that describe none. -/
inductive Described (decode : Decoding) : List String → List Diagnostic → Prop
  | nil : Described decode [] []
  | skip {line : String} {lines : List String} {ds : List Diagnostic}
      (hnone : ∀ d, ¬ Describes decode line d) (h : Described decode lines ds) :
      Described decode (line :: lines) ds
  | take {line : String} {lines : List String} {d : Diagnostic} {ds : List Diagnostic}
      (hline : Describes decode line d) (h : Described decode lines ds) :
      Described decode (line :: lines) (d :: ds)

/-- The diagnostics on lines are **those that the lines describe**. -/
theorem described_iff {lines : List String} {ds : List Diagnostic} :
    Described decode lines ds ↔ lines.filterMap (diagnosticOn? decode) = ds := by
  constructor
  · intro h
    induction h with
    | nil => rfl
    | skip hnone _ ih => rw [List.filterMap_cons, diagnosticOn?_eq_none_iff.mpr hnone, ih]
    | take hline _ ih => rw [List.filterMap_cons, diagnosticOn?_eq_some_iff.mpr hline, ih]
  · rintro rfl
    induction lines with
    | nil => exact .nil
    | cons line lines ih =>
        rw [List.filterMap_cons]
        split
        next hnone => exact .skip (diagnosticOn?_eq_none_iff.mp hnone) ih
        next hline => exact .take (diagnosticOn?_eq_some_iff.mp hline) ih

/-! ### Lines that describe nothing -/

/-- What describes nothing may be put in **wherever a line starts**, if another line starts behind
it or there is nothing behind it. -/
theorem diagnostics_insert {before piece after : List UInt8} (hbefore : Text.EndsLine before)
    (hpiece : Text.EndsLine piece ∨ after = [])
    (hnone : ∀ line ∈ Text.lines (Text.decodeLossy piece), ∀ d, ¬ Describes decode line d) :
    diagnostics decode (Text.decodeLossy (before ++ piece ++ after)) =
      diagnostics decode (Text.decodeLossy (before ++ after)) := by
  have hskipped : (Text.lines (Text.decodeLossy piece)).filterMap (diagnosticOn? decode) = [] := by
    rw [List.filterMap_eq_nil_iff]
    exact fun line hline => diagnosticOn?_eq_none_iff.mpr (hnone line hline)
  have hlines : Text.lines (Text.decodeLossy (piece ++ after)) =
      Text.lines (Text.decodeLossy piece) ++ Text.lines (Text.decodeLossy after) := by
    rcases hpiece with hends | rfl
    · exact hends.lines_append after
    · rw [List.append_nil]
      exact (List.append_nil _).symm
  rw [diagnostics, diagnostics, List.append_assoc, hbefore.lines_append, hbefore.lines_append,
    hlines, List.filterMap_append, List.filterMap_append, List.filterMap_append, hskipped,
    List.nil_append]

/-! ### Lines that are JSON texts -/

/-- The fields of an object are **those of a message**. -/
structure IsFieldsOf (fields : List (String × Data)) (m : Message) : Prop where
  /-- The values are of the forms that they need to be of, and no field occurs twice. -/
  shape : checkFields shape fields = .ok ()
  /-- The kind may be missing. -/
  kind : Form.optional fields "$message_type" Form.text = .ok m.kind
  /-- What it says is given. -/
  text : need fields "message" Form.text = .ok m.text
  /-- So is the level. -/
  level : need fields "level" Form.text = .ok m.level
  /-- The code may be missing. -/
  code : Form.optional fields "code" codeOfForm = .ok m.code
  /-- The places may be missing too. -/
  spans : orElse fields "spans" (listOf spanOfForm) [] = .ok m.spans
  /-- The whole message as it would be shown may be missing. -/
  rendered : Form.optional fields "rendered" Form.text = .ok m.rendered

/-- An object is read as **the message that it has the fields of**. -/
theorem ofForm_eq_ok_iff {fields : List (String × Data)} {m : Message} :
    ofForm (.record fields) = .ok m ↔ IsFieldsOf fields m := by
  have hrecord : ∀ fs, record true shape (.record fields) = .ok fs ↔
      checkFields shape fields = .ok () ∧ fs = fields := by
    intro fs
    rw [record]
    cases checkFields shape fields <;> simp [eq_comm]
  constructor
  · intro hread
    obtain ⟨fs, hfs, h⟩ := bind_eq_ok_iff.mp hread
    obtain ⟨hshape, rfl⟩ := (hrecord fs).mp hfs
    obtain ⟨kind, hkind, h⟩ := bind_eq_ok_iff.mp h
    obtain ⟨text, htext, h⟩ := bind_eq_ok_iff.mp h
    obtain ⟨level, hlevel, h⟩ := bind_eq_ok_iff.mp h
    obtain ⟨code, hcode, h⟩ := bind_eq_ok_iff.mp h
    obtain ⟨spans, hspans, h⟩ := bind_eq_ok_iff.mp h
    obtain ⟨rendered, hrendered, h⟩ := bind_eq_ok_iff.mp h
    cases h
    exact ⟨hshape, hkind, htext, hlevel, hcode, hspans, hrendered⟩
  · rintro ⟨hshape, hkind, htext, hlevel, hcode, hspans, hrendered⟩
    refine bind_eq_ok_iff.mpr ⟨fields, (hrecord fields).mpr ⟨hshape, rfl⟩, ?_⟩
    simp only [hkind, htext, hlevel, hcode, hspans, hrendered, ok_bind]
    rfl

/-- A JSON text describes **the diagnostic that its object has the fields of**. -/
theorem describes_ofLine?_iff {line : String} {d : Diagnostic} :
    Describes ofLine? line d ↔ ∃ fields m, JsonText.readFor look line = some (.record fields) ∧
      IsFieldsOf fields m ∧ m.Says d := by
  constructor
  · rintro ⟨hopens, m, hdecoded, hdiagnostic⟩
    obtain ⟨value, hread, hform⟩ := Option.bind_eq_some_iff.mp hdecoded
    obtain ⟨fields, rfl⟩ := (JsonText.opensRecord_iff hread).mp hopens
    refine ⟨fields, m, hread, ofForm_eq_ok_iff.mp ?_, hdiagnostic⟩
    cases hread : ofForm (.record fields) with
    | ok found =>
        rw [hread] at hform
        exact congrArg Except.ok (Option.some.inj hform)
    | error e =>
        rw [hread] at hform
        exact nomatch hform
  · rintro ⟨fields, m, hread, hfields, hdiagnostic⟩
    refine ⟨(JsonText.opensRecord_iff hread).mpr ⟨fields, rfl⟩, m, ?_, hdiagnostic⟩
    rw [ofLine?, hread, Option.bind_some, ofForm_eq_ok_iff.mpr hfields]
    rfl

/-- Any JSON text of an object with the fields of a message describes the diagnostic that this is,
**whatever other fields** it has. -/
theorem describes_of_spells {line : String} {fields : List (String × Data)} {m : Message}
    {d : Diagnostic} (hline : JsonText.Spells JsonText.maxDepth (.record fields) line.toList)
    (hfields : IsFieldsOf fields m) (hdiagnostic : m.Says d) : Describes ofLine? line d :=
  describes_ofLine?_iff.mpr ⟨fields, m, JsonText.readFor_of_spells look hline, hfields, hdiagnostic⟩

/-! A field without a meaning may escape half a character. -/

example : ((ofLine? "\x7b\"message\":\"m\",\"level\":\"help\",\"children\":[\"\\ud800\"]\x7d").bind
    diagnostic?).map Diagnostic.severity = some .help := by
  decide +kernel

end Message

end CapabilityGate
