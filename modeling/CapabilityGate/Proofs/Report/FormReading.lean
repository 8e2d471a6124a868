import CapabilityGate.Proofs.Capability.ReadableType
import CapabilityGate.Proofs.Data.JsonWriting
import CapabilityGate.Proofs.Report.Identifier
import CapabilityGate.Report.Form

/-!
# Reading the forms of reports

The form of a call site has the text of its container, and is read as the call site but for the
container, which is what this text is parsed as. A verdict, an outcome and a report have the form of
one call site in them at most, and a verdict the text of a descriptor. Everything else in them is
read as it was. So they are what they were exactly when the container of this call site and the
descriptor are readable.

## Main definitions

* `CallSite.Bounded`, `Diagnostic.Bounded`, `Outcome.Bounded`, `Verdict.Bounded`,
  `RunReport.Bounded`: the numbers are those of the machine words that hold them.
* `Outcome.denied?`: the call site that an outcome names.
* `Verdict.violated?`: the descriptor that a verdict names.

## Main results

* `CallSite.ofForm_form`: what the form of a call site is read as.
* `CallSite.ofForm_form_iff`, `Outcome.ofForm_form_iff`, `Verdict.ofForm_form_iff`,
  `RunReport.ofForm_form_iff`: which forms are read as what they are the forms of.
* `Outcome.writable_form`, `Verdict.writable_form`, `RunReport.writable_form`: forms do not nest
  deeply, and the numbers in them are whole ones.
-/

namespace CapabilityGate

open Form JsonText

/-! ### Readers -/

namespace Form

section Except

variable {ε α β : Type}

@[simp] theorem ok_bind (a : α) (f : α → Except ε β) : (Except.ok a >>= f) = f a := rfl

@[simp] theorem error_bind (e : ε) (f : α → Except ε β) : (Except.error e >>= f) = .error e := rfl

@[simp] theorem fmap_ok (a : α) (f : α → β) : (f <$> (Except.ok a : Except ε α)) = .ok (f a) := rfl

@[simp] theorem map_ok (a : α) (f : α → β) : (Except.ok a : Except ε α).map f = .ok (f a) := rfl

@[simp] theorem map_error (e : ε) (f : α → β) :
    (Except.error e : Except ε α).map f = .error e := rfl

/-- What is read in two steps is read **in the first, and then in the second**. -/
theorem bind_eq_ok_iff {x : Except ε α} {f : α → Except ε β} {b : β} :
    (x >>= f) = .ok b ↔ ∃ a, x = .ok a ∧ f a = .ok b := by
  cases x with
  | error e => exact ⟨nofun, fun ⟨_, h, _⟩ => nomatch h⟩
  | ok a =>
      rw [ok_bind]
      exact ⟨fun h => ⟨a, rfl, h⟩, fun ⟨_, ha, h⟩ => Except.ok.inj ha ▸ h⟩

/-- What is read is put in place of a part of a value, and the value is **as it was** exactly when
the part is. -/
theorem map_eq_ok_iff {f : α → β} (hf : Function.Injective f) {x : Except ε α} {a : α} :
    x.map f = .ok (f a) ↔ x = .ok a := by
  cases x with
  | error e => exact ⟨nofun, nofun⟩
  | ok b =>
      rw [map_ok, Except.ok.injEq, Except.ok.injEq]
      exact hf.eq_iff

/-- What is read is the same, whatever is said of errors. -/
theorem mapError_eq_ok_iff {f : ε → β} {x : Except ε α} {a : α} :
    x.mapError f = .ok a ↔ x = .ok a := by
  cases x with
  | error e => exact ⟨nofun, nofun⟩
  | ok b => exact Iff.of_eq (by rw [Except.mapError, Except.ok.injEq, Except.ok.injEq])

/-- What is read in two parts is **as it was** exactly when both parts are. -/
theorem bind_map_eq_ok_iff {γ : Type} {f : α → β → γ} (hf : Function.Injective2 f)
    {x : Except ε α} {y : Except ε β} {a : α} {b : β} :
    (x >>= fun a => y.map fun b => f a b) = .ok (f a b) ↔ x = .ok a ∧ y = .ok b := by
  cases x with
  | error e => exact ⟨nofun, fun h => nomatch h.1⟩
  | ok a' =>
      cases y with
      | error e => exact ⟨nofun, fun h => nomatch h.2⟩
      | ok b' =>
          rw [ok_bind, map_ok, Except.ok.injEq, Except.ok.injEq, Except.ok.injEq]
          exact hf.eq_iff

end Except

/-- A number of so many bits is read as it was. -/
theorem natural_ofNat {bits n : Nat} (h : n < Nat.pow 2 bits) :
    natural bits (.ofNat n) = .ok n := by
  have hfits : (0 ≤ (n : Int) && (n : Int) < ((Nat.pow 2 bits : Nat) : Int)) = true := by
    rw [Bool.and_eq_true, decide_eq_true_eq, decide_eq_true_eq]
    omega
  rw [natural, Data.ofNat, between, if_pos hfits]
  rfl

variable {α : Type}

/-- A value that may be missing is read as it was if no value has the form of a missing one. -/
theorem maybe_ofOption {f : α → Data} {r : Reads α} {o : Option α}
    (h : ∀ a ∈ o, r (f a) = .ok a) (hnull : ∀ a, f a ≠ .null) :
    maybe r (.ofOption f o) = .ok o := by
  cases o with
  | none => rfl
  | some a =>
      have hsome : maybe r (f a) = (r (f a)).map some := by
        cases hfa : f a with
        | null => exact absurd hfa (hnull a)
        | _ => rfl
      rw [Data.ofOption, hsome, h a rfl]
      rfl

/-- A list is read as it was if each of its members is. -/
theorem listOf_map {f : α → Data} {r : Reads α} {as : List α}
    (h : ∀ a ∈ as, r (f a) = .ok a) : listOf r (.list (as.map f)) = .ok as := by
  rw [listOf]
  induction as with
  | nil => rfl
  | cons a rest ih =>
      rw [List.map_cons, List.mapM_cons, h a List.mem_cons_self,
        ih fun b hb => h b (List.mem_cons_of_mem a hb)]
      rfl

/-- A record of one field is read as **its field**. -/
theorem onlyField_record (name : String) (r : Reads α) (d : Data) :
    onlyField name r (.record [(name, d)]) = r d := by
  cases hread : r d <;> simp [onlyField, record, checkFields, field, need, hread]

/-- A value with its kind in the first field is read by **the reader of its kind**, from the fields
behind. -/
theorem read_tagged {tag word : String} {kinds : List (String × Reads α)} {r : Reads α}
    {fields : List (String × Data)} (hkind : kinds.lookup word = some r)
    (hfields : ∀ f ∈ fields, f.1 ≠ tag) :
    (tagged tag kinds (.record ((tag, .text word) :: fields)) >>= fun kind => kind.1 kind.2) =
      r (.record fields) := by
  have hrest : fields.filter (·.1 != tag) = fields :=
    List.filter_eq_self.mpr fun f hf => bne_iff_ne.mpr (hfields f hf)
  simp [tagged, hkind, hrest]

theorem text_text (s : String) : Form.text (.text s) = .ok s := rfl

/-- The text of a type is read as the type exactly when the type is readable. -/
theorem typeText_iff {t : TypeName} : typeText (.text t.text) = .ok t ↔ t.Readable := by
  rw [← TypeName.parse_text_iff, typeText]
  exact mapError_eq_ok_iff

/-- The text of a descriptor is read as the descriptor exactly when the descriptor is readable. -/
theorem descriptorText_iff {d : Descriptor} :
    descriptorText (.text d.text) = .ok d ↔ d.Readable := by
  rw [← Descriptor.parse_text_iff, descriptorText]
  exact mapError_eq_ok_iff

end Form

/-! ### Call sites -/

/-- A call site is **bounded** when its line and its column are numbers of 64 bits. -/
structure CallSite.Bounded (s : CallSite) : Prop where
  /-- The line is such a number. -/
  line : s.line < Nat.pow 2 64
  /-- The column is. -/
  column : s.column < Nat.pow 2 64

/-- The kind of a call is read back **from its word**. -/
theorem CallKind.ofForm_word (k : CallKind) : CallKind.ofForm (.text k.word) = .ok k := by
  cases k <;> rfl

namespace CallSite

variable {s : CallSite} (h : s.Bounded)

include h

/-- The form of a call site is read as **the call site**, with the container that its text is read
as. -/
theorem ofForm_form : ofForm s.form =
    (typeText (.text s.container.text)).map fun t => { s with container := t } := by
  have hkind := CallKind.ofForm_word s.kind
  have hline := natural_ofNat h.line
  have hcolumn := natural_ofNat h.column
  rw [ofForm, form, record]
  cases hread : typeText (.text s.container.text) with
  | error e => simp [checkFields, field, hread]
  | ok t =>
      simp [checkFields, field, need, List.lookup_cons, hread, text_text, hkind, hline, hcolumn]

/-- A call site is read from its form exactly when its container is readable. -/
theorem ofForm_form_iff : ofForm s.form = .ok s ↔ s.container.Readable := by
  have hinjective : Function.Injective fun t => { s with container := t } :=
    fun _ _ heq => congrArg container heq
  rw [ofForm_form h, ← typeText_iff]
  exact map_eq_ok_iff hinjective

end CallSite

/-! ### Diagnostics and outcomes -/

/-- A diagnostic is **bounded** when the place it points to is given by numbers of 64 bits. -/
structure Diagnostic.Bounded (d : Diagnostic) : Prop where
  /-- The line is such a number. -/
  line : ∀ n ∈ d.line, n < Nat.pow 2 64
  /-- The column is. -/
  column : ∀ n ∈ d.column, n < Nat.pow 2 64

/-- The severity of a diagnostic is read back **from its word**. -/
theorem Severity.ofForm_word (s : Severity) : Severity.ofForm (.text s.word) = .ok s := by
  cases s <;> rfl

/-- A diagnostic **is read** from its form. -/
theorem Diagnostic.ofForm_form {d : Diagnostic} (h : d.Bounded) :
    Diagnostic.ofForm d.form = .ok d := by
  have hseverity := Severity.ofForm_word d.severity
  have hcode : maybe Form.text (.ofOption .text d.code) = .ok d.code :=
    maybe_ofOption (fun s _ => text_text s) fun _ => nofun
  have hrendered : maybe Form.text (.ofOption .text d.rendered) = .ok d.rendered :=
    maybe_ofOption (fun s _ => text_text s) fun _ => nofun
  have hline : maybe (natural 64) (.ofOption .ofNat d.line) = .ok d.line :=
    maybe_ofOption (fun n hn => natural_ofNat (h.line n hn)) fun _ => nofun
  have hcolumn : maybe (natural 64) (.ofOption .ofNat d.column) = .ok d.column :=
    maybe_ofOption (fun n hn => natural_ofNat (h.column n hn)) fun _ => nofun
  rw [Diagnostic.ofForm, Diagnostic.form, record]
  simp [checkFields, field, need, Form.optional, orElse, List.lookup_cons, text_text, hseverity,
    hcode, hrendered, hline, hcolumn]

namespace Outcome

/-- An outcome is **bounded** when the numbers in it are, and an exit code has 32 bits and a
sign. -/
def Bounded : Outcome → Prop
  | .policyViolation site => site.Bounded
  | .compileFailed diagnostics => ∀ d ∈ diagnostics, d.Bounded
  | .completed code => -2147483648 ≤ code ∧ code < 2147483648
  | .notRun | .timedOut => True

/-- The call site that an outcome **names** as the denied one. -/
def denied? : Outcome → Option CallSite
  | .policyViolation site => some site
  | _ => none

variable {o : Outcome}

/-- Only the outcome of a **violation** names a site that is denied. -/
theorem eq_of_denied? {site : CallSite} (h : o.denied? = some site) :
    o = .policyViolation site := by
  cases o with
  | policyViolation other => exact congrArg policyViolation (Option.some.inj h)
  | _ => cases h

/-- The form of a policy violation is read as that of **its call site**. -/
theorem ofForm_policyViolation (site : CallSite) :
    ofForm (policyViolation site).form = (CallSite.ofForm site.form).map policyViolation := by
  refine (read_tagged rfl (by simp)).trans ?_
  dsimp only
  rw [onlyField_record]

/-- An outcome that names no call site **is read** from its form. -/
theorem ofForm_form (h : o.Bounded) (hdenied : o.denied? = none) : ofForm o.form = .ok o := by
  cases o with
  | policyViolation site => cases hdenied
  | notRun => rfl
  | timedOut => rfl
  | compileFailed diagnostics =>
      refine (read_tagged rfl (by simp)).trans ?_
      dsimp only
      rw [onlyField_record, listOf_map fun d hd => Diagnostic.ofForm_form (h d hd)]
      rfl
  | completed code =>
      have hcode : -2147483648 ≤ code ∧ code < 2147483648 := h
      refine (read_tagged rfl (by simp)).trans ?_
      dsimp only
      rw [onlyField_record, between, if_pos (by simpa using hcode)]
      rfl

/-- An outcome is read from its form exactly when the container of the call site that it names is
readable. -/
theorem ofForm_form_iff (h : o.Bounded) :
    ofForm o.form = .ok o ↔ ∀ site ∈ o.denied?, site.container.Readable := by
  have hinjective : Function.Injective policyViolation :=
    fun _ _ heq => policyViolation.inj heq
  cases hdenied : o.denied? with
  | none => exact ⟨fun _ _ => nofun, fun _ => ofForm_form h hdenied⟩
  | some site =>
      obtain rfl := eq_of_denied? hdenied
      rw [ofForm_policyViolation, map_eq_ok_iff hinjective, CallSite.ofForm_form_iff h]
      simp

end Outcome

/-! ### Verdicts -/

namespace Verdict

/-- A verdict is **bounded** when the numbers in it are. -/
def Bounded : Verdict → Prop
  | .passed scanned => scanned < Nat.pow 2 64
  | .violation site _ => site.Bounded
  | .unresolved site => site.Bounded

/-- The descriptor that a verdict **names** as the violated one. -/
def violated? : Verdict → Option Descriptor
  | .violation _ d => some d
  | _ => none

/-- The form of a violation is read as that of **its call site and its descriptor**. -/
theorem ofForm_violation (site : CallSite) (d : Descriptor) :
    ofForm (violation site d).form =
      CallSite.ofForm site.form >>= fun site =>
        (descriptorText (.text d.text)).map fun d => violation site d := by
  refine (read_tagged rfl (by simp)).trans ?_
  rw [record]
  cases hsite : CallSite.ofForm site.form with
  | error e => simp [checkFields, field, hsite]
  | ok s =>
      cases hdescriptor : descriptorText (.text d.text) <;>
        simp [checkFields, field, need, List.lookup_cons, hsite, hdescriptor]

/-- The form of a verdict on a call site that nothing is known of is read as that of **the call
site**. -/
theorem ofForm_unresolved (site : CallSite) :
    ofForm (unresolved site).form = (CallSite.ofForm site.form).map unresolved := by
  refine (read_tagged rfl (by simp)).trans ?_
  rw [onlyField_record]

/-- A verdict is read from its form exactly when the container of the call site that it names is
readable, and the descriptor that it names is. -/
theorem ofForm_form_iff {v : Verdict} (h : v.Bounded) : ofForm v.form = .ok v ↔
    (∀ site ∈ v.offending?, site.container.Readable) ∧ ∀ d ∈ v.violated?, d.Readable := by
  cases v with
  | passed scanned =>
      refine ⟨fun _ => ⟨fun _ => nofun, fun _ => nofun⟩, fun _ => ?_⟩
      refine (read_tagged rfl (by simp)).trans ?_
      rw [onlyField_record, natural_ofNat h]
      rfl
  | violation site d =>
      have hinjective : Function.Injective2 violation := fun _ _ _ _ heq => violation.inj heq
      rw [ofForm_violation, bind_map_eq_ok_iff hinjective, CallSite.ofForm_form_iff h,
        descriptorText_iff]
      simp [offending?, violated?]
  | unresolved site =>
      have hinjective : Function.Injective unresolved := fun _ _ heq => unresolved.inj heq
      rw [ofForm_unresolved, map_eq_ok_iff hinjective, CallSite.ofForm_form_iff h]
      simp [offending?, violated?]

end Verdict

/-! ### Reports of runs -/

/-- A report is **bounded** when its identifier is proper and the numbers in it are bounded. -/
structure RunReport.Bounded (r : RunReport) : Prop where
  /-- The identifier is proper. -/
  id : r.id.Proper
  /-- The outcome is bounded. -/
  outcome : r.outcome.Bounded
  /-- The time is a number of 64 bits. -/
  elapsedMs : r.elapsedMs < Nat.pow 2 64

/-- A proper id is read back **from its text**. -/
theorem RunId.ofForm_text {i : RunId} (h : i.Proper) : RunId.ofForm (.text i.text) = .ok i := by
  rw [RunId.ofForm, RunId.parse?_text h]
  rfl

namespace RunReport

variable {r : RunReport} (h : r.Bounded)

include h

/-- The form of a report is read as **the report**, with the outcome that its form is read as. -/
theorem ofForm_form : ofForm r.form =
    (Outcome.ofForm r.outcome.form).map fun o => { r with outcome := o } := by
  have hid := RunId.ofForm_text h.id
  have hchunks : listOf Form.text (.ofTexts r.chunks) = .ok r.chunks :=
    listOf_map fun s _ => text_text s
  have hworkspace : maybe Form.text (.ofOption .text r.workspace) = .ok r.workspace :=
    maybe_ofOption (fun s _ => text_text s) fun _ => nofun
  have helapsed := natural_ofNat h.elapsedMs
  rw [ofForm, form, record]
  cases hread : Outcome.ofForm r.outcome.form with
  | error e => simp [checkFields, field, hid, hread]
  | ok o =>
      simp [checkFields, field, need, Form.optional, orElse, List.lookup_cons, text_text, hid,
        hread, hchunks, hworkspace, helapsed]

/-- A report is read from its form exactly when the container of the call site that its outcome
names is readable. -/
theorem ofForm_form_iff :
    ofForm r.form = .ok r ↔ ∀ site ∈ r.outcome.denied?, site.container.Readable := by
  have hinjective : Function.Injective fun o => { r with outcome := o } :=
    fun _ _ heq => congrArg outcome heq
  rw [ofForm_form h, ← Outcome.ofForm_form_iff h.outcome]
  exact map_eq_ok_iff hinjective

end RunReport

/-! ### What forms are made of -/

/-- A number can be written **at any depth**. -/
theorem Form.writable_ofNat (depth n : Nat) : Writable depth (.ofNat n) :=
  writable_int depth n

/-- So can a value that may be missing, if it can be where it is there. -/
theorem Form.writable_ofOption {α : Type} {depth : Nat} {f : α → Data}
    (h : ∀ a, Writable depth (f a)) (o : Option α) : Writable depth (.ofOption f o) := by
  cases o with
  | none => exact writable_null depth
  | some a => exact h a

section Writable

variable (depth : Nat)

/-- A call site can be written **one list or record deep**. -/
theorem CallSite.writable_form (s : CallSite) : Writable (depth + 1) s.form := by
  simp [CallSite.form, FieldsWritable, writable_ofNat]

/-- So can a diagnostic. -/
theorem Diagnostic.writable_form (d : Diagnostic) : Writable (depth + 1) d.form := by
  simp [Diagnostic.form, FieldsWritable, writable_ofOption, writable_ofNat]

/-- The form of an outcome nests three levels at most: diagnostics are a list in it. -/
theorem Outcome.writable_form (o : Outcome) : Writable (depth + 3) o.form := by
  cases o with
  | policyViolation site => simp [Outcome.form, FieldsWritable, site.writable_form]
  | compileFailed diagnostics =>
      simp [Outcome.form, FieldsWritable, Diagnostic.writable_form]
  | completed code => simp [Outcome.form, FieldsWritable]
  | notRun => simp [Outcome.form, FieldsWritable]
  | timedOut => simp [Outcome.form, FieldsWritable]

/-- A verdict is one deeper, since it **holds a site**. -/
theorem Verdict.writable_form (v : Verdict) : Writable (depth + 2) v.form := by
  cases v with
  | passed scanned => simp [Verdict.form, FieldsWritable, writable_ofNat]
  | violation site d => simp [Verdict.form, FieldsWritable, site.writable_form]
  | unresolved site => simp [Verdict.form, FieldsWritable, site.writable_form]

/-- A report of a run can be written **four deep**. -/
theorem RunReport.writable_form (r : RunReport) : Writable (depth + 4) r.form := by
  simp [RunReport.form, FieldsWritable, r.outcome.writable_form, writable_ofOption, writable_ofNat,
    Data.ofTexts]

end Writable

end CapabilityGate
