import CapabilityGate.Audit.Report
import CapabilityGate.Proofs.Audit.GlobReading
import CapabilityGate.Proofs.Audit.ItemOrder
import CapabilityGate.Proofs.Audit.RespelledVerdict

/-!
# Raw identifiers and the audit

A name may be written with `r#` before it, which makes no difference to what it names. An audit
takes a name as it is written, `r#` included. So it comes to the same decision when names of the
program's own are written so wherever they stand, as long as neither name resolution nor a denied
descriptor knows them. A name that a descriptor denies, or that is written in both ways, is another
name to it.

## Main definitions

* `Word.raw`: a name with `r#` before it.
* `rawSpelling`: the spelling in which certain names are raw.

## Main results

* `rejects_of_raw_names`: an audit rejects both programs or neither.
* `raw_names_hide_calls`: calls that go unnoticed because a name is raw.
-/

namespace CapabilityGate

open Program Text

/-! ### Raw names -/

/-- A name with `r#` before it. -/
def rawName (name : String) : String :=
  "r#" ++ name

@[simp]
theorem toList_rawName (name : String) : (rawName name).toList = 'r' :: '#' :: name.toList := by
  rw [rawName, String.toList_append]
  rfl

theorem rawName_injective {a b : String} (h : rawName a = rawName b) : a = b := by
  have hlist := congrArg String.toList h
  rw [toList_rawName, toList_rawName] at hlist
  exact String.toList_inj.mp (List.cons.inj (List.cons.inj hlist).2).2

/-- A word with `r#` before it is **a word** too. -/
theorem isWord_rawName {name : String} (h : isWord name = true) : isWord (rawName name) = true := by
  have hall := (Bool.and_eq_true_iff.mp h).2
  have hchars : isWordChar 'r' = true ∧ isWordChar '#' = true := by decide
  simp [isWord, hall, hchars]

/-- The word with `r#` before it. -/
def Program.Word.raw (w : Word) : Word :=
  ⟨rawName w.text, isWord_rawName w.isWord⟩

/-- The names in a list are names **of a program's own**: they start with a lower case letter, as
they do with `r#` before them, and name resolution does not know them. -/
structure OwnNames (names : List String) : Prop where
  /-- They start with a lower case letter. -/
  lower : ∀ name ∈ names, Names.startsLower name = true
  /-- Name resolution does not know them. -/
  free : ∀ name ∈ names, name ∉ knownNames

/-- A name as it is **spelled with the names in a list raw**. -/
def spelledRaw (names : List String) (name : String) : String :=
  if name ∈ names then rawName name else name

/-- Names keep their difference when some are spelled raw, if none of these **was raw before**. -/
theorem spelledRaw_inj {names : List String} {a b : String}
    (ha : ∀ name ∈ names, a ≠ rawName name) (hb : ∀ name ∈ names, b ≠ rawName name) :
    a = b ↔ spelledRaw names a = spelledRaw names b := by
  refine ⟨fun h => h ▸ rfl, fun h => ?_⟩
  rw [spelledRaw, spelledRaw] at h
  by_cases hma : a ∈ names <;> by_cases hmb : b ∈ names
  · rw [if_pos hma, if_pos hmb] at h
    exact rawName_injective h
  · rw [if_pos hma, if_neg hmb] at h
    exact absurd h.symm (hb a hma)
  · rw [if_neg hma, if_pos hmb] at h
    exact absurd h (ha b hmb)
  · rwa [if_neg hma, if_neg hmb] at h

/-- A name without `#` is no raw one. -/
theorem ne_rawName {name other : String} (h : '#' ∉ name.toList) : name ≠ rawName other := by
  rintro rfl
  rw [toList_rawName] at h
  exact h (by simp)

/-- The spelling in which **certain names are raw**, wherever they stand, and all other ones as they
are. The program to be spelled does not have them as raw names already. -/
def rawSpelling (names : List String) (h : OwnNames names) : Spelling where
  word a b := isWord a = true ∧ (∀ name ∈ names, a ≠ rawName name) ∧ b = spelledRaw names a
  roots := false
  isWord := by
    rintro a _ ⟨ha, -, rfl⟩
    refine ⟨ha, ?_⟩
    rw [spelledRaw]
    split
    · exact isWord_rawName ha
    · exact ha
  eq_iff := by
    rintro a _ c _ ⟨-, ha, rfl⟩ ⟨-, hc, rfl⟩
    exact spelledRaw_inj ha hc
  startsLower_eq := by
    rintro a _ ⟨-, -, rfl⟩
    rw [spelledRaw]
    split
    next hmem =>
      rw [h.lower a hmem, Names.startsLower, toList_rawName]
      rfl
    next => rfl
  known := by
    have hknown : ∀ name ∈ knownNames, isWord name = true ∧ '#' ∉ name.toList := by decide +kernel
    intro name hname
    refine ⟨(hknown name hname).1, fun other _ => ne_rawName (hknown name hname).2, ?_⟩
    rw [spelledRaw, if_neg fun hmem => h.free name hmem hname]
  eq_of_roots := fun hroots => Bool.noConfusion hroots

/-! ### Audits -/

/-- An identifier holds no `#`. -/
theorem hash_not_mem_of_isIdentifier {s : List Char} (h : isIdentifier s = true) : '#' ∉ s := by
  have hhash : (isAlphanumeric '#' || '#' == '_') = false := by decide
  intro hmem
  exact Bool.noConfusion ((isNameChar_of_isIdentifier h '#' hmem).symm.trans hhash)

/-- A descriptor **keeps its spelling** when none of its names is spelled raw. -/
theorem Descriptor.kept_rawSpelling {names : List String} {hown : OwnNames names} {text : String}
    {d : Descriptor} (hparse : parse text = .ok d) (h : d.AllNames (· ∉ names)) :
    d.canonical.Kept (rawSpelling names hown) := by
  obtain ⟨hproper, hmethod⟩ := proper_of_parse hparse
  have hkept : ∀ name : String, isIdentifier name.toList = true → name ∉ names →
      isWord name = true → (rawSpelling names hown).word name name := by
    intro name hidentifier hmem hword
    refine ⟨hword, fun other _ => ne_rawName (hash_not_mem_of_isIdentifier hidentifier), ?_⟩
    rw [spelledRaw, if_neg hmem]
  refine kept_of_parse hparse ⟨hproper.imp ?_ h.target, fun name hname =>
    hkept name (hmethod name hname) (h.method name hname)⟩
  intro path hpath hnames name hname
  exact hkept name (List.all_eq_true.mp hpath.2 name hname) (hnames name hname)

/-- **Raw identifiers are the same names to an audit** where a program writes the names in a list
with `r#` wherever they stand: when name resolution does not know these names, and no descriptor
names one of them, the audit rejects both programs or neither. -/
theorem rejects_of_raw_names {names : List String} (hown : OwnNames names) {p q : SourceFile}
    (h : p.Respelled (rawSpelling names hown) q) {denylist : List Descriptor}
    (hparsed : ∀ d ∈ denylist, ∃ text, Descriptor.parse text = .ok d)
    (hfree : ∀ d ∈ denylist, d.AllNames (· ∉ names)) :
    (AuditReport.ofProgram q denylist).verdict.rejects = true ↔
      (AuditReport.ofProgram p denylist).verdict.rejects = true := by
  have hroots : ∀ {P : Prop}, (rawSpelling names hown).roots = true → P := fun h =>
    Bool.noConfusion h
  have hkept : ∀ d ∈ denylist, d.canonical.Kept (rawSpelling names hown) := by
    intro d hd
    obtain ⟨text, hparse⟩ := hparsed d hd
    exact Descriptor.kept_rawSpelling hparse (hfree d hd)
  have hsame : Model.SameVerdict (.ofProgram p) (.ofProgram q) denylist :=
    Model.sameVerdict_of_respelled (Model.names_respelled h hroots hroots) hkept
      (Model.sites_respelled h hroots hroots)
  rw [AuditReport.ofProgram, AuditReport.ofProgram, hsame.rejects_eq]

/-- The tree of `mod helper { fn load() {} }` and `fn f() { helper::load(); std::fs::read(); }`,
with two names for `helper` and `load`. -/
def helperCalls (helper load : Word) : SourceFile :=
  ⟨[], [.module helper [.item (.declaration .function load [])],
    functionOf [callOf [helper, load],
      callOf [⟨"std", Eq.refl true⟩, ⟨"fs", Eq.refl true⟩, ⟨"read", Eq.refl true⟩]]]⟩

/-- A call by a path of two words or more is spelled **word by word**. -/
theorem callOf_respelled {σ : Spelling} {v w v' w' : Word} {words others : List Word}
    (hfirst : σ.word v.text w.text) (hsecond : σ.word v'.text w'.text)
    (h : List.Forall₂ (fun a b : Word => σ.word a.text b.text) words others) :
    (callOf (v :: v' :: words)).Respelled σ (callOf (w :: w' :: others)) := by
  refine .expr (.call (.path (.mk (.of_words (.cons hfirst (.cons hsecond h)))) ?_) .nil)
  rintro _ _ ⟨⟩

/-- The names `helper` and `load` may be raw in `helperCalls`, which is rejected for
`std::fs::read`. -/
theorem rejects_of_raw_helper :
    ∃ hown : OwnNames ["helper", "load"],
      (helperCalls ⟨"helper", Eq.refl true⟩ ⟨"load", Eq.refl true⟩).Respelled
          (rawSpelling ["helper", "load"] hown)
          (helperCalls (.raw ⟨"helper", Eq.refl true⟩) (.raw ⟨"load", Eq.refl true⟩)) ∧
        Descriptor.parse "std::fs" = .ok ⟨.ofPath "std::fs", none⟩ ∧
        Descriptor.AllNames (· ∉ ["helper", "load"]) ⟨.ofPath "std::fs", none⟩ ∧
        (AuditReport.ofProgram (helperCalls (.raw ⟨"helper", Eq.refl true⟩)
          (.raw ⟨"load", Eq.refl true⟩)) [⟨.ofPath "std::fs", none⟩]).verdict.rejects = true := by
  have hown : OwnNames ["helper", "load"] := ⟨by decide, by decide⟩
  have hraw : ∀ w : Word, w.text ∈ ["helper", "load"] →
      (rawSpelling ["helper", "load"] hown).word w.text w.raw.text := by
    intro w hw
    have hhash : ∀ name ∈ ["helper", "load"], '#' ∉ name.toList := by decide
    exact ⟨w.isWord, fun _ _ => ne_rawName (hhash _ hw), (if_pos hw).symm⟩
  have hkept : ∀ w : Word, '#' ∉ w.text.toList → w.text ∉ ["helper", "load"] →
      (rawSpelling ["helper", "load"] hown).word w.text w.text := fun w hhash hw =>
    ⟨w.isWord, fun _ _ => ne_rawName hhash, (if_neg hw).symm⟩
  have hprogram : (helperCalls ⟨"helper", Eq.refl true⟩ ⟨"load", Eq.refl true⟩).Respelled
      (rawSpelling ["helper", "load"] hown)
      (helperCalls (.raw ⟨"helper", Eq.refl true⟩) (.raw ⟨"load", Eq.refl true⟩)) := by
    have hhelper := hraw ⟨"helper", Eq.refl true⟩ (by decide)
    have hload := hraw ⟨"load", Eq.refl true⟩ (by decide)
    refine .cons (.item (.module hhelper (.cons (.item (.declaration hload .nil)) .nil)))
      (.cons (.item (.declaration (hkept _ (by decide) (by decide)) ?_)) .nil)
    refine .cons (callOf_respelled hhelper hload .nil) (.cons (callOf_respelled
      (hkept ⟨"std", Eq.refl true⟩ (by decide) (by decide))
      (hkept ⟨"fs", Eq.refl true⟩ (by decide) (by decide))
      (.cons (hkept ⟨"read", Eq.refl true⟩ (by decide) (by decide)) .nil)) .nil)
  have hparse : Descriptor.parse "std::fs" = .ok ⟨.ofPath "std::fs", none⟩ := by rfl
  have hfree : Descriptor.AllNames (· ∉ ["helper", "load"]) ⟨.ofPath "std::fs", none⟩ :=
    ⟨⟨by decide, trivial⟩, by simp⟩
  refine ⟨hown, hprogram, hparse, hfree, ?_⟩
  refine (rejects_of_raw_names hown hprogram ?_ ?_).mpr (by decide)
  · simpa using ⟨_, hparse⟩
  · simpa using hfree

/-- A raw name **hides a call**: a program is rejected with the name as it is, and passes with `r#`
before it. -/
structure RawHidesCall (program : Word → SourceFile) (name : Word) (denylist : List Descriptor) :
    Prop where
  /-- The program is rejected. -/
  rejects : (AuditReport.ofProgram (program name) denylist).verdict.rejects = true
  /-- It passes when the name is raw. -/
  passes : (AuditReport.ofProgram (program name.raw) denylist).verdict.rejects = false

/-- **A raw name can hide a call**: as a name on the way to the function that is called, on the way
to the target of an import, as the name of an import where it is called, or as that of a method. -/
theorem raw_names_hide_calls :
    RawHidesCall (fun name => ⟨[], [functionOf [callOf
          [⟨"std", Eq.refl true⟩, name, ⟨"read", Eq.refl true⟩]]]⟩)
        ⟨"fs", Eq.refl true⟩ [⟨.ofPath "std::fs", none⟩] ∧
      RawHidesCall (fun name => ⟨[], [
          renamed ⟨"std", Eq.refl true⟩ name ⟨"read", Eq.refl true⟩ ⟨"load", Eq.refl true⟩,
          functionOf [callOf [⟨"load", Eq.refl true⟩]]]⟩)
        ⟨"fs", Eq.refl true⟩ [⟨.ofPath "std::fs", none⟩] ∧
      RawHidesCall (fun name => ⟨[], [renamed ⟨"std", Eq.refl true⟩ ⟨"fs", Eq.refl true⟩
          ⟨"read", Eq.refl true⟩ ⟨"load", Eq.refl true⟩, functionOf [callOf [name]]]⟩)
        ⟨"load", Eq.refl true⟩ [⟨.ofPath "std::fs", none⟩] ∧
      RawHidesCall (fun name => ⟨[], [functionOf [parameterOf filePath, methodOf name]]⟩)
        ⟨"sync_all", Eq.refl true⟩ [⟨.ofPath "std::fs::File", some "sync_all"⟩] := by
  refine ⟨⟨?_, ?_⟩, ⟨?_, ?_⟩, ⟨?_, ?_⟩, ⟨?_, ?_⟩⟩
  all_goals decide

end CapabilityGate
