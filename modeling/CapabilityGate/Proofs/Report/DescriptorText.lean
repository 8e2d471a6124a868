import CapabilityGate.Proofs.Report.ReadBack

/-!
# The text of a descriptor

A descriptor can be spelled in many ways: with blanks between its parts, with leading colons, and
with any of the standard roots. It is written in one way only, and that text is read as the same
descriptor again. So the text that is written tells descriptors apart just as their parts do.

## Main definitions

* `Descriptor.form`: the structured value of a descriptor.

## Main results

* `Descriptor.eq_iff_text_eq`: readable descriptors are equal exactly when their texts are.
* `Descriptor.parsed_texts_correspond`: the descriptors that texts spell and the texts that are
  written of them correspond one to one.
-/

namespace CapabilityGate

open JsonText

namespace Descriptor

/-- The structured value of a descriptor: its text. -/
def form (d : Descriptor) : Data :=
  .text d.text

variable {d e : Descriptor}

/-- Readable descriptors are **equal exactly when their texts are**. -/
theorem eq_iff_text_eq (hd : d.Readable) (he : e.Readable) : d = e ↔ d.text = e.text := by
  constructor
  · exact congrArg text
  · intro htext
    have hread : parse d.text = .ok e := by
      rw [htext]
      exact parse_text_iff.mpr he
    rw [parse_text_iff.mpr hd] at hread
    exact Except.ok.inj hread

/-- A readable descriptor is read back from **its text in a JSON text**. -/
theorem readsBack_form (hd : d.Readable) : ReadsBack form Form.descriptorText d := by
  have hwritable : Writable maxDepth d.form := writable_text maxDepth d.text
  exact (readsBack_iff hwritable).mpr (Form.descriptorText_iff.mpr hd)

/-- **Descriptors and their texts correspond one to one**, whatever text a descriptor is parsed
from: the text that is written of it is parsed as the same descriptor, also as a text in a JSON
text; two texts spell the same descriptor exactly when the same text is written of both; and what is
written stays as it is when it is parsed and written again. -/
theorem parsed_texts_correspond {s t : String} (hs : parse s = .ok d) (ht : parse t = .ok e) :
    parse d.text = .ok d ∧ ReadsBack form Form.descriptorText d ∧
      (d = e ↔ d.text = e.text) ∧ (parse d.text).map text = .ok d.text := by
  have hd := readable_of_parse hs
  have hparse := parse_text_iff.mpr hd
  refine ⟨hparse, readsBack_form hd, eq_iff_text_eq hd (readable_of_parse ht), ?_⟩
  rw [hparse]
  rfl

/-- The method `m` of an instance of `std::A`, with nested arguments. -/
def nestedArguments : Descriptor :=
  ⟨.mk "std::A" [.mk "B" [.mk "std::C" []], .mk "D" []], some "m"⟩

/-- Two spellings of this descriptor correspond to the one text that is written of it. -/
theorem two_spellings_correspond :
    parse " ::core::A < B<\n::alloc::C>,D> # m" = .ok nestedArguments ∧
      parse "std::A<B<core::C>, D>#m" = .ok nestedArguments ∧
      nestedArguments.text = "std::A<B<std::C>, D>#m" ∧
      parse nestedArguments.text = .ok nestedArguments ∧
      ReadsBack form Form.descriptorText nestedArguments ∧
      (nestedArguments = nestedArguments ↔ nestedArguments.text = nestedArguments.text) ∧
      (parse nestedArguments.text).map text = .ok nestedArguments.text := by
  have hblanks : parse " ::core::A < B<\n::alloc::C>,D> # m" = .ok nestedArguments := by
    decide +kernel
  have hroots : parse "std::A<B<core::C>, D>#m" = .ok nestedArguments := by decide +kernel
  exact ⟨hblanks, hroots, by decide +kernel, parsed_texts_correspond hblanks hroots⟩

end Descriptor

end CapabilityGate
