import CapabilityGate.Proofs.Capability.WrittenType

/-!
# Types that are read back

The text of a type is also written where it is meant to be read again. But the names of types that
a program mentions come from any type syntax, and a descriptor's text knows paths and generic
arguments only. A type is read back if all its paths are made of identifiers and in normal form,
and no other type is: its text may be refused, and it may be that of a different type.

## Main definitions

* `TypeName.Readable`, `Descriptor.Readable`: the types and descriptors that are read back.

## Main results

* `TypeName.parse_text_iff`, `Descriptor.parse_text_iff`: these are exactly the ones whose text is
  parsed as what it was written for.
-/

namespace CapabilityGate

namespace TypeName

/-- A type is **readable** when all its paths are in normal form and made of identifiers. -/
def Readable (t : TypeName) : Prop :=
  t.AllPaths ProperPath

instance (path : String) : Decidable (ProperPath path) :=
  inferInstanceAs (Decidable (_ ∧ _))

/-- A proper path is made of the characters of paths. -/
theorem ProperPath.legible {path : String} (h : ProperPath path) : LegiblePath path := by
  obtain ⟨hnormal, hproper⟩ := h
  refine ⟨hnormal.symm ▸ hproper, ?_⟩
  rw [← joinPath_splitPath path]
  exact Descriptor.isPathChar_of_mem_joinPath (List.all_eq_true.mp hproper)

mutual

/-- A readable type is **in normal form**. -/
theorem normal_of_readable : ∀ {t : TypeName}, t.AllPaths ProperPath → t.normal = t
  | .mk path args, ⟨hpath, hargs⟩ => by rw [normal, hpath.1, normalAll_of_readable hargs]

theorem normalAll_of_readable : ∀ {ts : List TypeName}, ArgsAllPaths ProperPath ts →
    normalAll ts = ts
  | [], _ => rfl
  | _ :: _, ⟨hfirst, hrest⟩ => by
    rw [normalAll, normal_of_readable hfirst, normalAll_of_readable hrest]

end

/-- What is parsed is readable. -/
theorem readable_of_parse {text : String} {t : TypeName} (h : parse text = .ok t) : t.Readable := by
  obtain ⟨rest, hreads, -⟩ := parse_eq_ok_iff.mp h
  exact hreads.allPaths

/-- **A type is read back** from its text exactly when it is readable. -/
theorem parse_text_iff {t : TypeName} : parse t.text = .ok t ↔ t.Readable := by
  constructor
  · exact readable_of_parse
  · intro h
    have hlegible : t.AllPaths LegiblePath := AllPaths.imp (fun _ hpath _ => hpath.legible) h h
    rw [parse_text hlegible, normal_of_readable h]

end TypeName

namespace Descriptor

/-- A descriptor is **readable** when its type is, and its method is an identifier. -/
structure Readable (d : Descriptor) : Prop where
  /-- The type is readable. -/
  target : d.target.Readable
  /-- The method is an identifier. -/
  method : ∀ name ∈ d.method, isIdentifier name.toList = true

/-- What is parsed as a descriptor is readable. -/
theorem readable_of_parse {text : String} {d : Descriptor} (h : parse text = .ok d) :
    d.Readable :=
  ⟨(proper_of_parse h).1, (proper_of_parse h).2⟩

/-- **A descriptor is read back** from its text exactly when it is readable. -/
theorem parse_text_iff {d : Descriptor} : parse d.text = .ok d ↔ d.Readable := by
  constructor
  · exact readable_of_parse
  · intro h
    have htarget := TypeName.parse_text_iff.mpr h.target
    obtain ⟨target, method⟩ := d
    cases method with
    | none => exact parse_of_type htarget
    | some name => exact parse_of_method htarget (h.method name rfl)

end Descriptor

end CapabilityGate
