import CapabilityGate.Proofs.Audit.FirstOffence
import CapabilityGate.Proofs.Capability.InstanceOrder

/-!
# Stricter denylists

One descriptor may deny all that another one denies, and one denylist all that another one does.
The stricter denylist then rejects every program that the other one rejects, and at no later call
site: what a descriptor covers grows with its generality through every kind of call site, and
canonical forms keep the order between descriptors.

## Main definitions

* `Descriptor.AtLeast`: one descriptor is at least as general as another one.

## Main results

* `Descriptor.AtLeast.covers`: a more general descriptor covers at least as much.
* `Model.rejectsAt_of_stricter`: a stricter denylist rejects a program no later.
-/

namespace CapabilityGate

/-! ### Descriptors -/

namespace Descriptor

/-- A descriptor is **at least as general** as another one when the type of the other one is an
instance of its own, and it denies all methods or the same one. -/
structure AtLeast (e d : Descriptor) : Prop where
  /-- The type of the other one is an instance. -/
  target : instanceOf e.target d.target = true
  /-- All methods are denied, or the same one is. -/
  method : e.method = none ∨ e.method = d.method

variable {e d : Descriptor} {site : CallSite} {kind : CallKind} {t : TypeName}

/-- Canonical forms are as general as the descriptors are. -/
theorem AtLeast.canonical (h : e.AtLeast d) : e.canonical.AtLeast d.canonical :=
  ⟨instanceOf_canonical _ _ h.target, h.method⟩

/-- What agrees with a type agrees with a more general one. -/
theorem AtLeast.agrees (h : e.AtLeast d) (hd : d.agrees kind t = true) :
    e.agrees kind t = true := by
  cases kind with
  | macroBody =>
      change (d.target.path == t.path) = true at hd
      change (e.target.path == t.path) = true
      rw [path_eq_of_instanceOf h.target]
      exact hd
  | path => exact instanceOf_trans _ _ _ h.target hd
  | method => exact instanceOf_trans _ _ _ h.target hd
  | reference => exact instanceOf_trans _ _ _ h.target hd

/-- A descriptor that is at least as general as another one **covers what the other one covers**,
whatever kind of call site it is. -/
theorem AtLeast.covers (h : e.AtLeast d) (hd : d.covers site = true) : e.covers site = true := by
  rw [Descriptor.covers, Bool.or_eq_true] at hd ⊢
  rcases hd with hmember | hnamed
  · rw [Bool.and_eq_true] at hmember
    obtain ⟨hcontainer, hmethod⟩ := hmember
    left
    rw [Bool.and_eq_true]
    refine ⟨h.agrees hcontainer, ?_⟩
    rcases h.method with hall | hsame
    · rw [hall]
      rfl
    · rw [hsame]
      exact hmethod
  · right
    cases hkind : site.kind with
    | method =>
        rw [hkind] at hnamed
        exact Bool.noConfusion hnamed
    | path =>
        rw [hkind] at hnamed
        simp only [Bool.and_eq_true, Option.isNone_iff_eq_none] at hnamed ⊢
        refine ⟨h.agrees hnamed.1, ?_⟩
        rcases h.method with hall | hsame
        · exact hall
        · exact hsame.trans hnamed.2
    | reference =>
        rw [hkind] at hnamed
        exact h.agrees hnamed
    | macroBody =>
        rw [hkind] at hnamed
        exact h.agrees hnamed

end Descriptor

/-! ### Denylists -/

namespace Model

variable {m : Model} {lenient strict : List Descriptor} {site : CallSite} {i : Nat}

/-- What offends against a denylist offends against **a stricter one**. -/
theorem Offends.of_stricter (h : ∀ d ∈ lenient, ∃ e ∈ strict, e.AtLeast d)
    (hsite : m.Offends lenient site) : m.Offends strict site := by
  rcases hsite with ⟨d, hd, hcovers⟩ | hunresolved
  · obtain ⟨e, he, hge⟩ := h d hd
    exact Or.inl ⟨e, he, hge.canonical.covers hcovers⟩
  · exact Or.inr hunresolved

/-- A program is rejected at the first call site that offends. -/
theorem FirstOffence.rejectsAt {denylist : List Descriptor} (hne : denylist ≠ [])
    (h : m.FirstOffence denylist i site) : m.RejectsAt denylist i site := by
  refine ⟨h.at_, ?_, h.first⟩
  have hfinding := verdict_of_firstOffence hne h
  rw [finding?] at hfinding
  rw [verdict_withoutRepeats]
  split at hfinding
  · rw [← Option.some.inj hfinding]
    rfl
  · split at hfinding
    · rw [← Option.some.inj hfinding]
      rfl
    · exact absurd hfinding (by simp)

/-- A call site that a program is rejected at is the first that offends, and something is
denied. -/
theorem RejectsAt.firstOffence {denylist : List Descriptor} (h : m.RejectsAt denylist i site) :
    denylist ≠ [] ∧ m.FirstOffence denylist i site := by
  have hne : denylist ≠ [] := by
    rintro rfl
    exact Option.some_ne_none site h.verdict.symm
  refine ⟨hne, h.at_, ?_, h.first⟩
  have hverdict := h.verdict
  rw [verdict_withoutRepeats] at hverdict
  rcases m.exists_firstOffence denylist with hpass | ⟨j, other, hother⟩
  · rw [verdict_of_no_offence hne hpass] at hverdict
    exact absurd hverdict (by simp [Verdict.offending?])
  · have hrejects := (hother.rejectsAt hne).verdict
    rw [verdict_withoutRepeats, hverdict] at hrejects
    obtain rfl := Option.some.inj hrejects
    exact hother.offends

/-- **A stricter denylist lets no more through.** If every descriptor of a denylist has one in a
second denylist that is at least as general, then a program that the first one rejects at some
call site is rejected by the second one, at this call site or at an earlier one. -/
theorem rejectsAt_of_stricter (h : ∀ d ∈ lenient, ∃ e ∈ strict, e.AtLeast d)
    (hrejects : m.RejectsAt lenient i site) :
    ∃ j ≤ i, ∃ earlier, m.RejectsAt strict j earlier := by
  obtain ⟨hne, hoffence⟩ := hrejects.firstOffence
  have hstrict : strict ≠ [] := by
    obtain ⟨d, hd⟩ := List.exists_mem_of_ne_nil lenient hne
    obtain ⟨e, he, -⟩ := h d hd
    exact List.ne_nil_of_mem he
  have hsite : m.Offends strict site := hoffence.offends.of_stricter h
  rcases m.exists_firstOffence strict with hpass | ⟨j, earlier, hfirst⟩
  · exact absurd hsite (hpass site (List.mem_of_getElem? hoffence.at_))
  · refine ⟨j, Nat.le_of_not_lt fun hlate => ?_, earlier, hfirst.rejectsAt hstrict⟩
    exact hfirst.first i hlate site hoffence.at_ hsite

/-- The descriptor of opening files. -/
def openDenied : Descriptor :=
  ⟨.mk "core::fs::File" [], some "open"⟩

/-- Where opening files is denied the second call site is rejected, and it still is, or an earlier
one, where all methods of files and what belongs to the process are denied. -/
theorem print_open_exit_rejected_no_later :
    (∀ d ∈ [openDenied], ∃ e ∈ [processDenied, filesDenied], e.AtLeast d) ∧
      printOpenExit.RejectsAt [openDenied] 1 fileOpened ∧
      ∃ j ≤ 1, ∃ earlier, printOpenExit.RejectsAt [processDenied, filesDenied] j earlier := by
  have hgeneral : ∀ d ∈ [openDenied], ∃ e ∈ [processDenied, filesDenied], e.AtLeast d := by
    intro d hd
    obtain rfl := List.mem_singleton.mp hd
    exact ⟨filesDenied, by decide, by decide, Or.inl rfl⟩
  have hrejects : printOpenExit.RejectsAt [openDenied] 1 fileOpened := by
    refine ⟨rfl, by decide, ?_⟩
    intro j hj earlier hearlier
    obtain rfl : j = 0 := by omega
    obtain rfl := Option.some.inj hearlier
    rw [← finding?_isSome_iff]
    decide
  exact ⟨hgeneral, hrejects, rejectsAt_of_stricter hgeneral hrejects⟩

end Model

end CapabilityGate
