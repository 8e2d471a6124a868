import CapabilityGate.Audit.Verdict

/-!
# The call site that decides a verdict

A denylist is read twice over: the call sites are gone through in order, and for each of them the
descriptors are. Which program is rejected, and for which call site, depends on the set of
descriptors alone; their order only decides which of several descriptors is named.

## Main definitions

* `Model.Offends`: a call site that a denylist does not let pass.
* `Model.FirstOffence`: the first of them, with its index.
* `Model.RejectsAt`: an audit rejects a program at a call site.
* `Verdict.Agree`: two verdicts are of one kind and name the same call site.

## Main results

* `Model.verdict_of_firstOffence`: the first offence decides the verdict.
* `Model.verdict_at_first_offence`: what is reported in each case, and that neither the order of
  a denylist nor repeats in it change more than the descriptor that is named.
-/

namespace CapabilityGate

/-! ### Denylists without repeats -/

section WithoutRepeats

variable {α : Type} [DecidableEq α]

/-- What is found in a list without repeats is **what is found in the list**: leaving out a later
copy never leaves out the first match. -/
theorem find?_withoutRepeats (f : α → Bool) (xs : List α) :
    (withoutRepeats xs).find? f = xs.find? f := by
  -- the induction is on what is still to come, behind the members that are kept already
  have hfold : ∀ (xs done : List α),
      (xs.foldl (fun done x => if x ∈ done then done else done ++ [x]) done).find? f =
        (done ++ xs).find? f := by
    intro xs
    induction xs with
    | nil => intro done; rw [List.foldl_nil, List.append_nil]
    | cons x rest ih =>
        intro done
        rw [List.foldl_cons, ih]
        by_cases hx : x ∈ done
        · rw [if_pos hx, List.find?_append, List.find?_append, List.find?_cons]
          cases hfx : f x with
          | false => rfl
          | true =>
              have hsome : (done.find? f).isSome = true := by
                rw [List.find?_isSome]
                exact ⟨x, hx, hfx⟩
              obtain ⟨y, hy⟩ := Option.isSome_iff_exists.mp hsome
              rw [hy, Option.some_or, Option.some_or]
        · rw [if_neg hx, List.append_assoc, List.singleton_append]
  exact hfold xs []

/-- A list without repeats has the members of the list. -/
theorem mem_withoutRepeats {x : α} {xs : List α} : x ∈ withoutRepeats xs ↔ x ∈ xs := by
  have hfind := find?_withoutRepeats (fun y => decide (y = x)) xs
  have hmem : ∀ ys : List α, (ys.find? fun y => decide (y = x)).isSome = true ↔ x ∈ ys := by
    intro ys
    simp [List.find?_isSome]
  rw [← hmem, ← hmem, hfind]

end WithoutRepeats

namespace Model

variable {m : Model} {denylist : List Descriptor} {site : CallSite}

/-- Repeats in a denylist change no verdict. -/
theorem verdict_withoutRepeats (m : Model) (denylist : List Descriptor) :
    m.verdict (withoutRepeats denylist) = m.verdict denylist := by
  have hfinding : m.finding? ((withoutRepeats denylist).map Descriptor.canonical) =
      m.finding? (denylist.map Descriptor.canonical) := by
    funext site
    rw [finding?, finding?, List.find?_map, List.find?_map, find?_withoutRepeats]
  have hempty : (withoutRepeats denylist).isEmpty = denylist.isEmpty := by
    rw [Bool.eq_iff_iff, List.isEmpty_iff, List.isEmpty_iff, List.eq_nil_iff_forall_not_mem,
      List.eq_nil_iff_forall_not_mem]
    exact forall_congr' fun d => not_congr mem_withoutRepeats
  rw [verdict, verdict, hempty, hfinding]

/-! ### Offences -/

/-- A call site **offends** against a denylist when a descriptor in it covers the site, each in
its canonical form, or when the site points into the program at nothing it declares. -/
def Offends (m : Model) (denylist : List Descriptor) (site : CallSite) : Prop :=
  (∃ d ∈ denylist, d.canonical.covers site = true) ∨ m.isUnresolved site = true

/-- The call site with index `i` is the **first** that offends against a denylist. -/
structure FirstOffence (m : Model) (denylist : List Descriptor) (i : Nat) (site : CallSite) :
    Prop where
  /-- It has this index. -/
  at_ : m.sites[i]? = some site
  /-- It offends. -/
  offends : m.Offends denylist site
  /-- No call site before it does. -/
  first : ∀ j < i, ∀ earlier, m.sites[j]? = some earlier → ¬ m.Offends denylist earlier

/-- The audit under a denylist **rejects a program at** the call site with index `i`: the verdict
is for this site, and no site before it offends. -/
structure RejectsAt (m : Model) (denylist : List Descriptor) (i : Nat) (site : CallSite) :
    Prop where
  /-- The site has this index. -/
  at_ : m.sites[i]? = some site
  /-- The verdict rejects the program for this site. -/
  verdict : (m.verdict (withoutRepeats denylist)).offending? = some site
  /-- No call site before it offends. -/
  first : ∀ j < i, ∀ earlier, m.sites[j]? = some earlier → ¬ m.Offends denylist earlier

/-- The first descriptor that covers a call site is found by its canonical form. -/
theorem find?_canonical (denylist : List Descriptor) (site : CallSite) :
    (denylist.map Descriptor.canonical).find? (·.covers site) =
      (denylist.find? (·.canonical.covers site)).map Descriptor.canonical := by
  rw [List.find?_map]
  rfl

/-- A descriptor that is found for a call site is in the denylist and covers the site. -/
theorem covers_of_find? {d : Descriptor}
    (h : denylist.find? (·.canonical.covers site) = some d) :
    d ∈ denylist ∧ d.canonical.covers site = true :=
  ⟨List.mem_of_find?_eq_some h,
    List.find?_some (p := fun e : Descriptor => e.canonical.covers site) h⟩

/-- There is a finding at the call sites that offend, and **at no others**. -/
theorem finding?_isSome_iff :
    (m.finding? (denylist.map Descriptor.canonical) site).isSome = true ↔
      m.Offends denylist site := by
  rw [finding?, find?_canonical, Offends]
  cases hfind : denylist.find? (·.canonical.covers site) with
  | some d =>
      simp only [Option.map_some, Option.isSome_some, true_iff]
      exact Or.inl ⟨d, covers_of_find? hfind⟩
  | none =>
      have hnone : ¬ ∃ d ∈ denylist, d.canonical.covers site = true := by
        rintro ⟨d, hd, hcovers⟩
        exact List.find?_eq_none.mp hfind d hd hcovers
      rw [Option.map_none, or_iff_right hnone]
      cases m.isUnresolved site <;> simp

/-- A denylist with a descriptor is not empty. -/
theorem isEmpty_eq_false_of_ne_nil (hne : denylist ≠ []) : denylist.isEmpty = false := by
  rw [← Bool.not_eq_true, List.isEmpty_iff]
  exact hne

/-- Without an offence a program passes, with all its call sites gone through. -/
theorem verdict_of_no_offence (hne : denylist ≠ [])
    (h : ∀ site ∈ m.sites, ¬ m.Offends denylist site) :
    m.verdict denylist = .passed m.sites.length := by
  have hnone : m.sites.findSome? (m.finding? (denylist.map Descriptor.canonical)) = none := by
    rw [List.findSome?_eq_none_iff]
    intro site hsite
    rw [← Option.not_isSome_iff_eq_none, finding?_isSome_iff]
    exact h site hsite
  rw [verdict, isEmpty_eq_false_of_ne_nil hne, hnone]
  rfl

/-- **The first offence decides the verdict**, which is the finding at its call site. -/
theorem verdict_of_firstOffence (hne : denylist ≠ []) {i : Nat}
    (h : m.FirstOffence denylist i site) :
    m.finding? (denylist.map Descriptor.canonical) site = some (m.verdict denylist) := by
  obtain ⟨v, hv⟩ := Option.isSome_iff_exists.mp (finding?_isSome_iff.mpr h.offends)
  obtain ⟨hi, hsite⟩ := List.getElem?_eq_some_iff.mp h.at_
  have hsplit : m.sites = m.sites.take i ++ site :: m.sites.drop (i + 1) := by
    rw [← hsite, List.getElem_cons_drop, List.take_append_drop]
  have hfound :
      m.sites.findSome? (m.finding? (denylist.map Descriptor.canonical)) = some v := by
    rw [List.findSome?_eq_some_iff]
    refine ⟨m.sites.take i, site, m.sites.drop (i + 1), hsplit, hv, ?_⟩
    intro earlier hearlier
    obtain ⟨j, hj, heq⟩ := List.mem_take_iff_getElem.mp hearlier
    rw [← Option.not_isSome_iff_eq_none, finding?_isSome_iff]
    refine h.first j (by omega) earlier ?_
    rw [List.getElem?_eq_some_iff]
    exact ⟨by omega, heq⟩
  rw [hv, verdict, isEmpty_eq_false_of_ne_nil hne, hfound]
  rfl

/-- Either no call site offends, or one of them is the first that does. -/
theorem exists_firstOffence (m : Model) (denylist : List Descriptor) :
    (∀ site ∈ m.sites, ¬ m.Offends denylist site) ∨
      ∃ i site, m.FirstOffence denylist i site := by
  cases hfound : m.sites.findSome? (m.finding? (denylist.map Descriptor.canonical)) with
  | none =>
      refine Or.inl fun site hsite => ?_
      rw [← finding?_isSome_iff, Option.not_isSome_iff_eq_none]
      exact List.findSome?_eq_none_iff.mp hfound site hsite
  | some v =>
      obtain ⟨before, site, after, hsplit, hv, hbefore⟩ := List.findSome?_eq_some_iff.mp hfound
      refine Or.inr ⟨before.length, site, ?_, ?_, ?_⟩
      · rw [hsplit, List.getElem?_append_right (Nat.le_refl _), Nat.sub_self,
          List.getElem?_cons_zero]
      · rw [← finding?_isSome_iff, hv]
        rfl
      · intro j hj earlier hearlier
        rw [hsplit, List.getElem?_append_left hj] at hearlier
        rw [← finding?_isSome_iff, Option.not_isSome_iff_eq_none]
        exact hbefore earlier (List.mem_of_getElem? hearlier)

/-- Denylists with the same descriptors are offended against by the same call sites. -/
theorem offends_congr {other : List Descriptor} (h : ∀ d, d ∈ denylist ↔ d ∈ other) :
    m.Offends denylist site ↔ m.Offends other site := by
  have hcovers : (∃ d ∈ denylist, d.canonical.covers site = true) ↔
      ∃ d ∈ other, d.canonical.covers site = true :=
    exists_congr fun d => and_congr_left' (h d)
  rw [Offends, Offends, hcovers]

end Model

/-! ### Verdicts -/

/-- Two verdicts **agree** when they are of one kind and name the same call site. They may name
different descriptors. -/
inductive Verdict.Agree : Verdict → Verdict → Prop
  /-- Both let the program pass, after as many call sites. -/
  | passed (scanned : Nat) : Agree (.passed scanned) (.passed scanned)
  /-- Both find a descriptor that covers the call site. -/
  | violation (site : CallSite) (d e : Descriptor) : Agree (.violation site d) (.violation site e)
  /-- Both find nothing of what the call site names. -/
  | unresolved (site : CallSite) : Agree (.unresolved site) (.unresolved site)

namespace Model

variable {m : Model} {denylist other : List Descriptor} {site : CallSite}

/-- A call site that a descriptor covers is found as a violation of **the first** that does. -/
theorem finding?_of_covers {before after : List Descriptor} {d : Descriptor}
    (hlist : denylist = before ++ d :: after) (hd : d.canonical.covers site = true)
    (hbefore : ∀ e ∈ before, e.canonical.covers site = false) :
    m.finding? (denylist.map Descriptor.canonical) site =
      some (.violation site d.canonical) := by
  have hfind : denylist.find? (·.canonical.covers site) = some d := by
    rw [List.find?_eq_some_iff_append]
    exact ⟨hd, before, after, hlist, fun e he => by rw [hbefore e he]; rfl⟩
  rw [finding?, find?_canonical, hfind]
  rfl

/-- A call site that no descriptor covers is found, if at all, as unresolved. -/
theorem finding?_of_not_covers (hnone : ∀ d ∈ denylist, d.canonical.covers site = false) :
    m.finding? (denylist.map Descriptor.canonical) site =
      if m.isUnresolved site = true then some (.unresolved site) else none := by
  have hfind : denylist.find? (·.canonical.covers site) = none := by
    rw [List.find?_eq_none]
    intro d hd
    rw [hnone d hd]
    exact Bool.false_ne_true
  rw [finding?, find?_canonical, hfind]
  rfl

/-- Denylists with the same descriptors have findings at a call site that agree. -/
theorem finding?_agree (h : ∀ d, d ∈ denylist ↔ d ∈ other) {v w : Verdict}
    (hv : m.finding? (denylist.map Descriptor.canonical) site = some v)
    (hw : m.finding? (other.map Descriptor.canonical) site = some w) : v.Agree w := by
  rw [finding?, find?_canonical] at hv hw
  cases hfind : denylist.find? (·.canonical.covers site) with
  | some d =>
      obtain ⟨hd, hcovers⟩ := covers_of_find? hfind
      have hsome : (other.find? (·.canonical.covers site)).isSome = true := by
        rw [List.find?_isSome]
        exact ⟨d, (h d).mp hd, hcovers⟩
      obtain ⟨e, he⟩ := Option.isSome_iff_exists.mp hsome
      rw [hfind] at hv
      rw [he] at hw
      obtain rfl := Option.some.inj hv
      obtain rfl := Option.some.inj hw
      exact .violation site d.canonical e.canonical
  | none =>
      have hother : other.find? (·.canonical.covers site) = none := by
        rw [List.find?_eq_none] at hfind ⊢
        exact fun d hd => hfind d ((h d).mpr hd)
      rw [hfind, Option.map_none] at hv
      rw [hother, Option.map_none] at hw
      obtain rfl : v = w := Option.some.inj (hv.symm.trans hw)
      simp only [Option.ite_none_right_eq_some, Option.some.injEq] at hv
      obtain ⟨-, rfl⟩ := hv
      exact .unresolved site

/-- Denylists with the same descriptors, in any order and with any repeats, come to verdicts
that **agree**. -/
theorem verdict_agree (h : ∀ d, d ∈ denylist ↔ d ∈ other) :
    (m.verdict denylist).Agree (m.verdict other) := by
  cases denylist with
  | nil =>
      have hother : other = [] :=
        List.eq_nil_iff_forall_not_mem.mpr fun d hd => List.not_mem_nil ((h d).mpr hd)
      rw [hother]
      exact .passed 0
  | cons first rest =>
      have hne : first :: rest ≠ [] := List.cons_ne_nil first rest
      have hother : other ≠ [] := List.ne_nil_of_mem ((h first).mp (List.mem_cons_self ..))
      rcases m.exists_firstOffence (first :: rest) with hpass | ⟨i, site, hfirst⟩
      · have hpass' : ∀ site ∈ m.sites, ¬ m.Offends other site :=
          fun site hsite hbad => hpass site hsite ((offends_congr h).mpr hbad)
        rw [verdict_of_no_offence hne hpass, verdict_of_no_offence hother hpass']
        exact .passed _
      · have hfirst' : m.FirstOffence other i site :=
          ⟨hfirst.at_, (offends_congr h).mp hfirst.offends, fun j hj earlier hearlier hbad =>
            hfirst.first j hj earlier hearlier ((offends_congr h).mpr hbad)⟩
        exact finding?_agree h (verdict_of_firstOffence hne hfirst)
          (verdict_of_firstOffence hother hfirst')

/-- **The verdict is that on the first call site that offends.** Under a denylist that is not empty
a program without an offence passes, with all its call sites gone through. Otherwise it is rejected
for the first call site that offends: as a violation of the first descriptor that covers the site,
in canonical form, and as unresolved if none does. Denylists with the same descriptors, in any
order and with any repeats, come to verdicts of one kind for the same call site. -/
theorem verdict_at_first_offence (m : Model) (denylist : List Descriptor) :
    (denylist ≠ [] →
      ((∀ site ∈ m.sites, ¬ m.Offends denylist site) →
        m.verdict (withoutRepeats denylist) = .passed m.sites.length) ∧
      ∀ i site, m.FirstOffence denylist i site →
        (∀ before d after, denylist = before ++ d :: after → d.canonical.covers site = true →
          (∀ e ∈ before, e.canonical.covers site = false) →
          m.verdict (withoutRepeats denylist) = .violation site d.canonical) ∧
        ((∀ d ∈ denylist, d.canonical.covers site = false) →
          m.verdict (withoutRepeats denylist) = .unresolved site)) ∧
    ∀ other : List Descriptor, (∀ d, d ∈ denylist ↔ d ∈ other) →
      (m.verdict (withoutRepeats denylist)).Agree (m.verdict (withoutRepeats other)) := by
  refine ⟨fun hne => ⟨fun hpass => ?_, fun i site hfirst => ⟨?_, ?_⟩⟩, fun other hsame => ?_⟩
  · rw [verdict_withoutRepeats]
    exact verdict_of_no_offence hne hpass
  · intro before d after hlist hd hbefore
    have hfinding := verdict_of_firstOffence hne hfirst
    rw [finding?_of_covers hlist hd hbefore] at hfinding
    rw [verdict_withoutRepeats]
    exact (Option.some.inj hfinding).symm
  · intro hnone
    have hfinding := verdict_of_firstOffence hne hfirst
    have hunresolved : m.isUnresolved site = true := by
      rcases hfirst.offends with ⟨d, hd, hcovers⟩ | hunresolved
      · rw [hnone d hd] at hcovers
        exact Bool.noConfusion hcovers
      · exact hunresolved
    rw [finding?_of_not_covers hnone, if_pos hunresolved] at hfinding
    rw [verdict_withoutRepeats]
    exact (Option.some.inj hfinding).symm
  · rw [verdict_withoutRepeats, verdict_withoutRepeats]
    exact verdict_agree hsame

/-- The call of a function that opens a file, in the second line. -/
def fileOpened : CallSite :=
  ⟨.mk "std::fs::File" [], "open", .path, 2, 1⟩

/-- What a program uses that prints, opens a file and ends, in this order. -/
def printOpenExit : Model :=
  ⟨.empty, [⟨.mk "std::io" [], "stdout", .path, 1, 1⟩, fileOpened,
    ⟨.mk "std::process" [], "exit", .path, 3, 1⟩], []⟩

/-- The descriptor of what belongs to the process. -/
def processDenied : Descriptor :=
  ⟨.mk "std::process" [], none⟩

/-- The descriptor of files, by another root. -/
def filesDenied : Descriptor :=
  ⟨.mk "core::fs::File" [], none⟩

/-- The file is opened before the process ends, so it is for the file that the program is rejected,
though the process comes first in the denylist. -/
theorem verdict_of_print_open_exit :
    printOpenExit.FirstOffence [processDenied, filesDenied] 1 fileOpened ∧
      printOpenExit.verdict (withoutRepeats [processDenied, filesDenied]) =
        .violation fileOpened ⟨.mk "std::fs::File" [], none⟩ ∧
      (printOpenExit.verdict (withoutRepeats [processDenied, filesDenied])).Agree
        (printOpenExit.verdict (withoutRepeats [filesDenied, processDenied, filesDenied])) := by
  have hfirst : printOpenExit.FirstOffence [processDenied, filesDenied] 1 fileOpened := by
    refine ⟨rfl, finding?_isSome_iff.mp (by decide), ?_⟩
    intro j hj earlier hearlier
    obtain rfl : j = 0 := by omega
    obtain rfl := Option.some.inj hearlier
    rw [← finding?_isSome_iff]
    decide
  obtain ⟨hcases, hagree⟩ :=
    verdict_at_first_offence printOpenExit [processDenied, filesDenied]
  obtain ⟨-, hoffence⟩ := hcases (by decide)
  obtain ⟨hviolation, -⟩ := hoffence 1 fileOpened hfirst
  refine ⟨hfirst, ?_, hagree _ fun d => ?_⟩
  · exact hviolation [processDenied] filesDenied [] rfl (by decide) (by decide)
  · simp only [List.mem_cons, List.not_mem_nil, or_false]
    exact ⟨Or.inr, fun h => h.elim Or.inr id⟩

end Model

end CapabilityGate
