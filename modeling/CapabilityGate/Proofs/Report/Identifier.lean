import CapabilityGate.Report.RunReport

/-!
# Identifiers of runs

The text of an identifier has its digits in groups with hyphens between them, and nothing else. So
it can be read back, and different identifiers have different texts.

## Main definitions

* `RunId.Proper`: an identifier has as many digits as it should, all in lower case.
* `RunId.digitsIn`: how many digits there are in groups.

## Main results

* `RunId.parse?_text`: the text of an identifier is read back.
* `RunId.Proper.text_inj`: identifiers with one text are the same.
-/

namespace CapabilityGate.RunId

/-- An identifier is **proper** if it is a number of 128 bits: it has 32 digits of base sixteen, in
lower case. -/
structure Proper (i : RunId) : Prop where
  /-- It has 32 digits. -/
  length : i.digits.length = 32
  /-- They are digits in lower case. -/
  lower : ∀ c ∈ i.digits, digit? c = some c

instance (i : RunId) : Decidable i.Proper :=
  decidable_of_iff (i.digits.length = 32 ∧ i.digits.all (fun c => digit? c == some c) = true)
    ⟨fun ⟨hlength, hlower⟩ => ⟨hlength, by simpa using hlower⟩,
      fun ⟨hlength, hlower⟩ => ⟨hlength, by simpa using hlower⟩⟩

/-- How many digits there are in groups of the given lengths. -/
def digitsIn : List Nat → Nat
  | [] => 0
  | n :: rest => n + digitsIn rest

/-- Digits that are cut into groups are **put together again**. -/
theorem ungrouped?_grouped {ns : List Nat} {ds : List Char} (h : ds.length = digitsIn ns) :
    ungrouped? ns (grouped ns ds) = some ds := by
  fun_induction grouped ns ds with
  | case1 ds => rw [List.length_eq_zero_iff.mp h, ungrouped?]
  | case2 n ds => rw [ungrouped?, if_pos (by simpa [digitsIn] using h)]
  | case3 n rest ds hrest ih =>
      rw [digitsIn] at h
      have hfront : (ds.take n).length = n := List.length_take_of_le (by omega)
      have hback : (ds.drop n).length = digitsIn rest := by
        rw [List.length_drop, h, Nat.add_sub_cancel_left]
      rw [ungrouped?, List.drop_left' hfront]
      · simp only [ih hback, List.take_left' hfront, Option.map_some, List.take_append_drop]
      · exact hrest

/-- A group more takes **one hyphen more**. -/
theorem length_grouped {ns : List Nat} {ds : List Char} (h : ds.length = digitsIn ns) :
    (grouped ns ds).length = digitsIn ns + (ns.length - 1) := by
  fun_induction grouped ns ds with
  | case1 ds => rfl
  | case2 n ds => exact h
  | case3 n rest ds hrest ih =>
      rw [digitsIn] at h
      have hback : (ds.drop n).length = digitsIn rest := by
        rw [List.length_drop, h, Nat.add_sub_cancel_left]
      have hmore : 0 < rest.length := List.length_pos_iff.mpr hrest
      rw [List.length_append, List.length_cons, ih hback, List.length_take_of_le (by omega),
        digitsIn, List.length_cons]
      omega

namespace Proper

variable {i j : RunId}

theorem length_eq_digitsIn (h : i.Proper) : i.digits.length = digitsIn groups :=
  h.length

/-- The text of an identifier has **36 characters**. -/
theorem length_text (h : i.Proper) : i.text.toList.length = 36 := by
  rw [text, String.toList_ofList, length_grouped h.length_eq_digitsIn]
  rfl

end Proper

/-- The text of an identifier is **read back**. -/
theorem parse?_text {i : RunId} (h : i.Proper) : parse? i.text = some i := by
  have hspelled : spelled? i.text.toList = some i.digits := by
    rw [spelled?, h.length_text, text, String.toList_ofList]
    exact ungrouped?_grouped h.length_eq_digitsIn
  have hdigits : ∀ ds : List Char, (∀ c ∈ ds, digit? c = some c) → ds.mapM digit? = some ds := by
    intro ds hlower
    induction ds with
    | nil => rfl
    | cons c ds ih =>
        rw [List.mapM_cons, hlower c List.mem_cons_self,
          ih fun d hd => hlower d (List.mem_cons_of_mem c hd)]
        rfl
  rw [parse?, hspelled]
  simp only [Option.bind_eq_bind, Option.bind_some, hdigits i.digits h.lower]
  rfl

/-- Identifiers with **one text** are the same. -/
theorem Proper.text_inj {i j : RunId} (hi : i.Proper) (hj : j.Proper) (h : i.text = j.text) :
    i = j := by
  have hread := parse?_text hi
  rw [h, parse?_text hj] at hread
  exact (Option.some.inj hread).symm

/-- There is a **hyphen** in the text of an identifier. -/
theorem hyphen_mem_text (i : RunId) : '-' ∈ i.text.toList := by
  rw [text, String.toList_ofList, groups, grouped]
  · exact List.mem_append_right _ List.mem_cons_self
  · simp

/-- A digit is **no slash**. -/
theorem ne_slash_of_digit {c : Char} (h : digit? c = some c) : c ≠ '/' := by
  rintro rfl
  exact absurd h (by decide)

/-- There is **no slash** in the text of an identifier. -/
theorem Proper.no_slash {i : RunId} (h : i.Proper) : '/' ∉ i.text.toList := by
  have hgrouped : ∀ (ns : List Nat) (ds : List Char), (∀ c ∈ ds, c ≠ '/') →
      '/' ∉ grouped ns ds := by
    intro ns ds hds hmem
    fun_induction grouped ns ds with
    | case1 ds => exact List.not_mem_nil hmem
    | case2 n ds => exact hds _ hmem rfl
    | case3 n rest ds hrest ih =>
        rcases List.mem_append.mp hmem with hfront | hback
        · exact hds _ (List.mem_of_mem_take hfront) rfl
        · rcases List.mem_cons.mp hback with hhyphen | hback
          · exact absurd hhyphen (by decide)
          · exact ih (fun c hc => hds c (List.mem_of_mem_drop hc)) hback
  rw [text, String.toList_ofList]
  exact hgrouped groups i.digits fun c hc => ne_slash_of_digit (h.lower c hc)

end CapabilityGate.RunId
