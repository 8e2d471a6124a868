import CapabilityGate.Proofs.Text.LineBytes

/-!
# Texts read back from their bytes

The bytes of a character are read as that character, and so the bytes of a text as the text. Bytes
that stop inside a character are read as one invalid part. Bytes that start inside one are read as
an invalid part for each byte of it, since the bytes that go on with a character start none. Bytes
below `0x80` are characters of their own, whatever stands around them.

## Main definitions

* `Text.Utf8.IsTrail`: a byte that goes on with a character.
* `Text.Utf8.Awaits`: the bytes that complete a character.

## Main results

* `Text.bytesOf_eq`: the bytes of a text are those of its characters.
* `Text.Utf8.scan_encodeChar`, `Text.Utf8.scan_encode`: characters are read from their bytes.
* `Text.Utf8.scan_plain`: a byte below `0x80` is read apart from what stands around it.
* `Text.Utf8.lineFeed_mem_of_scan`: only a line feed is read as one.
* `Text.Utf8.encodeChar_cut`: what is read of a character that is cut in two.
-/

namespace CapabilityGate.Text

/-! ### The bytes of a text -/

/-- An array of bytes is made a list **from its front**. -/
theorem toList_loop_eq (bs : ByteArray) (i : Nat) (done : List UInt8) :
    ByteArray.toList.loop bs i done = done.reverse ++ bs.data.toList.drop i := by
  fun_induction ByteArray.toList.loop bs i done with
  | case1 i done hlt ih =>
      have hlength : i < bs.data.toList.length := hlt
      have hget : bs.get! i = bs.data.toList[i] := by
        have harray : bs.get! i = bs.data[i]! := by
          cases bs
          rfl
        rw [harray, getElem!_pos bs.data i hlt, Array.getElem_toList]
      rw [ih, List.drop_eq_getElem_cons hlength, hget]
      simp
  | case2 i done hle =>
      rw [List.drop_eq_nil_of_le (Nat.le_of_not_lt hle), List.append_nil]

/-- The bytes of a text are **those of its characters**. -/
theorem bytesOf_eq (s : String) : bytesOf s = s.toList.flatMap String.utf8EncodeChar := by
  have hbytes : s.toUTF8 = (s.toList.flatMap String.utf8EncodeChar).toByteArray := by
    rw [String.toUTF8_eq_toByteArray, ← String.utf8Encode_toList, List.utf8Encode]
  rw [bytesOf, ByteArray.toList, toList_loop_eq, hbytes, List.data_toByteArray]
  rfl

theorem bytesOf_empty : bytesOf "" = [] := by
  rw [bytesOf_eq]
  rfl

/-- The bytes of two texts stand **one behind the other**. -/
theorem bytesOf_append (s t : String) : bytesOf (s ++ t) = bytesOf s ++ bytesOf t := by
  rw [bytesOf_eq, bytesOf_eq, bytesOf_eq, String.toList_append, List.flatMap_append]

theorem length_bytesOf (s : String) : (bytesOf s).length = s.utf8ByteSize := by
  rw [bytesOf, ByteArray.toList, toList_loop_eq]
  simp

namespace Utf8

/-! ### Completing a character -/

/-- A byte **goes on** with a character. -/
def IsTrail (b : UInt8) : Prop := 0x80 ≤ b ∧ b ≤ 0xBF

/-- In a state inside a character, some bytes **complete it**. -/
inductive Awaits : State → List UInt8 → Char → Prop
  /-- One byte is missing. -/
  | last {least most : UInt8} {value : Nat} {b : UInt8} {c : Char} (hleast : least ≤ b)
      (hmost : b ≤ most) (htrail : IsTrail b) (hvalue : c.toNat = value * 64 + (b.toNat - 0x80)) :
      Awaits (.inside 1 least most value) [b] c
  /-- More bytes are missing. -/
  | more {left : Nat} {least most : UInt8} {value : Nat} {b : UInt8} {bs : List UInt8} {c : Char}
      (hleast : least ≤ b) (hmost : b ≤ most) (htrail : IsTrail b)
      (h : Awaits (.inside (left + 1) 0x80 0xBF (value * 64 + (b.toNat - 0x80))) bs c) :
      Awaits (.inside (left + 2) least most value) (b :: bs) c

variable {st : State} {bs rest : List UInt8} {c : Char} {b : UInt8}

/-- The bytes that complete a character **go on** with it. -/
theorem Awaits.isTrail (h : Awaits st bs c) : ∀ b ∈ bs, IsTrail b := by
  induction h with
  | last hleast hmost htrail hvalue =>
      intro b hb
      rwa [List.mem_singleton.mp hb]
  | more hleast hmost htrail h ih =>
      intro b hb
      rcases List.mem_cons.mp hb with rfl | hb
      · exact htrail
      · exact ih b hb

/-- A byte within the bounds of a state **goes on** with its character. -/
theorem next_inside {left : Nat} {least most : UInt8} (hleast : least ≤ b) (hmost : b ≤ most)
    (value : Nat) :
    next [] (.inside left least most value) b =
      if left = 1 then ([some (Char.ofNat (value * 64 + (b.toNat - 0x80)))], .outside)
      else ([], .inside (left - 1) 0x80 0xBF (value * 64 + (b.toNat - 0x80))) := by
  rw [next, decide_eq_true hleast, decide_eq_true hmost, Bool.and_self, if_pos rfl]

/-- The character is read **when it is complete**. -/
theorem Awaits.scanFrom (h : Awaits st bs c) (rest : List UInt8) :
    scanFrom [] st (bs ++ rest) = some c :: scan rest := by
  induction h with
  | last hleast hmost htrail hvalue =>
      rw [List.singleton_append, scanFrom_cons, next_inside hleast hmost, if_pos rfl, ← hvalue,
        Char.ofNat_toNat, scanFrom_eq]
      rfl
  | more hleast hmost htrail h ih =>
      rw [List.cons_append, scanFrom_cons, next_inside hleast hmost, if_neg (by omega)]
      exact ih

/-- A character that is never complete is read as **an invalid part**. -/
theorem Awaits.scanFrom_front {front back : List UInt8} (h : Awaits st (front ++ back) c)
    (hback : back ≠ []) : Utf8.scanFrom [] st front = [none] := by
  induction front generalizing st with
  | nil => cases h <;> rfl
  | cons b front ih =>
      rw [List.cons_append] at h
      generalize hwhole : front ++ back = whole at h
      cases h with
      | last hleast hmost htrail hvalue =>
          exact absurd (List.append_eq_nil_iff.mp hwhole).2 hback
      | more hleast hmost htrail h =>
          rw [scanFrom_cons, next_inside hleast hmost, if_neg (by omega)]
          exact ih (hwhole ▸ h)

/-- A byte that goes on with a character **starts none**. -/
theorem scan_trail (h : IsTrail b) (rest : List UInt8) : scan (b :: rest) = none :: scan rest := by
  have hplain : ¬ b < 0x80 := UInt8.not_lt.mpr h.1
  have hlead : lead? b = none := by
    rw [lead?, if_pos (UInt8.lt_of_le_of_lt h.2 (by decide))]
  rw [scan, scanFrom_cons, next, begin, if_neg hplain, hlead, scanFrom_eq]
  rfl

/-! ### The bytes of a character -/

/-- The byte that goes on with a character by **six more bits** of it. -/
def trail (m : Nat) : UInt8 :=
  UInt8.ofNat (m % 0x40 + 0x80)

theorem toNat_trail (m : Nat) : (trail m).toNat = m % 0x40 + 0x80 := by
  rw [trail, UInt8.toNat_ofNat']
  omega

theorem isTrail_trail (m : Nat) : IsTrail (trail m) := by
  rw [IsTrail, UInt8.le_iff_toNat_le, UInt8.le_iff_toNat_le, toNat_trail]
  exact ⟨Nat.le_add_left _ _, show m % 0x40 + 0x80 ≤ 0xBF by omega⟩

/-- The first byte of a character of **two bytes**. -/
theorem lead?_two : ∀ n < 32, 2 ≤ n →
    lead? (UInt8.ofNat (n + 0xC0)) = some (.inside 1 0x80 0xBF n) := by
  decide

/-- The first byte of a character of **three bytes**. -/
theorem lead?_three : ∀ n < 16, lead? (UInt8.ofNat (n + 0xE0)) =
    some (.inside 2 (if n = 0 then 0xA0 else 0x80) (if n = 13 then 0x9F else 0xBF) n) := by
  decide

/-- The first byte of a character of **four bytes**. -/
theorem lead?_four : ∀ n < 5, lead? (UInt8.ofNat (n + 0xF0)) =
    some (.inside 3 (if n = 0 then 0x90 else 0x80) (if n = 4 then 0x8F else 0xBF) n) := by
  decide

/-- A bound on a byte is one on **the six bits** that it adds. -/
theorem le_trail_ite {p : Prop} [Decidable p] {m : Nat} (bound : UInt8)
    (h : p → bound.toNat ≤ m % 0x40 + 0x80) : (if p then bound else 0x80) ≤ trail m := by
  split
  next hp =>
    rw [UInt8.le_iff_toNat_le, toNat_trail]
    exact h hp
  next => exact (isTrail_trail m).1

/-- A bound on a byte is one on **the six bits** that it adds. -/
theorem trail_ite_le {p : Prop} [Decidable p] {m : Nat} (bound : UInt8)
    (h : p → m % 0x40 + 0x80 ≤ bound.toNat) : trail m ≤ (if p then bound else 0xBF) := by
  split
  next hp =>
    rw [UInt8.le_iff_toNat_le, toNat_trail]
    exact h hp
  next => exact (isTrail_trail m).2

/-- The bytes of a character of **two bytes**. -/
theorem encodeChar_two (hleast : 0x7F < c.toNat) (hmost : c.toNat ≤ 0x7FF) :
    String.utf8EncodeChar c = [UInt8.ofNat (c.toNat / 64 % 0x20 + 0xC0), trail c.toNat] :=
  (if_neg (Nat.not_le.mpr hleast)).trans (if_pos hmost)

/-- The bytes of a character of **three bytes**. -/
theorem encodeChar_three (hleast : 0x7FF < c.toNat) (hmost : c.toNat ≤ 0xFFFF) :
    String.utf8EncodeChar c =
      [UInt8.ofNat (c.toNat / 4096 % 0x10 + 0xE0), trail (c.toNat / 64), trail c.toNat] :=
  (if_neg (Nat.not_le.mpr (Nat.lt_trans (by decide) hleast))).trans
    ((if_neg (Nat.not_le.mpr hleast)).trans (if_pos hmost))

/-- The bytes of a character of **four bytes**. -/
theorem encodeChar_four (hleast : 0xFFFF < c.toNat) :
    String.utf8EncodeChar c =
      [UInt8.ofNat (c.toNat / 262144 % 0x08 + 0xF0), trail (c.toNat / 4096), trail (c.toNat / 64),
        trail c.toNat] :=
  (if_neg (Nat.not_le.mpr (Nat.lt_trans (by decide) hleast))).trans
    ((if_neg (Nat.not_le.mpr (Nat.lt_trans (by decide) hleast))).trans
      (if_neg (Nat.not_le.mpr hleast)))

/-- The first byte of several is **not below `0x80`**. -/
theorem not_plain_ofNat {n : Nat} (hleast : 0x80 ≤ n) (hmost : n < 0x100) :
    ¬ UInt8.ofNat n < 0x80 := by
  rw [UInt8.not_lt, UInt8.le_iff_toNat_le, UInt8.toNat_ofNat', Nat.mod_eq_of_lt hmost]
  exact hleast

/-- The last byte of several **completes** a character. -/
theorem awaits_last {value : Nat} (hvalue : c.toNat = value * 64 + c.toNat % 0x40) :
    Awaits (.inside 1 0x80 0xBF value) [trail c.toNat] c := by
  refine .last (isTrail_trail _).1 (isTrail_trail _).2 (isTrail_trail _) ?_
  rwa [toNat_trail, Nat.add_sub_cancel]

/-- The bytes of a character are **one byte below `0x80`**, or a first byte of several and those
that complete the character. -/
theorem encodeChar_cases (c : Char) :
    (∃ b, String.utf8EncodeChar c = [b] ∧ b < 0x80 ∧ Char.ofNat b.toNat = c) ∨
      ∃ b bs st, String.utf8EncodeChar c = b :: bs ∧ ¬ b < 0x80 ∧ lead? b = some st ∧
        Awaits st bs c := by
  have hvalid : c.toNat < 0xD800 ∨ 0xDFFF < c.toNat ∧ c.toNat < 0x110000 := c.valid
  by_cases hone : c.toNat ≤ 0x7F
  · left
    refine ⟨UInt8.ofNat c.toNat, if_pos hone, ?_, ?_⟩
    · rw [UInt8.lt_iff_toNat_lt, UInt8.toNat_ofNat']
      exact show c.toNat % 2 ^ 8 < 0x80 by omega
    · rw [UInt8.toNat_ofNat', Nat.mod_eq_of_lt (by omega), Char.ofNat_toNat]
  right
  by_cases htwo : c.toNat ≤ 0x7FF
  · refine ⟨_, _, _, encodeChar_two (Nat.not_le.mp hone) htwo,
      not_plain_ofNat (by omega) (by omega), lead?_two _ (by omega) (by omega), ?_⟩
    exact awaits_last (by omega)
  by_cases hthree : c.toNat ≤ 0xFFFF
  · refine ⟨_, _, _, encodeChar_three (Nat.not_le.mp htwo) hthree,
      not_plain_ofNat (by omega) (by omega), lead?_three _ (by omega), ?_⟩
    refine .more (le_trail_ite _ fun hn => ?_) (trail_ite_le _ fun hn => ?_) (isTrail_trail _) ?_
    · exact show 0xA0 ≤ _ by omega
    · exact show _ ≤ 0x9F by omega
    · rw [toNat_trail, Nat.add_sub_cancel]
      exact awaits_last (by omega)
  · refine ⟨_, _, _, encodeChar_four (Nat.not_le.mp hthree),
      not_plain_ofNat (by omega) (by omega), lead?_four _ (by omega), ?_⟩
    refine .more (le_trail_ite _ fun hn => ?_) (trail_ite_le _ fun hn => ?_) (isTrail_trail _) ?_
    · exact show 0x90 ≤ _ by omega
    · exact show _ ≤ 0x8F by omega
    · refine .more (isTrail_trail _).1 (isTrail_trail _).2 (isTrail_trail _) ?_
      rw [toNat_trail, toNat_trail, Nat.add_sub_cancel, Nat.add_sub_cancel]
      exact awaits_last (by omega)

/-! ### Reading characters -/

/-- A byte below `0x80` is read as **a character of its own**. -/
theorem begin_plain (hb : b < 0x80) (done : List (Option Char)) :
    begin done b = (some (Char.ofNat b.toNat) :: done, .outside) := by
  rw [begin, if_pos hb]

/-- A character is **read from its bytes**. -/
theorem scan_encodeChar (c : Char) (rest : List UInt8) :
    scan (String.utf8EncodeChar c ++ rest) = some c :: scan rest := by
  rcases encodeChar_cases c with ⟨b, hbytes, hplain, hvalue⟩ | ⟨b, bs, st, hbytes, hlead, hst, h⟩
  · rw [hbytes, List.singleton_append, scan, scanFrom_cons, next, begin_plain hplain, hvalue,
      scanFrom_eq]
    rfl
  · rw [hbytes, List.cons_append, scan, scanFrom_cons, next, begin, if_neg hlead, hst]
    exact h.scanFrom rest

/-- Characters are **read from their bytes**, one after another. -/
theorem scan_encode (cs : List Char) (rest : List UInt8) :
    scan (cs.flatMap String.utf8EncodeChar ++ rest) = cs.map some ++ scan rest := by
  induction cs with
  | nil => rfl
  | cons c cs ih =>
      rw [List.flatMap_cons, List.append_assoc, scan_encodeChar, ih, List.map_cons, List.cons_append]

/-- Of a character that is **cut in two**, the front is read as one invalid part, and the back as
bytes that start no character. -/
theorem encodeChar_cut {front back : List UInt8} (h : String.utf8EncodeChar c = front ++ back)
    (hfront : front ≠ []) (hback : back ≠ []) :
    scan front = [none] ∧ ∀ b ∈ back, IsTrail b := by
  obtain ⟨first, front, rfl⟩ := List.exists_cons_of_ne_nil hfront
  rcases encodeChar_cases c with ⟨b, hbytes, -, -⟩ | ⟨b, bs, st, hbytes, hlead, hst, hawaits⟩
  · rw [hbytes, List.cons_append] at h
    exact absurd (List.append_eq_nil_iff.mp (List.cons.inj h).2.symm).2 hback
  · rw [hbytes, List.cons_append] at h
    obtain ⟨rfl, rfl⟩ := List.cons.inj h
    refine ⟨?_, fun b hb => hawaits.isTrail b (List.mem_append_right _ hb)⟩
    rw [scan, scanFrom_cons, next, begin, if_neg hlead, hst]
    exact hawaits.scanFrom_front hback

/-- A byte below `0x80` **ends** whatever character it stands in. -/
theorem next_plain (hst : st.Continues) (hb : b < 0x80) :
    next [] st b = (some (Char.ofNat b.toNat) :: scanFrom [] st [], .outside) := by
  cases st with
  | outside => exact begin_plain hb []
  | inside left least most value =>
      have hleast : ¬ least ≤ b := by
        intro hle
        exact absurd (UInt8.le_trans hst hle) (UInt8.not_le.mpr hb)
      rw [next, decide_eq_false hleast, Bool.false_and, if_neg Bool.false_ne_true, begin_plain hb]
      rfl

/-- A byte below `0x80` is read **apart from what stands around it**. -/
theorem scanFrom_plain (hst : st.Continues) (hb : b < 0x80) (front rest : List UInt8) :
    scanFrom [] st (front ++ b :: rest) =
      scanFrom [] st front ++ some (Char.ofNat b.toNat) :: scan rest := by
  induction front generalizing st with
  | nil =>
      have hends : (scanFrom [] st []).reverse = scanFrom [] st [] := by cases st <;> rfl
      rw [List.nil_append, scanFrom_cons, next_plain hst hb, scanFrom_eq, List.reverse_cons, hends,
        List.append_assoc]
      rfl
  | cons x front ih =>
      rw [List.cons_append, scanFrom_cons, scanFrom_eq, ih (continues_next [] st x), scanFrom_cons,
        scanFrom_eq (next [] st x).1, List.append_assoc]

/-- A byte below `0x80` is read **apart from what stands around it**. -/
theorem scan_plain (hb : b < 0x80) (front rest : List UInt8) :
    scan (front ++ b :: rest) = scan front ++ some (Char.ofNat b.toNat) :: scan rest :=
  scanFrom_plain (show State.outside.Continues from trivial) hb front rest

/-! ### Line feeds -/

/-- The character that a state is inside will be **none below `0x80`**. -/
def State.Large : State → Prop
  | .outside => True
  | .inside left least _ value =>
    1 ≤ left ∧ 0x80 ≤ least ∧ (if left = 1 then 0x80 else 2) ≤ value * 64 + (least.toNat - 0x80)

/-- A first byte of several starts **no character below `0x80`**. -/
theorem State.large_of_lead? (h : lead? b = some st) : st.Large := by
  rw [lead?] at h
  simp only [UInt8.lt_iff_toNat_lt, UInt8.le_iff_toNat_le, ← UInt8.toNat_inj,
    UInt8.reduceToNat] at h
  repeat' split at h
  all_goals cases h
  all_goals
    refine ⟨by decide, by decide, ?_⟩
    simp only [UInt8.reduceToNat]
    split <;> omega

/-- Only `0x0A` is the number of **a line break**. -/
theorem eq_of_ofNat_eq_newline {n : Nat} (h : Char.ofNat n = '\n') : n = 0x0A := by
  have hvalue : (Char.ofNat n).toNat = 0x0A := by
    rw [h]
    rfl
  by_cases hvalid : n.isValidChar
  · rwa [Char.ofNat, dif_pos hvalid] at hvalue
  · rw [Char.ofNat, dif_neg hvalid] at hvalue
    exact absurd hvalue (by decide)

/-- Outside a character only a line feed is read as **a line break**. -/
theorem begin_newline (done : List (Option Char)) :
    (begin done b).2.Large ∧ (some '\n' ∈ (begin done b).1 → b = lineFeed ∨ some '\n' ∈ done) := by
  rw [begin]
  split
  · refine ⟨trivial, fun hmem => ?_⟩
    rcases List.mem_cons.mp hmem with hnew | hdone
    · left
      exact UInt8.toNat_inj.mp (eq_of_ofNat_eq_newline (Option.some.inj hnew).symm)
    · exact Or.inr hdone
  · split
    next st hlead => exact ⟨State.large_of_lead? hlead, Or.inr⟩
    next =>
      refine ⟨trivial, fun hmem => ?_⟩
      rcases List.mem_cons.mp hmem with hnew | hdone
      · cases hnew
      · exact Or.inr hdone

/-- Inside a character or not, only a line feed is read as **a line break**. -/
theorem next_newline (hst : st.Large) :
    (next [] st b).2.Large ∧ (some '\n' ∈ (next [] st b).1 → b = lineFeed) := by
  cases st with
  | outside =>
      obtain ⟨hlarge, hmem⟩ := begin_newline (b := b) []
      exact ⟨hlarge, fun hnew => (hmem hnew).resolve_right List.not_mem_nil⟩
  | inside left least most value =>
      obtain ⟨hleft, htrail, hlarge⟩ := hst
      rw [next]
      split
      next hbounds =>
        have hleast := of_decide_eq_true (Bool.and_eq_true_iff.mp hbounds).1
        rw [UInt8.le_iff_toNat_le] at hleast
        -- The value with the byte is no less than with the least byte that may stand here.
        dsimp only
        split
        next hone =>
          refine ⟨trivial, fun hmem => ?_⟩
          have hvalue := eq_of_ofNat_eq_newline (Option.some.inj (List.mem_singleton.mp hmem)).symm
          rw [if_pos hone] at hlarge
          omega
        next hmore =>
          refine ⟨⟨by omega, by decide, ?_⟩, fun hmem => absurd hmem List.not_mem_nil⟩
          rw [if_neg hmore] at hlarge
          split <;> omega
      next =>
        obtain ⟨hlarge, hmem⟩ := begin_newline (b := b) [none]
        refine ⟨hlarge, fun hnew => (hmem hnew).resolve_right fun hnone => ?_⟩
        cases List.mem_singleton.mp hnone

/-- Only a line feed is read as **a line break**, whatever is read before. -/
theorem lineFeed_mem_of_scanFrom {bs : List UInt8} (hst : st.Large)
    (h : some '\n' ∈ scanFrom [] st bs) : lineFeed ∈ bs := by
  induction bs generalizing st with
  | nil => cases st <;> exact absurd h (by simp [scanFrom])
  | cons b bs ih =>
      obtain ⟨hlarge, hmem⟩ := next_newline (b := b) hst
      rw [scanFrom_cons, scanFrom_eq] at h
      rcases List.mem_append.mp h with hnew | hbehind
      · rw [hmem (List.mem_reverse.mp hnew)]
        exact List.mem_cons_self
      · exact List.mem_cons_of_mem b (ih hlarge hbehind)

end Utf8

/-! ### Texts -/

/-- There is a line break in what is read **only if there is a line feed**. -/
theorem lineFeed_mem_of_decodeLossy {bs : List UInt8} (h : '\n' ∈ (decodeLossy bs).toList) :
    lineFeed ∈ bs := by
  rw [decodeLossy, String.toList_ofList] at h
  obtain ⟨c, hc, hvalue⟩ := List.mem_map.mp h
  cases c with
  | none => exact absurd hvalue (by decide)
  | some c =>
      obtain rfl : c = '\n' := hvalue
      exact Utf8.lineFeed_mem_of_scanFrom (show Utf8.State.outside.Large from trivial) hc

/-- The characters that are read are **replacement characters** where there is none. -/
theorem replacement_mem_decodeLossy {bs : List UInt8} :
    '\uFFFD' ∈ (decodeLossy bs).toList ↔
      none ∈ Utf8.scan bs ∨ some '\uFFFD' ∈ Utf8.scan bs := by
  rw [decodeLossy, String.toList_ofList, List.mem_map]
  constructor
  · rintro ⟨c, hc, hvalue⟩
    cases c with
    | none => exact Or.inl hc
    | some c =>
        obtain rfl : c = '\uFFFD' := hvalue
        exact Or.inr hc
  · rintro (hnone | hsome)
    · exact ⟨none, hnone, rfl⟩
    · exact ⟨some '\uFFFD', hsome, rfl⟩

/-- A byte below `0x80` at the end is read as **one more character**. -/
theorem decodeLossy_concat {b : UInt8} (hb : b < 0x80) (bs : List UInt8) :
    decodeLossy (bs ++ [b]) = decodeLossy bs ++ String.singleton (Char.ofNat b.toNat) := by
  rw [decodeLossy, decodeLossy, Utf8.scan_plain hb, List.map_append, String.ofList_append]
  rfl

/-- A text is **read back** from its bytes. -/
theorem decodeLossy_bytesOf (s : String) : decodeLossy (bytesOf s) = s := by
  have hscan := Utf8.scan_encode s.toList []
  rw [List.append_nil] at hscan
  rw [decodeLossy, bytesOf_eq, hscan, Utf8.scan, Utf8.scanFrom, List.reverse_nil, List.append_nil,
    List.map_map]
  exact (congrArg String.ofList (List.map_id s.toList)).trans String.ofList_toList

end CapabilityGate.Text
