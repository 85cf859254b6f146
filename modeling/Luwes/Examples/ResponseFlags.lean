import Luwes.Lib.Lines
import Luwes.Shared.Strings
import Mathlib.Data.Nat.Bitwise

/-!
# Response flags (`accesslogger.go` of request-ui and request-logger)

The host reports the response flags of a stream as a mask of 64 bits, and the access loggers write it as
a list of names, with hexadecimal numbers for the bits that have none.  The text tells the whole mask
(`responseFlags_injective`), and looking for an error flag in it, as `containsErrorFlag` does by looking
for a substring, is the same as looking at six bits (`containsErrorFlag_responseFlags`).
-/

namespace Luwes

/-! ## The text -/

/-- `names`. -/
def responseFlagNames : List GoString :=
  ["LH", "UH", "UT", "LR", "UR", "UF", "UC", "UO", "NR", "DI", "FI", "RL", "UAEX", "RLSE", "DC", "URX",
    "SI", "IH", "DPE", "UMSDR", "RFCF", "NFCF", "DT", "UPE", "NC", "OM"].map ascii

/-- `fmt.Sprintf("0x%x", n)`. -/
def sprintfHex (n : UInt64) : GoString := ascii "0x" ++ (Nat.toDigits 16 n.toNat).map fun c => UInt8.ofNat c.toNat

/-- `mask&(1<<uint(i)) != 0`. -/
def hasFlag (mask : UInt64) (i : ℕ) : Bool := mask &&& (1 <<< UInt64.ofNat i) != 0

/-- The two loops of `responseFlags`. -/
def flagList (mask : UInt64) : List GoString :=
  (responseFlagNames.zipIdx.filter fun x => hasFlag mask x.2).map (·.1) ++
  ((List.range' 26 38).filter fun i => hasFlag mask i).map fun i => sprintfHex (1 <<< UInt64.ofNat i)

/-- `responseFlags`. -/
def responseFlags (mask : UInt64) : GoString :=
  if mask = 0 then [] else (ascii ",").intercalate (flagList mask)

/-- The flags that `containsErrorFlag` looks for. -/
def errorFlagNames : List GoString := ["UF", "UH", "UC", "UT", "UO", "NR"].map ascii

/-- `containsErrorFlag`. -/
def containsErrorFlag (flags : GoString) : Bool := errorFlagNames.any fun f => contains flags f

example : responseFlags 0x4000022 = ascii "UH,UF,0x4000000" := by decide

/-! ## The mask -/

/-- The names of all 64 bits. -/
def allFlags : List GoString :=
  responseFlagNames ++ (List.range' 26 38).map fun i => sprintfHex (1 <<< UInt64.ofNat i)

lemma nodup_allFlags : allFlags.Nodup := by decide +kernel

lemma comma_not_mem_allFlags : ∀ x ∈ allFlags, 44 ∉ x := by decide

lemma nil_not_mem_allFlags : [] ∉ allFlags := by decide

lemma hasFlag_eq (mask : UInt64) {i : ℕ} (hi : i < 64) : hasFlag mask i = mask.toNat.testBit i := by
  have hpow : ((1 : UInt64) <<< UInt64.ofNat i).toNat = 2 ^ i := by
    have hlt : i < 2 ^ 64 := by omega
    rw [UInt64.toNat_shiftLeft, UInt64.toNat_ofNat_of_lt' hlt, Nat.mod_eq_of_lt hi, UInt64.toNat_one,
      Nat.one_shiftLeft, Nat.mod_eq_of_lt (Nat.pow_lt_pow_right (by decide) hi)]
  rw [hasFlag, Bool.eq_iff_iff, bne_iff_ne, ne_eq, ← UInt64.toNat_inj, UInt64.toNat_and, hpow,
    Nat.and_two_pow]
  cases mask.toNat.testBit i <;> simp

/-- The names in the text are those of the bits that are set. -/
lemma mem_flagList {mask : UInt64} {x : GoString} :
    x ∈ flagList mask ↔ ∃ i, allFlags[i]? = some x ∧ hasFlag mask i := by
  have hlen : responseFlagNames.length = 26 := rfl
  rw [flagList, List.mem_append]
  constructor
  · rintro (h | h)
    · obtain ⟨⟨x, i⟩, hmem, rfl⟩ := List.mem_map.mp h
      obtain ⟨hmem, hflag⟩ := List.mem_filter.mp hmem
      have hget := List.mem_zipIdx_iff_getElem?.mp hmem
      refine ⟨i, ?_, hflag⟩
      rw [allFlags, List.getElem?_append_left (List.getElem?_eq_some_iff.mp hget).1, hget]
    · obtain ⟨i, hmem, rfl⟩ := List.mem_map.mp h
      obtain ⟨hmem, hflag⟩ := List.mem_filter.mp hmem
      obtain ⟨h26, h64⟩ := List.mem_range'_1.mp hmem
      refine ⟨i, ?_, hflag⟩
      rw [allFlags, List.getElem?_append_right (by omega), List.getElem?_map,
        List.getElem?_range' (by omega), hlen]
      simp [h26]
  · rintro ⟨i, hget, hflag⟩
    by_cases hi : i < 26
    · left
      rw [allFlags, List.getElem?_append_left (by omega)] at hget
      exact List.mem_map.mpr ⟨(x, i), List.mem_filter.mpr ⟨List.mem_zipIdx_iff_getElem?.mpr hget, hflag⟩, rfl⟩
    · right
      rw [allFlags, List.getElem?_append_right (by omega), List.getElem?_map] at hget
      obtain ⟨j, hj, rfl⟩ := Option.map_eq_some_iff.mp hget
      obtain ⟨hlt, hj⟩ := List.getElem?_eq_some_iff.mp hj
      rw [List.length_range', hlen] at hlt
      obtain rfl : j = i := by
        rw [List.getElem_range', hlen] at hj
        omega
      exact List.mem_map_of_mem (List.mem_filter.mpr ⟨List.mem_range'_1.mpr ⟨by omega, by omega⟩, hflag⟩)

lemma mem_allFlags_of_mem {mask : UInt64} {x : GoString} (h : x ∈ flagList mask) : x ∈ allFlags := by
  obtain ⟨i, hget, -⟩ := mem_flagList.mp h
  exact List.mem_of_getElem? hget

lemma testBit_iff {mask : UInt64} {i : ℕ} (hi : i < allFlags.length) :
    mask.toNat.testBit i = true ↔ allFlags[i] ∈ flagList mask := by
  rw [← hasFlag_eq mask hi, mem_flagList]
  constructor
  · exact fun h => ⟨i, List.getElem?_eq_getElem hi, h⟩
  · rintro ⟨j, hget, hflag⟩
    obtain rfl : i = j := (List.getElem?_inj hi nodup_allFlags).mp
      ((List.getElem?_eq_getElem hi).trans hget.symm)
    exact hflag

lemma eq_of_flagList_eq {m m' : UInt64} (h : flagList m = flagList m') : m = m' := by
  refine UInt64.toNat_inj.mp (Nat.eq_of_testBit_eq fun i => ?_)
  by_cases hi : i < 64
  · rw [Bool.eq_iff_iff, testBit_iff (by exact hi), testBit_iff (by exact hi), h]
  · have hlarge (m : UInt64) : m.toNat.testBit i = false :=
      Nat.testBit_lt_two_pow (m.toNat_lt.trans_le (Nat.pow_le_pow_right (by decide) (by omega)))
    rw [hlarge, hlarge]

/-! ## What the text tells -/

lemma splitOn_responseFlags {mask : UInt64} (h : mask ≠ 0) :
    (responseFlags mask).splitOn 44 = flagList mask := by
  have hne : flagList mask ≠ [] := by
    intro hnil
    refine h (eq_of_flagList_eq (hnil.trans ?_))
    decide
  rw [responseFlags, if_neg h]
  exact List.splitOn_intercalate 44 (fun x hx => comma_not_mem_allFlags x (mem_allFlags_of_mem hx)) hne

/-- **The text tells the mask.** -/
theorem responseFlags_injective : Function.Injective responseFlags := by
  have hzero {m : UInt64} (h : responseFlags m = []) : m = 0 := by
    by_contra hm
    have hsplit := splitOn_responseFlags hm
    rw [h] at hsplit
    exact nil_not_mem_allFlags (mem_allFlags_of_mem (by rw [← hsplit]; simp))
  intro m m' h
  by_cases hm : m = 0
  · rw [hm, hzero (h.symm.trans (by rw [hm]; rfl))]
  by_cases hm' : m' = 0
  · rw [hm', hzero (h.trans (by rw [hm']; rfl))]
  exact eq_of_flagList_eq (by rw [← splitOn_responseFlags hm, h, splitOn_responseFlags hm'])

/-- The bits of UH, UT, UF, UC, UO and NR. -/
def errorFlags : List ℕ := [1, 2, 5, 6, 7, 8]

/-- No other name has the letters of an error flag in it. -/
lemma contains_allFlags : ∀ i : Fin allFlags.length,
    (∃ f ∈ errorFlagNames, f <:+: allFlags.get i) ↔ i.val ∈ errorFlags := by
  decide +kernel

/-- The letters of an error flag are in the text exactly when its bit is set. -/
lemma infix_responseFlags {mask : UInt64} :
    (∃ f ∈ errorFlagNames, f <:+: responseFlags mask) ↔ ∃ i ∈ errorFlags, mask.toNat.testBit i = true := by
  have htext : (∃ f ∈ errorFlagNames, f <:+: responseFlags mask) ↔
      ∃ f ∈ errorFlagNames, ∃ x ∈ flagList mask, f <:+: x := by
    refine exists_congr fun f => and_congr_right fun hf => ?_
    have hletters : ∀ f ∈ errorFlagNames, 44 ∉ f ∧ f ≠ [] := by decide
    by_cases hmask : mask = 0
    · subst hmask
      have hnone : flagList 0 = [] := by decide
      simp [responseFlags, hnone, (hletters f hf).2]
    · rw [responseFlags, if_neg hmask]
      exact Lines.infix_intercalate (hletters f hf).1 (hletters f hf).2
  rw [htext]
  constructor
  · rintro ⟨f, hf, x, hx, hinfix⟩
    obtain ⟨i, hget, hflag⟩ := mem_flagList.mp hx
    obtain ⟨hi, rfl⟩ := List.getElem?_eq_some_iff.mp hget
    exact ⟨i, (contains_allFlags ⟨i, hi⟩).mp ⟨f, hf, hinfix⟩, hasFlag_eq mask hi ▸ hflag⟩
  · rintro ⟨i, hi, hbit⟩
    have hlt : i < allFlags.length := by
      have hsmall : ∀ i ∈ errorFlags, i < 64 := by decide
      exact hsmall i hi
    obtain ⟨f, hf, hinfix⟩ := (contains_allFlags ⟨i, hlt⟩).mpr hi
    exact ⟨f, hf, _, (testBit_iff hlt).mp hbit, hinfix⟩

lemma containsErrorFlag_iff {flags : GoString} :
    containsErrorFlag flags = true ↔ ∃ f ∈ errorFlagNames, f <:+: flags := by
  simp only [containsErrorFlag, contains, List.any_eq_true, decide_eq_true_eq]

/-- **An error flag is found** by its letters exactly when its bit is set. -/
theorem containsErrorFlag_responseFlags (mask : UInt64) :
    containsErrorFlag (responseFlags mask) = true ↔ ∃ i ∈ errorFlags, mask.toNat.testBit i = true :=
  containsErrorFlag_iff.trans infix_responseFlags

end Luwes
