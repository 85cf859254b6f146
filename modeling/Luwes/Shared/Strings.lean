import Luwes.Shared.Base
import Mathlib.Data.List.DropRight
import Mathlib.Data.List.Infix

/-!
# Strings and byte slices

The functions of Go's `strings` and `bytes` packages that the filters use.  Those of the two packages
are the same here, where both are lists of bytes.
-/

namespace Luwes

/-- `Contains`. -/
def contains (s sub : GoString) : Bool := sub <:+: s

/-- `HasPrefix`. -/
def hasPrefix (s pre : GoString) : Bool := pre <+: s

/-- `IndexByte`, with `none` for -1. -/
def indexByte (s : GoString) (b : UInt8) : Option ℕ := s.findIdx? (· == b)

/-- `TrimRight` with a set of one character. -/
def trimRight (s : GoString) (b : UInt8) : GoString := s.rdropWhile (· == b)

lemma indexByte_eq_some {s : GoString} {b : UInt8} {i : ℕ} (h : indexByte s b = some i) :
    s = s.take i ++ b :: s.drop (i + 1) ∧ b ∉ s.take i := by
  obtain ⟨hlt, heq, hbefore⟩ := List.findIdx?_eq_some_iff_getElem.mp h
  refine ⟨?_, fun hmem => ?_⟩
  · conv_lhs => rw [← List.take_append_drop i s, List.drop_eq_getElem_cons hlt, eq_of_beq heq]
  · obtain ⟨j, hj, rfl⟩ := List.mem_iff_getElem.mp hmem
    have hlt' : j < i := by
      rw [List.length_take] at hj
      omega
    simpa using hbefore j hlt'

lemma indexByte_eq_none {s : GoString} {b : UInt8} (h : indexByte s b = none) : b ∉ s := by
  intro hmem
  simpa using List.findIdx?_eq_none_iff.mp h b hmem

lemma trimRight_suffix {s s' : GoString} {b : UInt8} (h : s <:+ s') :
    trimRight s b <:+ trimRight s' b := by
  obtain ⟨front, rfl⟩ := h
  simp only [trimRight, List.rdropWhile, List.reverse_append, List.dropWhile_append]
  split
  next hempty => simp [List.isEmpty_iff.mp hempty]
  next => simp

end Luwes
