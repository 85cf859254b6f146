import Mathlib.Data.Nat.Digits.Lemmas

/-!
# Numbers in base ten

`format` writes a number with ASCII digits, and `parse` reads a nonempty string of digits, with
any leading zeros, and nothing else.  What is written is read back (`parse_format`), and what is read is
written the same unless it has leading zeros (`format_parse`).
-/

namespace Decimal

/-- A number, most significant digit first. -/
def format (n : ℕ) : List UInt8 :=
  if n = 0 then [48] else (Nat.digits 10 n).reverse.map fun d => UInt8.ofNat (48 + d)

/-- An ASCII digit. -/
def isDigit (b : UInt8) : Bool := 48 ≤ b.toNat && b.toNat ≤ 57

/-- The value of a string of digits. -/
def parse (bs : List UInt8) : Option ℕ :=
  if bs ≠ [] ∧ bs.all isDigit then some (bs.foldl (fun n b => n * 10 + (b.toNat - 48)) 0) else none

lemma toNat_digit {d : ℕ} (hd : d < 10) : (UInt8.ofNat (48 + d)).toNat = 48 + d := by
  rw [UInt8.toNat_ofNat']
  exact Nat.mod_eq_of_lt (by omega)

lemma foldl_digits {ds : List ℕ} (hds : ∀ d ∈ ds, d < 10) :
    (ds.reverse.map fun d => UInt8.ofNat (48 + d)).foldl (fun n b => n * 10 + (b.toNat - 48)) 0 =
      Nat.ofDigits 10 ds := by
  rw [List.foldl_map, List.foldl_reverse]
  induction ds with
  | nil => rfl
  | cons d ds ih =>
      rw [List.foldr_cons, ih fun e he => hds e (.tail _ he), Nat.ofDigits_cons,
        toNat_digit (hds d (.head _))]
      omega

/-- **Round trip.** -/
theorem parse_format (n : ℕ) : parse (format n) = some n := by
  by_cases hn : n = 0
  · rw [hn]
    rfl
  · have hlt : ∀ d ∈ Nat.digits 10 n, d < 10 := fun d hd => Nat.digits_lt_base (by decide) hd
    have hall : ((Nat.digits 10 n).reverse.map fun d => UInt8.ofNat (48 + d)).all isDigit := by
      simp only [List.all_map, List.all_reverse, List.all_eq_true, Function.comp_apply, isDigit]
      intro d hd
      have := hlt d hd
      rw [toNat_digit this]
      simp
      omega
    have hne : ((Nat.digits 10 n).reverse.map fun d => UInt8.ofNat (48 + d)) ≠ [] := by
      simpa [Nat.digits_eq_nil_iff_eq_zero] using hn
    rw [format, if_neg hn, parse, if_pos ⟨hne, hall⟩, foldl_digits hlt, Nat.ofDigits_digits]

/-- What is read from a string without leading zeros is written as that string. -/
theorem format_parse {bs : List UInt8} {n : ℕ} (h : parse bs = some n) (hlead : bs.head? ≠ some 48) :
    format n = bs := by
  rw [parse] at h
  split_ifs at h with hbs
  obtain ⟨hne, hall⟩ := hbs
  have hdigit : ∀ b ∈ bs, 48 ≤ b.toNat ∧ b.toNat ≤ 57 := by
    intro b hb
    simpa [isDigit] using List.all_eq_true.mp hall b hb
  let ds := (bs.map fun b => b.toNat - 48).reverse
  have hlt : ∀ d ∈ ds, d < 10 := by
    intro d hd
    obtain ⟨b, hb, rfl⟩ := List.mem_map.mp (List.mem_reverse.mp hd)
    have := hdigit b hb
    omega
  have hbytes : (ds.reverse.map fun d => UInt8.ofNat (48 + d)) = bs := by
    rw [List.reverse_reverse, List.map_map]
    refine (List.map_congr_left fun b hb => ?_).trans (List.map_id bs)
    have := hdigit b hb
    rw [Function.comp_apply, Nat.add_sub_cancel' this.1, UInt8.ofNat_toNat, id]
  have hvalue : Nat.ofDigits 10 ds = n := by
    rw [← foldl_digits hlt, hbytes]
    exact Option.some.inj h
  have hlast : ∀ hds : ds ≠ [], ds.getLast hds ≠ 0 := by
    intro hds hzero
    obtain ⟨b, bs, rfl⟩ := List.exists_cons_of_ne_nil hne
    have hb := hdigit b (.head _)
    have : b.toNat - 48 = 0 := by simpa [ds] using hzero
    refine hlead (congrArg some (UInt8.toNat_inj.mp ?_))
    change b.toNat = 48
    omega
  have hdigits : Nat.digits 10 n = ds := hvalue ▸ Nat.digits_ofDigits 10 (by decide) ds hlt hlast
  have hds : ds ≠ [] := by simpa [ds] using hne
  have hn : n ≠ 0 := by
    rintro rfl
    exact hds (hdigits.symm.trans (Nat.digits_zero 10))
  rw [format, if_neg hn, hdigits, hbytes]

end Decimal
