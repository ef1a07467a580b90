import Lockstep.Text.Numeral
import Mathlib.Data.List.Induction
import Mathlib.Tactic.Common

/-!
Numerals and the numbers they stand for. A numeral without a leading zero is the canonical one of
its number, and every word is read back from its own numeral.
-/
namespace Lockstep.Text

theorem isDigit_of_mem_digits {n : Nat} {c : Char} (h : c ∈ digits n) : c.isDigit :=
  Nat.isDigit_of_mem_toDigits (by decide) (by decide) h

theorem digits_ne_nil (n : Nat) : digits n ≠ [] := Nat.toDigits_ne_nil

theorem ofDigitChars_digits (n : Nat) : Nat.ofDigitChars 10 (digits n) 0 = n :=
  Nat.ofDigitChars_ten_toDigits

theorem digits_head_ne_zero {n : Nat} (h : n ≠ 0) : (digits n).head? ≠ some '0' := by
  induction n using Nat.strongRecOn with
  | _ n ih =>
    rw [digits, Nat.toDigits_eq_if (by decide)]
    split_ifs with hlt
    · have hall : ∀ m < 10, m ≠ 0 → [Nat.digitChar m].head? ≠ some '0' := by decide
      exact hall n hlt h
    · have hrest := ih (n / 10) (by omega) (by omega)
      obtain ⟨c, cs, hcs⟩ := List.exists_cons_of_ne_nil (digits_ne_nil (n / 10))
      rw [digits] at hcs hrest
      rw [hcs] at hrest ⊢
      exact hrest

theorem digit_value {c : Char} (h : c.isDigit) :
    c.toNat - '0'.toNat < 10 ∧ Nat.digitChar (c.toNat - '0'.toNat) = c := by
  have hc : 48 ≤ c.toNat ∧ c.toNat ≤ 57 := by
    simp only [Char.isDigit, Bool.and_eq_true, decide_eq_true_eq] at h
    exact ⟨UInt32.le_iff_toNat_le.mp h.1, UInt32.le_iff_toNat_le.mp h.2⟩
  have hall : ∀ m < 10, Nat.digitChar m = Char.ofNat (m + 48) := by decide
  have hz : '0'.toNat = 48 := rfl
  rw [hz]
  refine ⟨by omega, ?_⟩
  rw [hall _ (by omega), Nat.sub_add_cancel hc.1, Char.ofNat_toNat]

theorem digits_ofDigitChars {ds : List Char} (hne : ds ≠ []) (hd : ∀ c ∈ ds, c.isDigit)
    (hz : ds.head? ≠ some '0') : digits (Nat.ofDigitChars 10 ds 0) = ds := by
  induction ds using List.reverseRecOn with
  | nil => exact absurd rfl hne
  | append_singleton ds c ih =>
    obtain ⟨hlt, hc⟩ := digit_value (hd c (by simp))
    rw [Nat.ofDigitChars_append, Nat.ofDigitChars_cons, Nat.ofDigitChars_nil]
    by_cases hds : ds = []
    · subst hds
      simp only [Nat.ofDigitChars_nil, Nat.mul_zero, Nat.zero_add, List.nil_append]
      rw [digits, Nat.toDigits_of_lt_base hlt, hc]
    · have hz' : ds.head? ≠ some '0' := by
        obtain ⟨d, ds, rfl⟩ := List.exists_cons_of_ne_nil hds
        exact hz
      have hrest := ih hds (fun d hd' => hd d (List.mem_append_left _ hd')) hz'
      have hpos : 0 < Nat.ofDigitChars 10 ds 0 := by
        by_contra hn
        rw [Nat.eq_zero_of_not_pos hn] at hrest
        rw [← hrest] at hz'
        exact hz' rfl
      rw [digits, ← Nat.toDigits_append_toDigits (by decide) hpos hlt, Nat.toDigits_of_lt_base hlt,
        hc]
      exact congrArg (· ++ [c]) hrest

def NoDigitNext (rest : List Char) : Prop := ∀ c ∈ rest.head?, c.isDigit = false

theorem takeWhile_digits {ds rest : List Char} (hd : ∀ c ∈ ds, c.isDigit)
    (hr : NoDigitNext rest) : (ds ++ rest).takeWhile Char.isDigit = ds := by
  rw [List.takeWhile_append_of_pos hd]
  cases rest with
  | nil => simp
  | cons c rest => simp [hr c rfl]

theorem natural?_digits (n : Nat) : natural? (digits n) = some n := by
  have hall : (digits n).all Char.isDigit := List.all_eq_true.mpr fun c hc => isDigit_of_mem_digits hc
  rw [natural?, if_pos ⟨digits_ne_nil n, hall⟩, ofDigitChars_digits]

theorem int64?_toInt (v : Int64) : int64? v.toInt = some v := by
  rw [int64?, if_pos ⟨v.minValue_le_toInt, v.toInt_le⟩, Int64.ofInt_toInt]

theorem int32?_toInt (v : Int32) : int32? v.toInt = some v := by
  rw [int32?, if_pos ⟨v.minValue_le_toInt, v.toInt_le⟩, Int32.ofInt_toInt]

theorem uint32?_toNat (v : UInt32) : uint32? v.toNat = some v := by
  rw [uint32?, if_pos v.toNat_lt_size, UInt32.ofNat_toNat]

theorem uint8?_toNat (v : UInt8) : uint8? v.toNat = some v := by
  rw [uint8?, if_pos v.toNat_lt_size, UInt8.ofNat_toNat]

theorem toInt_of_int64? {n : Int} {v : Int64} (h : int64? n = some v) : v.toInt = n := by
  unfold int64? at h
  split_ifs at h with hn
  rw [← Option.some.inj h, Int64.toInt_ofInt_of_le]
  · exact hn.1
  · exact Int.lt_add_one_iff.mpr hn.2

theorem toInt_of_int32? {n : Int} {v : Int32} (h : int32? n = some v) : v.toInt = n := by
  unfold int32? at h
  split_ifs at h with hn
  rw [← Option.some.inj h, Int32.toInt_ofInt_of_le hn.1]
  exact Int.lt_add_one_iff.mpr hn.2

theorem toNat_of_uint32? {n : Nat} {v : UInt32} (h : uint32? n = some v) : v.toNat = n := by
  unfold uint32? at h
  split_ifs at h with hn
  rw [← Option.some.inj h]
  exact UInt32.toNat_ofNat_of_lt' hn

theorem int64?_of_int32 (d : Int32) : int64? d.toInt = some (Int64.ofInt d.toInt) := by
  have hlo := d.minValue_le_toInt
  have hhi := d.toInt_le
  rw [Int32.toInt_minValue] at hlo
  rw [Int32.toInt_maxValue] at hhi
  apply if_pos
  rw [Int64.toInt_minValue, Int64.toInt_maxValue]
  omega

end Lockstep.Text
