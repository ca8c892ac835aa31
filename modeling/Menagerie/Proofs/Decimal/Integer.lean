import Menagerie.Decimal.Integer
import Menagerie.Decimal.Numeral

/-! Texts are read as the numbers that they denote as numerals, and no other text is read. -/

namespace Menagerie.Decimal

variable {cs : List Char} {n : Nat}

theorem digit?_eq (c : Char) : digit? c = if c.isDigit then some (c.toNat - '0'.toNat) else none := by
  have hdigit : ('0' ≤ c ∧ c ≤ '9') ↔ c.isDigit = true := by
    simp only [Char.isDigit, Char.le_def, ge_iff_le, Bool.and_eq_true, decide_eq_true_eq]
  rw [digit?]
  by_cases h : c.isDigit = true
  · rw [if_pos (hdigit.mpr h), if_pos h]
  · rw [if_neg (mt hdigit.mp h), if_neg h]

theorem digitsFrom_eq_some_iff {start : Nat} :
    digitsFrom start cs = some n ↔ (∀ c ∈ cs, c.isDigit = true) ∧ Nat.ofDigitChars 10 cs start = n := by
  induction cs generalizing start with
  | nil => simp [digitsFrom]
  | cons c cs ih =>
      rw [digitsFrom, digit?_eq, List.forall_mem_cons, Nat.ofDigitChars_cons]
      by_cases hc : c.isDigit = true
      · rw [if_pos hc]
        simp only [hc, true_and]
        exact ih
      · simp [hc]

theorem natural?_eq_some_iff : natural? cs = some n ↔ IsNatural cs n := by
  cases cs with
  | nil => exact ⟨nofun, fun h => absurd rfl h.ne_nil⟩
  | cons c cs =>
      rw [natural?, digitsFrom_eq_some_iff]
      exact ⟨fun h => ⟨List.cons_ne_nil c cs, h.1, h.2⟩, fun h => ⟨h.digits, h.value⟩⟩

/-- Digits have no sign in front. -/
theorem IsNatural.head_ne {c : Char} (h : IsNatural (c :: cs) n) : c ≠ '+' ∧ c ≠ '-' := by
  have hc := h.digits c List.mem_cons_self
  constructor <;> rintro rfl <;> cases hc

theorem unsigned?_eq_some_iff : unsigned? cs = some n ↔ IsUnsigned cs n := by
  unfold unsigned?
  split
  · next rest =>
      rw [natural?_eq_some_iff]
      constructor
      · exact .plus
      · rintro (h | h)
        · exact absurd rfl h.head_ne.1
        · exact h
  · next hplus =>
      rw [natural?_eq_some_iff]
      constructor
      · exact .bare
      · rintro (h | h)
        · exact h
        · exact absurd rfl (hplus _)

theorem integer?_eq_some_iff {n : Int} : integer? cs = some n ↔ IsInteger cs n := by
  unfold integer?
  split
  · next rest =>
      rw [Option.map_eq_some_iff]
      constructor
      · rintro ⟨m, hm, rfl⟩
        exact .minus (natural?_eq_some_iff.mp hm)
      · rintro (h | h)
        · cases h with
          | bare h => exact absurd rfl h.head_ne.2
        · exact ⟨_, natural?_eq_some_iff.mpr h, rfl⟩
  · next hminus =>
      rw [Option.map_eq_some_iff]
      constructor
      · rintro ⟨m, hm, rfl⟩
        exact .unsigned (unsigned?_eq_some_iff.mp hm)
      · rintro (h | h)
        · exact ⟨_, unsigned?_eq_some_iff.mpr h, rfl⟩
        · exact absurd rfl (hminus _)

/-- The integers of 64 bits. -/
def Fits (n : Int) : Prop := -9223372036854775808 ≤ n ∧ n ≤ 9223372036854775807

theorem fits_toInt (n : Int64) : Fits n.toInt := ⟨n.minValue_le_toInt, n.toInt_le⟩

theorem toInt_ofInt_of_fits {n : Int} (h : Fits n) : (Int64.ofInt n).toInt = n := by
  obtain ⟨hmin, hmax⟩ := h
  exact Int64.toInt_ofInt_of_le hmin (by omega)

theorem int64?_eq_some_iff {n : Int64} : int64? cs = some n ↔ IsInteger cs n.toInt := by
  rw [← integer?_eq_some_iff, int64?]
  constructor
  · intro h
    split at h
    · next m hm =>
        split at h
        · next hfits =>
            obtain rfl := Option.some.inj h
            rw [hm, toInt_ofInt_of_fits hfits]
        · cases h
    · cases h
  · intro h
    have hfits : Int64.minValue.toInt ≤ n.toInt ∧ n.toInt ≤ Int64.maxValue.toInt := fits_toInt n
    simp only [h, if_pos hfits, Int64.ofInt_toInt]

/-- What is no numeral of a number of 64 bits is not read. -/
theorem int64?_eq_none_iff : int64? cs = none ↔ ∀ n, IsInteger cs n → ¬Fits n := by
  rw [Option.eq_none_iff_forall_ne_some]
  constructor
  · intro h n hn hfits
    rw [← toInt_ofInt_of_fits hfits] at hn
    exact h _ (int64?_eq_some_iff.mpr hn)
  · intro h n hn
    exact h _ (int64?_eq_some_iff.mp hn) (fits_toInt n)

/-! ### What is written -/

/-- The digits of a number denote it, whatever zeros stand in front. -/
theorem isNatural_zeros (zeros n : Nat) : IsNatural (List.replicate zeros '0' ++ Nat.toDigits 10 n) n where
  ne_nil := List.append_ne_nil_of_right_ne_nil _ Nat.toDigits_ne_nil
  digits c hc := by
    rcases List.mem_append.mp hc with hc | hc
    · rw [List.eq_of_mem_replicate hc]
      rfl
    · exact Nat.isDigit_of_mem_toDigits (by decide) (by decide) hc
  value := by
    rw [Nat.ofDigitChars_append, Nat.ofDigitChars_replicate_zero, Nat.mul_zero, Nat.ofDigitChars_ten_toDigits]

theorem Spells.isInteger {n : Int64} {s : String} (h : Spells n s) : IsInteger s.toList n.toInt := by
  have hdigits : ∀ zeros, (String.ofList (List.replicate zeros '0') ++ toString n.toInt.natAbs).toList =
      List.replicate zeros '0' ++ Nat.toDigits 10 n.toInt.natAbs := by
    intro zeros
    rw [String.toList_append, String.toList_ofList, Nat.toString_eq_repr, Nat.toList_repr]
  cases h with
  | bare zeros h =>
      have hinteger : IsInteger _ (n.toInt.natAbs : Int) := .unsigned (.bare (isNatural_zeros zeros _))
      rw [Int.natAbs_of_nonneg h] at hinteger
      rwa [hdigits]
  | plus zeros h =>
      have hinteger : IsInteger _ (n.toInt.natAbs : Int) := .unsigned (.plus (isNatural_zeros zeros _))
      rw [Int.natAbs_of_nonneg h] at hinteger
      rwa [String.append_assoc, String.toList_append, hdigits]
  | minus zeros h =>
      have hinteger : IsInteger _ (-n.toInt.natAbs : Int) := .minus (isNatural_zeros zeros _)
      rw [Int.ofNat_natAbs_of_nonpos h, Int.neg_neg] at hinteger
      rwa [String.append_assoc, String.toList_append, hdigits]

/-- The number as it is shown is one of its spellings. -/
theorem spells_toString (n : Int64) : Spells n (toString n.toInt) := by
  rw [Int.toString_eq_repr, Int.repr_eq_if]
  by_cases h : 0 ≤ n.toInt
  · rw [if_pos h]
    have habs : n.toInt.toNat = n.toInt.natAbs := by omega
    rw [habs]
    exact .bare 0 h
  · rw [if_neg h]
    have habs : (-n.toInt).toNat = n.toInt.natAbs := by omega
    rw [habs]
    exact .minus 0 (by omega)

end Menagerie.Decimal
