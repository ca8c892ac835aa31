import Menagerie.Proofs.Text.Octets
import Menagerie.Text.Percent

/-! A text in a header line stands for the text that was written. Its reader knows nothing of which octets
stand for themselves. -/

namespace Menagerie.Text

/-- What an uppercase hexadecimal digit counts. -/
def upperDigitValue? (c : Char) : Option Nat :=
  if '0' ≤ c ∧ c ≤ '9' then some (c.toNat - 48)
  else if 'A' ≤ c ∧ c ≤ 'F' then some (c.toNat - 55)
  else none

/-- The octets that a text in a header line stands for: a percent sign and two digits for one octet, any
other character for its own. -/
def percentOctets? : List Char → Option (List UInt8)
  | [] => some []
  | '%' :: high :: low :: cs => do
    let high ← upperDigitValue? high
    let low ← upperDigitValue? low
    let bs ← percentOctets? cs
    return UInt8.ofNat (16 * high + low) :: bs
  | c :: cs => (percentOctets? cs).map (UInt8.ofNat c.toNat :: ·)

/-- The text that a text in a header line stands for. -/
def percentDecode? (s : String) : Option String := (percentOctets? s.toList).bind text?

theorem upperDigitValue?_upperDigit {n : Nat} (h : n < 16) : upperDigitValue? (upperDigit n) = some n := by
  have hall : ∀ k : Fin 16, upperDigitValue? (upperDigit k) = some k.val := by decide +kernel
  exact hall ⟨n, h⟩

theorem percentOctets?_cons {c : Char} (h : c ≠ '%') (cs : List Char) :
    percentOctets? (c :: cs) = (percentOctets? cs).map (UInt8.ofNat c.toNat :: ·) := by
  rw [percentOctets?]
  exact fun _ _ _ hc => absurd hc h

theorem ne_percent_of_isPlainOctet {b : UInt8} (h : isPlainOctet b = true) :
    b.toNat < 0x7f ∧ Char.ofNat b.toNat ≠ '%' := by
  simp only [isPlainOctet, Bool.and_eq_true, decide_eq_true_eq, UInt8.lt_iff_toNat_lt] at h
  obtain ⟨⟨-, hlow⟩, hmark⟩ := h
  refine ⟨hlow, fun hpercent => ?_⟩
  rw [hpercent] at hmark
  revert hmark
  decide

theorem percentOctets?_percentOctet (b : UInt8) (cs : List Char) :
    percentOctets? (percentOctet b ++ cs) = (percentOctets? cs).map (b :: ·) := by
  have hb := b.toNat_lt
  unfold percentOctet
  split
  · next hplain =>
      obtain ⟨hlow, hne⟩ := ne_percent_of_isPlainOctet hplain
      have hvalid : b.toNat.isValidChar := .inl (by omega)
      have hchar : (Char.ofNat b.toNat).toNat = b.toNat := by
        rw [Char.ofNat, dif_pos hvalid]
        rfl
      rw [List.singleton_append, percentOctets?_cons hne, hchar, UInt8.ofNat_toNat]
  · have hhigh := upperDigitValue?_upperDigit (n := b.toNat / 16) (by omega)
    have hlow := upperDigitValue?_upperDigit (n := b.toNat % 16) (by omega)
    have hboth : UInt8.ofNat (16 * (b.toNat / 16) + b.toNat % 16) = b := by
      rw [Nat.div_add_mod, UInt8.ofNat_toNat]
    simp only [List.cons_append, List.nil_append, percentOctets?, hhigh, hlow]
    cases percentOctets? cs with
    | none => rfl
    | some bs => exact congrArg (fun b => some (b :: bs)) hboth

theorem percentOctets?_flatMap (bs : List UInt8) : percentOctets? (bs.flatMap percentOctet) = some bs := by
  induction bs with
  | nil => rfl
  | cons b bs ih => rw [List.flatMap_cons, percentOctets?_percentOctet, ih, Option.map_some]

theorem percentDecode?_percentEncode (s : String) : percentDecode? (percentEncode s) = some s := by
  rw [percentDecode?, percentEncode, String.toList_ofList, percentOctets?_flatMap, Option.bind_some,
    text?_octets]

end Menagerie.Text
