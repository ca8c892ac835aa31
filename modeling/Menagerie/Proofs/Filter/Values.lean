import Mathlib.Tactic.ByContra
import Menagerie.Filter.Grammar
import Menagerie.Proofs.Decimal.Fraction

/-! Levels, and the values that a directive asks for, are read exactly as they are written. -/

namespace Menagerie

/-! ### Levels -/

namespace Threshold

variable {cs : List Char} {t : Threshold}

theorem lower_eq_toLower : lower = Char.toLower := by
  funext c
  by_cases h : 'A' ≤ c ∧ c ≤ 'Z'
  · have hval : c.val ≥ 'A'.val ∧ c.val ≤ 'Z'.val := h
    have hle : c.val.toNat ≤ 90 := UInt32.le_iff_toNat_le.mp hval.2
    have hvalid : (c.toNat + 32).isValidChar := .inl (by rw [Char.toNat]; omega)
    have hsum : (c.val + 32).toNat = c.val.toNat + 32 := by
      rw [UInt32.toNat_add]
      exact Nat.mod_eq_of_lt (by show c.val.toNat + 32 < 2 ^ 32; omega)
    show lower c = dite _ _ _
    rw [lower, if_pos h, dif_pos hval, Char.ofNat, dif_pos hvalid]
    apply Char.ext
    apply UInt32.toNat_inj.mp
    exact hsum.symm
  · have hval : ¬(c.val ≥ 'A'.val ∧ c.val ≤ 'Z'.val) := h
    show lower c = dite _ _ _
    rw [lower, if_neg h, dif_neg hval]

theorem find?_rank {n : Nat} : all.find? (·.rank = n) = some t ↔ n = t.rank := by
  constructor
  · intro h
    have hrank := List.find?_some h
    exact (of_decide_eq_true hrank).symm
  · rintro rfl
    cases t <;> decide

theorem find?_name : all.find? (·.name.toList = cs) = some t ↔ cs = t.name.toList := by
  constructor
  · intro h
    have hname := List.find?_some h
    exact (of_decide_eq_true hname).symm
  · rintro rfl
    cases t <;> decide

theorem toLower_of_isDigit {c : Char} (h : c.isDigit = true) : c.toLower = c := by
  have hnine : c ≤ '9' := by
    simp only [Char.isDigit, Bool.and_eq_true, decide_eq_true_eq] at h
    exact h.2
  show dite _ _ _ = c
  refine dif_neg fun hcapital => ?_
  have hle : 'A' ≤ '9' := Char.le_trans hcapital.1 hnine
  revert hle
  decide

/-- A word begins with a letter, and a number does not. -/
theorem unsigned?_of_word (h : cs.map Char.toLower = t.name.toList) : Decimal.unsigned? cs = none := by
  have hhead : ∀ c ∈ cs.head?, c.toLower ∈ t.name.toList.head? := by
    intro c hc
    rw [← h, List.head?_map, Option.mem_def.mp hc]
    rfl
  have hname : ∀ c ∈ t.name.toList.head?, c.isDigit = false ∧ c ≠ '+' := by
    intro c hc
    cases t <;> obtain rfl := Option.some.inj hc <;> decide
  rw [Option.eq_none_iff_forall_ne_some]
  intro n hn
  cases Decimal.unsigned?_eq_some_iff.mp hn with
  | bare hn =>
      obtain ⟨c, rest, rfl⟩ := List.exists_cons_of_ne_nil hn.ne_nil
      have hdigit := hn.digits c List.mem_cons_self
      have hletter := (hname _ (hhead c rfl)).1
      rw [toLower_of_isDigit hdigit, hdigit] at hletter
      cases hletter
  | plus hn => exact (hname _ (hhead '+' rfl)).2 rfl

/-- A threshold is read from its word or its number, and from nothing else. -/
theorem read?_eq_some_iff : read? cs = some t ↔ t.IsNamed cs := by
  unfold read?
  split
  · next n hn =>
      rw [find?_rank]
      constructor
      · rintro rfl
        exact .number (Decimal.unsigned?_eq_some_iff.mp hn)
      · intro h
        cases h with
        | word h =>
            rw [unsigned?_of_word h] at hn
            cases hn
        | number h =>
            rw [← Decimal.unsigned?_eq_some_iff, hn] at h
            exact Option.some.inj h
  · next hnone =>
      rw [find?_name, lower_eq_toLower]
      constructor
      · exact .word
      · intro h
        cases h with
        | word h => exact h
        | number h =>
            rw [← Decimal.unsigned?_eq_some_iff, hnone] at h
            cases h

theorem read?_eq_none_iff : read? cs = none ↔ ∀ t : Threshold, ¬t.IsNamed cs := by
  simp only [Option.eq_none_iff_forall_ne_some, ne_eq, read?_eq_some_iff]

end Threshold

/-! ### Values -/

namespace Decimal

variable {cs : List Char}

theorem IsNatural.isMagnitude {n : Nat} (h : IsNatural cs n) : IsMagnitude cs := by
  rw [← List.append_nil cs]
  exact .numeral (.whole h.ne_nil h.digits) .nothing

/-- Every numeral without a point is a fraction too. -/
theorem IsInteger.isFraction {n : Int} (h : IsInteger cs n) : IsFraction cs := by
  cases h with
  | unsigned h =>
      cases h with
      | bare h => exact .bare h.isMagnitude
      | plus h => exact .signed (.inl rfl) h.isMagnitude
  | minus h => exact .signed (.inr rfl) h.isMagnitude

end Decimal

namespace Filter

open Decimal

namespace WantedValue

variable {cs : List Char} {v : WantedValue}

theorem unsigned?_eq_some_iff {n : UInt64} : unsigned? cs = some n ↔ IsUnsigned cs n.toNat := by
  rw [← Decimal.unsigned?_eq_some_iff, unsigned?]
  constructor
  · intro h
    split at h
    · next m hm =>
        split at h
        · next hsize =>
            obtain rfl := Option.some.inj h
            rw [hm, UInt64.toNat_ofNat_of_lt' hsize]
        · cases h
    · cases h
  · intro h
    have hsize : n.toNat < UInt64.size := n.toNat_lt
    simp only [h, if_pos hsize, UInt64.ofNat_toNat]

theorem unsigned?_eq_none_iff : unsigned? cs = none ↔ ∀ n : UInt64, ¬IsUnsigned cs n.toNat := by
  simp only [Option.eq_none_iff_forall_ne_some, ne_eq, unsigned?_eq_some_iff]

theorem int64?_eq_none_iff : int64? cs = none ↔ ∀ n : Int64, ¬IsInteger cs n.toInt := by
  simp only [Option.eq_none_iff_forall_ne_some, ne_eq, int64?_eq_some_iff]

/-- Without a minus sign what fits with a sign also fits without one. -/
theorem exists_eq_minus {n : Int64} (hunsigned : ∀ m : UInt64, ¬IsUnsigned cs m.toNat)
    (h : IsInteger cs n.toInt) : ∃ rest, cs = '-' :: rest := by
  generalize hvalue : n.toInt = k at h
  cases h with
  | unsigned h =>
      obtain ⟨m, hm⟩ : ∃ m : Nat, (m : Int) = n.toInt := ⟨_, hvalue.symm⟩
      obtain rfl := Int.ofNat_inj.mp (hm.trans hvalue)
      have hfits := (fits_toInt n).2
      have hsize : m < UInt64.size := by
        show m < 2 ^ 64
        omega
      rw [← UInt64.toNat_ofNat_of_lt' hsize] at h
      exact absurd h (hunsigned _)
  | minus h => exact ⟨_, rfl⟩

theorem unsigned?_minus (cs : List Char) : unsigned? ('-' :: cs) = none := by
  rw [unsigned?_eq_none_iff]
  intro n h
  cases h with
  | bare h => exact h.head_ne.2 rfl

theorem isFraction_of_read? {x : Fraction} (h : Fraction.read? cs = some x) : IsFraction cs := by
  rw [← Fraction.read?_isSome_iff, h]
  rfl

/-- A text with a number is one that can be read as a fraction. -/
theorem number?_eq_none_iff : number? cs = none ↔ ¬IsFraction cs := by
  unfold number?
  split
  · next n hn =>
      have hinteger : IsInteger cs n.toNat := .unsigned (unsigned?_eq_some_iff.mp hn)
      exact iff_of_false nofun (not_not_intro hinteger.isFraction)
  · next hn => exact iff_of_false nofun (not_not_intro (int64?_eq_some_iff.mp hn).isFraction)
  · next hread => exact iff_of_false nofun (not_not_intro (isFraction_of_read? hread))
  · next hread => exact iff_of_false nofun (not_not_intro (isFraction_of_read? hread))
  · next hread =>
      rw [← Fraction.read?_isSome_iff, hread]
      exact iff_of_true rfl nofun

theorem isWritten_of_number? (h : number? cs = some v) : v.IsWritten cs := by
  unfold number? at h
  split at h
  · next hn =>
      obtain rfl := Option.some.inj h
      exact .unsigned (unsigned?_eq_some_iff.mp hn)
  · next hunsigned hn =>
      obtain rfl := Option.some.inj h
      have hinteger := int64?_eq_some_iff.mp hn
      obtain ⟨rest, rfl⟩ := exists_eq_minus (unsigned?_eq_none_iff.mp hunsigned) hinteger
      exact .signed hinteger
  · next hunsigned hsigned hread =>
      obtain rfl := Option.some.inj h
      exact .fraction (unsigned?_eq_none_iff.mp hunsigned) (int64?_eq_none_iff.mp hsigned) hread
  · next hunsigned hsigned hread =>
      obtain rfl := Option.some.inj h
      exact .notANumber (unsigned?_eq_none_iff.mp hunsigned) (int64?_eq_none_iff.mp hsigned) hread
  · cases h

theorem not_isFraction_flag (b : Bool) : ¬IsFraction (toString b).toList := by
  rw [← Fraction.read?_isSome_iff]
  cases b <;> decide +kernel

theorem plain?_flag (b : Bool) : plain? (toString b).toList = some (.flag b) := by
  cases b <;> rfl

theorem plain?_of_ne_flag (h : ∀ b : Bool, cs ≠ (toString b).toList) : plain? cs = number? cs := by
  have htrue : cs ≠ "true".toList := h true
  have hfalse : cs ≠ "false".toList := h false
  rw [plain?, if_neg htrue, if_neg hfalse]

/-- What is neither a truth value nor a number can only be a pattern. -/
theorem plain?_eq_none_iff :
    plain? cs = none ↔ (∀ b : Bool, cs ≠ (toString b).toList) ∧ ¬IsFraction cs := by
  by_cases hflag : ∀ b : Bool, cs ≠ (toString b).toList
  · rw [plain?_of_ne_flag hflag, number?_eq_none_iff, and_iff_right hflag]
  · obtain ⟨b, hb⟩ := not_forall_not.mp hflag
    rw [hb, plain?_flag]
    exact iff_of_false nofun fun h => h.1 b rfl

theorem isWritten_of_plain? (h : plain? cs = some v) : v.IsWritten cs := by
  by_cases hflag : ∀ b : Bool, cs ≠ (toString b).toList
  · rw [plain?_of_ne_flag hflag] at h
    exact isWritten_of_number? h
  · obtain ⟨b, rfl⟩ := not_forall_not.mp hflag
    rw [plain?_flag] at h
    obtain rfl := Option.some.inj h
    exact .flag b

theorem read_of_number? (h : number? cs = some v) : read cs = .ok v := by
  have hnumber : IsFraction cs := by
    by_contra hnone
    rw [number?_eq_none_iff.mpr hnone] at h
    cases h
  have hflag : ∀ b : Bool, cs ≠ (toString b).toList := by
    rintro b rfl
    exact not_isFraction_flag b hnumber
  rw [read, plain?_of_ne_flag hflag, h]

/-- A value is read exactly from the texts that ask for it. -/
theorem read_eq_ok_iff : read cs = .ok v ↔ v.IsWritten cs := by
  constructor
  · intro h
    unfold read at h
    split at h
    · next hplain =>
        obtain rfl := Except.ok.inj h
        exact isWritten_of_plain? hplain
    · next hplain =>
        obtain ⟨hflag, hnumber⟩ := plain?_eq_none_iff.mp hplain
        cases hread : Pattern.read (String.ofList cs) with
        | ok p =>
            simp only [hread] at h
            obtain rfl := Except.ok.inj h
            exact .pattern hflag hnumber hread
        | error f => simp [hread] at h
  · intro h
    cases h with
    | flag b => rw [read, plain?_flag]
    | unsigned h =>
        apply read_of_number?
        rw [number?, unsigned?_eq_some_iff.mpr h]
    | signed h =>
        apply read_of_number?
        rw [number?, unsigned?_minus, int64?_eq_some_iff.mpr h]
    | fraction hunsigned hsigned h =>
        apply read_of_number?
        rw [number?, unsigned?_eq_none_iff.mpr hunsigned, int64?_eq_none_iff.mpr hsigned, h]
    | notANumber hunsigned hsigned h =>
        apply read_of_number?
        rw [number?, unsigned?_eq_none_iff.mpr hunsigned, int64?_eq_none_iff.mpr hsigned, h]
    | pattern hflag hnumber h =>
        rw [read, plain?_eq_none_iff.mpr ⟨hflag, hnumber⟩]
        simp only [h]

/-- A text asks for a value exactly if it is a truth value, a number or a valid pattern. -/
theorem exists_isWritten_iff : (∃ v : WantedValue, v.IsWritten cs) ↔
    (∃ b : Bool, cs = (toString b).toList) ∨ IsFraction cs ∨ ∃ p, Pattern.read (String.ofList cs) = .ok p := by
  simp only [← read_eq_ok_iff]
  cases hplain : plain? cs with
  | some v =>
      refine iff_of_true ⟨v, by rw [read, hplain]⟩ ?_
      by_contra hnone
      rw [not_or, not_or] at hnone
      rw [plain?_eq_none_iff.mpr ⟨not_exists.mp hnone.1, hnone.2.1⟩] at hplain
      cases hplain
  | none =>
      obtain ⟨hflag, hnumber⟩ := plain?_eq_none_iff.mp hplain
      rw [or_iff_right (not_exists.mpr hflag), or_iff_right hnumber]
      cases hread : Pattern.read (String.ofList cs) with
      | ok p => simp [read, hplain, hread]
      | error f => simp [read, hplain, hread]

end WantedValue

/-! ### Names and their values -/

namespace FieldMatch

variable {cs : List Char} {m : FieldMatch}

theorem takeWhile_ne_equals {front : List Char} (hfront : '=' ∉ front) (rest : List Char)
    (hrest : ∀ c ∈ rest.head?, c = '=') : (front ++ rest).takeWhile (· != '=') = front := by
  have hall : ∀ c ∈ front, (c != '=') = true := fun c hc => bne_iff_ne.mpr (ne_of_mem_of_not_mem hc hfront)
  have hstop : rest.takeWhile (· != '=') = [] := by
    cases rest with
    | nil => rfl
    | cons c rest => exact List.takeWhile_cons_of_neg (by simp [hrest c rfl])
  rw [List.takeWhile_append_of_pos hall, hstop, List.append_nil]

/-- Every text is one without equals signs, and maybe an equals sign and what follows it. -/
theorem exists_append_equals (cs : List Char) :
    ∃ front rest, cs = front ++ rest ∧ '=' ∉ front ∧ ∀ c ∈ rest.head?, c = '=' := by
  obtain ⟨front, rest, rfl, hfront, hrest⟩ := Text.exists_run_append (· != '=') cs
  refine ⟨front, rest, rfl, fun hmem => ?_, fun c hc => ?_⟩
  · exact bne_iff_ne.mp (hfront _ hmem) rfl
  · exact bne_eq_false_iff_eq.mp (hrest c hc)

theorem read_name (h : '=' ∉ cs) : read cs = .ok ⟨String.ofList cs, none⟩ := by
  have hname := takeWhile_ne_equals h [] nofun
  rw [List.append_nil] at hname
  simp only [read, hname, List.drop_length]

theorem read_value {name text rest : List Char} (hname : '=' ∉ name) (htext : '=' ∉ text)
    (hrest : ∀ c ∈ rest.head?, c = '=') :
    read (name ++ '=' :: (text ++ rest)) =
      (WantedValue.read text).map fun v => ⟨String.ofList name, some v⟩ := by
  have hfront := takeWhile_ne_equals hname ('=' :: (text ++ rest)) fun c hc => (Option.some.inj hc).symm
  simp only [read, hfront, List.drop_left, takeWhile_ne_equals htext rest hrest]
  cases WantedValue.read text <;> rfl

/-- A name with its value is read exactly from the texts that it is written as. -/
theorem read_eq_ok_iff : read cs = .ok m ↔ m.IsWritten cs := by
  constructor
  · intro h
    obtain ⟨name, behind, rfl, hname, hbehind⟩ := exists_append_equals cs
    cases behind with
    | nil =>
        rw [List.append_nil] at h ⊢
        rw [read_name hname] at h
        obtain rfl := Except.ok.inj h
        exact .name hname
    | cons c behind =>
        obtain rfl := hbehind c rfl
        obtain ⟨text, rest, rfl, htext, hrest⟩ := exists_append_equals behind
        rw [read_value hname htext hrest] at h
        cases hread : WantedValue.read text with
        | error f =>
            rw [hread] at h
            cases h
        | ok v =>
            rw [hread] at h
            obtain rfl := Except.ok.inj h
            exact .value hname htext hrest (WantedValue.read_eq_ok_iff.mp hread)
  · intro h
    cases h with
    | name hname => exact read_name hname
    | value hname htext hrest h => rw [read_value hname htext hrest, WantedValue.read_eq_ok_iff.mpr h, Except.map]

end FieldMatch

end Filter

end Menagerie
