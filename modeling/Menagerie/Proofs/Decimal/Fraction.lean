import Menagerie.Decimal.Binary64
import Menagerie.Proofs.Decimal.Integer

/-! A text is read as a fraction exactly if it is a numeral with a point or an exponent, or one of the words, with
at most one sign in front. -/

namespace Menagerie

/-- Every text is a run of characters of one kind and a rest that begins with none. -/
theorem Text.exists_run_append (kind : Char → Bool) (cs : List Char) : ∃ run rest, cs = run ++ rest ∧
    (∀ c ∈ run, kind c = true) ∧ ∀ c ∈ rest.head?, kind c = false := by
  refine ⟨cs.takeWhile kind, cs.dropWhile kind, List.takeWhile_append_dropWhile.symm,
    List.all_eq_true.mp List.all_takeWhile, fun c hc => ?_⟩
  have hstop := List.head?_dropWhile_not kind cs
  rw [Option.mem_def.mp hc] at hstop
  simpa using hstop

namespace Decimal

namespace Fraction

variable {cs : List Char}

theorem exponent?_isSome_iff : (exponent? cs).isSome = true ↔ IsExponent cs := by
  cases cs with
  | nil => exact iff_of_true rfl .nothing
  | cons e rest =>
      simp only [exponent?, Bool.or_eq_true, beq_iff_eq]
      constructor
      · intro h
        split at h
        · next he =>
            obtain ⟨n, hn⟩ := Option.isSome_iff_exists.mp h
            exact .power he (integer?_eq_some_iff.mp hn)
        · cases h
      · intro h
        cases h with
        | power he h => rw [if_pos he, integer?_eq_some_iff.mpr h, Option.isSome_some]

theorem natural?_isSome_iff : (natural? cs).isSome = true ↔ cs ≠ [] ∧ ∀ c ∈ cs, c.isDigit = true := by
  rw [Option.isSome_iff_exists]
  constructor
  · rintro ⟨n, hn⟩
    have h := natural?_eq_some_iff.mp hn
    exact ⟨h.ne_nil, h.digits⟩
  · rintro ⟨hne, hdigits⟩
    exact ⟨_, natural?_eq_some_iff.mpr ⟨hne, hdigits, rfl⟩⟩

theorem splitDigits_append {digits rest : List Char} (hdigits : ∀ c ∈ digits, c.isDigit = true)
    (hrest : ∀ c ∈ rest.head?, c.isDigit = false) : splitDigits (digits ++ rest) = (digits, rest) := by
  have hstop : rest.takeWhile Char.isDigit = [] ∧ rest.dropWhile Char.isDigit = rest := by
    cases rest with
    | nil => exact ⟨rfl, rfl⟩
    | cons c rest => simp [hrest c rfl]
  rw [splitDigits, List.takeWhile_append_of_pos hdigits, List.dropWhile_append_of_pos hdigits, hstop.1, hstop.2,
    List.append_nil]

theorem head_of_isExponent (h : IsExponent cs) : ∀ c ∈ cs.head?, c.isDigit = false ∧ c ≠ '.' := by
  cases h with
  | nothing => exact nofun
  | power he h =>
      rintro c hc
      obtain rfl := Option.some.inj hc
      rcases he with rfl | rfl <;> decide

theorem magnitude?_whole {whole rest : List Char} (hwhole : ∀ c ∈ whole, c.isDigit = true)
    (hrest : ∀ c ∈ rest.head?, c.isDigit = false ∧ c ≠ '.') :
    (magnitude? (whole ++ rest)).isSome = true ↔ (natural? whole).isSome = true ∧ (exponent? rest).isSome = true := by
  have hpart : splitPart rest = ([], rest) := by
    unfold splitPart
    split
    · exact absurd rfl (hrest '.' rfl).2
    · rfl
  simp only [magnitude?, splitDigits_append hwhole fun c hc => (hrest c hc).1, hpart, List.append_nil]
  cases natural? whole <;> cases exponent? rest <;> simp

theorem magnitude?_pointed {whole part rest : List Char} (hdigits : ∀ c ∈ whole ++ part, c.isDigit = true)
    (hrest : ∀ c ∈ rest.head?, c.isDigit = false) :
    (magnitude? (whole ++ '.' :: (part ++ rest))).isSome = true ↔
      (natural? (whole ++ part)).isSome = true ∧ (exponent? rest).isSome = true := by
  have hwhole : splitDigits (whole ++ '.' :: (part ++ rest)) = (whole, '.' :: (part ++ rest)) := by
    refine splitDigits_append (fun c hc => hdigits c (List.mem_append_left part hc)) fun c hc => ?_
    obtain rfl := Option.some.inj hc
    rfl
  have hpart : splitPart ('.' :: (part ++ rest)) = (part, rest) :=
    splitDigits_append (fun c hc => hdigits c (List.mem_append_right whole hc)) hrest
  simp only [magnitude?, hwhole, hpart]
  cases natural? (whole ++ part) <;> cases exponent? rest <;> simp

theorem magnitude?_isSome_iff : (magnitude? cs).isSome = true ↔
    ∃ mantissa exponent, cs = mantissa ++ exponent ∧ IsMantissa mantissa ∧ IsExponent exponent := by
  constructor
  · intro h
    obtain ⟨whole, rest, rfl, hwhole, hrest⟩ := Text.exists_run_append Char.isDigit cs
    by_cases hpoint : ∃ behind, rest = '.' :: behind
    · obtain ⟨behind, rfl⟩ := hpoint
      obtain ⟨part, rest, rfl, hpart, hrest⟩ := Text.exists_run_append Char.isDigit behind
      have hdigits : ∀ c ∈ whole ++ part, c.isDigit = true :=
        List.forall_mem_append.mpr ⟨hwhole, hpart⟩
      obtain ⟨hnatural, hexponent⟩ := (magnitude?_pointed hdigits hrest).mp h
      exact ⟨whole ++ '.' :: part, rest, by simp, .pointed (natural?_isSome_iff.mp hnatural).1 hdigits,
        exponent?_isSome_iff.mp hexponent⟩
    · have hhead : ∀ c ∈ rest.head?, c.isDigit = false ∧ c ≠ '.' := by
        refine fun c hc => ⟨hrest c hc, ?_⟩
        rintro rfl
        cases rest with
        | nil => cases hc
        | cons first behind =>
            obtain rfl := Option.some.inj hc
            exact hpoint ⟨behind, rfl⟩
      obtain ⟨hnatural, hexponent⟩ := (magnitude?_whole hwhole hhead).mp h
      exact ⟨whole, rest, rfl, .whole (natural?_isSome_iff.mp hnatural).1 hwhole,
        exponent?_isSome_iff.mp hexponent⟩
  · rintro ⟨mantissa, exponent, rfl, hmantissa, hexponent⟩
    have hhead := head_of_isExponent hexponent
    cases hmantissa with
    | whole hne hdigits =>
        rw [magnitude?_whole hdigits hhead, natural?_isSome_iff, exponent?_isSome_iff]
        exact ⟨⟨hne, hdigits⟩, hexponent⟩
    | pointed hne hdigits =>
        rw [List.append_assoc, List.cons_append, magnitude?_pointed hdigits fun c hc => (hhead c hc).1,
          natural?_isSome_iff, exponent?_isSome_iff]
        exact ⟨⟨hne, hdigits⟩, hexponent⟩

theorem unsigned?_isSome_iff {negative : Bool} : (unsigned? negative cs).isSome = true ↔ IsMagnitude cs := by
  have hword : (unsigned? negative cs).isSome = true ↔
      String.ofList (cs.map Char.toLower) ∈ ["inf", "infinity", "nan"] ∨ (magnitude? cs).isSome = true := by
    unfold unsigned?
    split
    · next h => simp [h]
    · next h => simp [h]
    · next h => simp [h]
    · next hinf hinfinity hnan =>
        have hnone : String.ofList (cs.map Char.toLower) ∉ ["inf", "infinity", "nan"] := by
          simp only [List.mem_cons, List.not_mem_nil, or_false]
          rintro (h | h | h)
          · exact hinf h
          · exact hinfinity h
          · exact hnan h
        rw [Option.isSome_map, or_iff_right hnone]
  rw [hword, magnitude?_isSome_iff]
  constructor
  · rintro (h | ⟨mantissa, exponent, rfl, hmantissa, hexponent⟩)
    · exact .word h
    · exact .numeral hmantissa hexponent
  · rintro (⟨hmantissa, hexponent⟩ | h)
    · exact .inr ⟨_, _, rfl, hmantissa, hexponent⟩
    · exact .inl h

theorem exists_head_of_isMantissa {mantissa : List Char} (h : IsMantissa mantissa) :
    ∃ c ∈ mantissa.head?, c.isDigit = true ∨ c = '.' := by
  cases h with
  | @whole digits hne h =>
      cases mantissa with
      | nil => exact absurd rfl hne
      | cons c rest => exact ⟨c, rfl, .inl (h c List.mem_cons_self)⟩
  | @pointed whole part hne h =>
      cases whole with
      | nil => exact ⟨'.', rfl, .inr rfl⟩
      | cons c rest => exact ⟨c, rfl, .inl (h c List.mem_cons_self)⟩

/-- A magnitude has no sign of its own. -/
theorem head_of_isMagnitude {c : Char} (h : IsMagnitude (c :: cs)) : c ≠ '+' ∧ c ≠ '-' := by
  have hhead : c.isDigit = true ∨ c = '.' ∨ c.toLower = 'i' ∨ c.toLower = 'n' := by
    generalize htext : c :: cs = text at h
    cases h with
    | @numeral mantissa exponent hmantissa =>
        obtain ⟨first, hfirst, hdigit⟩ := exists_head_of_isMantissa hmantissa
        have hc : (mantissa ++ exponent).head? = some first := by
          rw [List.head?_append, hfirst, Option.some_or]
        rw [← htext] at hc
        obtain rfl := Option.some.inj hc
        exact hdigit.imp_right .inl
    | word h =>
        rw [← htext, List.map_cons] at h
        have hfirst : ∀ s ∈ ["inf", "infinity", "nan"], s.toList.head? = some 'i' ∨ s.toList.head? = some 'n' := by
          decide
        have hlower := hfirst _ h
        rw [String.toList_ofList, List.head?_cons, Option.some.injEq, Option.some.injEq] at hlower
        exact .inr (.inr hlower)
  constructor <;> rintro rfl <;> revert hhead <;> decide

theorem read?_isSome_iff : (read? cs).isSome = true ↔ IsFraction cs := by
  unfold read?
  split
  · next rest =>
      rw [unsigned?_isSome_iff]
      constructor
      · exact .signed (.inr rfl)
      · rintro (h | ⟨-, h⟩)
        · exact absurd rfl (head_of_isMagnitude h).2
        · exact h
  · next rest =>
      rw [unsigned?_isSome_iff]
      constructor
      · exact .signed (.inl rfl)
      · rintro (h | ⟨-, h⟩)
        · exact absurd rfl (head_of_isMagnitude h).1
        · exact h
  · next hminus hplus =>
      rw [unsigned?_isSome_iff]
      constructor
      · exact .bare
      · rintro (h | ⟨rfl | rfl, -⟩)
        · exact h
        · exact absurd rfl (hplus _)
        · exact absurd rfl (hminus _)

end Fraction

end Decimal

end Menagerie
