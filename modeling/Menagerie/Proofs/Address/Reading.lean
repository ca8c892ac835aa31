import Menagerie.Address.Printer
import Menagerie.Address.Reader

/-! Numbers, addresses of version four and groups of version six are read as they are printed, in front of
anything that cannot go on with them. -/

namespace Menagerie.Address

variable {radix bound n count : Nat} {rest : List Char}

/-! ### Numbers -/

/-- Nothing that begins like this goes on with the digits in front of it. -/
def EndsDigits (radix : Nat) (rest : List Char) : Prop := ∀ c ∈ rest.head?, digitOf? radix c = none

theorem digitOf?_digitChar (h : n < radix) (hradix : radix ≤ 16) : digitOf? radix n.digitChar = some n := by
  have hvalue : ∀ m < 16, digitOf? 16 m.digitChar = some m := by decide
  have hsixteen := hvalue n (by omega)
  simp only [digitOf?, Option.filter_eq_some_iff, decide_eq_true_eq] at hsixteen ⊢
  exact ⟨hsixteen.1, h⟩

theorem readDigits_of_ends (h : EndsDigits radix rest) : readDigits radix n count rest = ((n, count), rest) := by
  cases rest with
  | nil => rfl
  | cons c rest => rw [readDigits, h c rfl]

/-- The digits of a number are read as it. -/
theorem readDigits_toDigits (hradix : 1 < radix ∧ radix ≤ 16) (m : Nat) (rest : List Char) :
    readDigits radix 0 0 (Nat.toDigits radix m ++ rest) =
      readDigits radix m (Nat.toDigits radix m).length rest := by
  obtain ⟨hmin, hmax⟩ := hradix
  -- The induction is on the number without its last digit, with that digit in front of the rest.
  induction m using Nat.strongRecOn generalizing rest with
  | ind m ih =>
      rw [Nat.toDigits_eq_if hmin]
      split
      · next hsmall =>
          rw [List.singleton_append, readDigits, digitOf?_digitChar hsmall hmax]
          simp
      · next hlarge =>
          have hless : m / radix < m := Nat.div_lt_self (by omega) hmin
          have hlast : m % radix < radix := Nat.mod_lt m (by omega)
          rw [List.append_assoc, ih _ hless, List.singleton_append, readDigits, digitOf?_digitChar hlast hmax]
          simp only [Nat.div_add_mod, List.length_append, List.length_singleton]

theorem head?_toDigits_append (radix n : Nat) (rest : List Char) :
    (Nat.toDigits radix n ++ rest).head? = (Nat.toDigits radix n).head? := by
  cases hdigits : Nat.toDigits radix n with
  | nil => exact absurd hdigits Nat.toDigits_ne_nil
  | cons c digits => rfl

theorem head?_toDigits_ten (h : (Nat.toDigits 10 n).head? = some '0') : n = 0 := by
  induction n using Nat.strongRecOn with
  | ind n ih =>
      rw [Nat.toDigits_eq_if (by decide)] at h
      split at h
      · simpa using h
      · next hlarge =>
          rw [head?_toDigits_append] at h
          have hzero := ih (n / 10) (by omega) h
          omega

/-- A number is read from its digits if it is below the bound and has no more digits than may be. -/
theorem readNumber_toDigits {most : Option Nat} {zeroPrefix : Bool} (hradix : 1 < radix ∧ radix ≤ 16)
    (hbound : n < bound) (hmost : ∀ k ∈ most, 0 < k ∧ n < Nat.pow radix k) (hzero : zeroPrefix = true ∨ radix = 10)
    (hrest : EndsDigits radix rest) :
    readNumber radix bound most zeroPrefix (Nat.toDigits radix n ++ rest) = some (n, rest) := by
  have hpos : (Nat.toDigits radix n).length ≠ 0 := Nat.pos_iff_ne_zero.mp Nat.length_toDigits_pos
  have hfew : most.any (· < (Nat.toDigits radix n).length) = false := by
    cases most with
    | none => rfl
    | some k =>
        obtain ⟨hk, hn⟩ := hmost k rfl
        have hlength := (Nat.length_toDigits_le_iff hradix.1 hk).mpr hn
        simpa using hlength
  have hprefix : ¬(!zeroPrefix ∧ (Nat.toDigits radix n ++ rest).head? = some '0' ∧
      1 < (Nat.toDigits radix n).length) := by
    rintro ⟨hno, hhead, hlong⟩
    rcases hzero with rfl | rfl
    · cases hno
    · rw [head?_toDigits_append] at hhead
      rw [head?_toDigits_ten hhead, Nat.toDigits_zero] at hlong
      simp at hlong
  simp only [readNumber, readDigits_toDigits hradix, readDigits_of_ends hrest]
  rw [if_neg]
  simp only [hfew, Bool.false_eq_true, not_or]
  exact ⟨hpos, not_false, hprefix, Nat.not_le_of_lt hbound⟩

/-- Without a digit in front there is no number. -/
theorem readNumber_of_ends {most : Option Nat} {zeroPrefix : Bool} (h : EndsDigits radix rest) :
    readNumber radix bound most zeroPrefix rest = none := by
  simp [readNumber, readDigits_of_ends h]

theorem readChar_cons (c : Char) (rest : List Char) : readChar c (c :: rest) = some ((), rest) := by
  rw [readChar, if_pos rfl]

theorem readChar_of_head {c : Char} (h : ∀ d ∈ rest.head?, d ≠ c) : readChar c rest = none := by
  cases rest with
  | nil => rfl
  | cons d rest => rw [readChar, if_neg (h d rfl)]

/-! ### Addresses of version four -/

theorem readNumber_octet (b : UInt8) (hrest : EndsDigits 10 rest) :
    readNumber 10 256 (some 3) false (Nat.toDigits 10 b.toNat ++ rest) = some (b.toNat, rest) := by
  have hb := b.toNat_lt
  have hmost : ∀ k ∈ some 3, 0 < k ∧ b.toNat < Nat.pow 10 k := by
    rintro k ⟨⟩
    exact ⟨by decide, Nat.lt_of_lt_of_le hb (by decide)⟩
  exact readNumber_toDigits (by decide) hb hmost (.inr rfl) hrest

theorem toList_print_ip4 (ip : Ip4) :
    ip.print.toList = Nat.toDigits 10 ip.a.toNat ++ '.' :: (Nat.toDigits 10 ip.b.toNat ++ '.' ::
      (Nat.toDigits 10 ip.c.toNat ++ '.' :: Nat.toDigits 10 ip.d.toNat)) := by
  have hdot : (toString ".").toList = ['.'] := rfl
  simp [Ip4.print, hdot]

theorem endsDigits_cons {c : Char} (h : digitOf? radix c = none) (rest : List Char) :
    EndsDigits radix (c :: rest) := by
  rintro d ⟨⟩
  exact h

theorem readIp4_print (ip : Ip4) (hrest : EndsDigits 10 rest) :
    readIp4 (ip.print.toList ++ rest) = some (ip, rest) := by
  have hdot : ∀ more, EndsDigits 10 ('.' :: more) := endsDigits_cons rfl
  simp only [toList_print_ip4, List.append_assoc, List.cons_append]
  simp only [readIp4, readNumber_octet _ (hdot _), readNumber_octet _ hrest, readChar_cons, Option.bind_eq_bind,
    Option.bind_some, UInt8.ofNat_toNat]

/-- There is no address of version four where no point follows the digits. -/
theorem readIp4_of_no_point {cs : List Char} (h : ∀ c ∈ (readDigits 10 0 0 cs).2.head?, c ≠ '.') :
    readIp4 cs = none := by
  have hoctet : ∀ r, readNumber 10 256 (some 3) false cs = some r → readChar '.' r.2 = none := by
    intro r hr
    simp only [readNumber] at hr
    split at hr
    · cases hr
    · obtain rfl := Option.some.inj hr
      exact readChar_of_head h
  cases hr : readNumber 10 256 (some 3) false cs with
  | none => simp [readIp4, hr]
  | some r => simp [readIp4, hr, hoctet r hr]

/-! ### Groups of version six -/

theorem readDigits_head {front : List Char} (hfront : ∀ c ∈ front, c ≠ '.')
    (hrest : EndsDigits 10 rest ∧ ∀ c ∈ rest.head?, c ≠ '.') :
    ∀ c ∈ (readDigits 10 n count (front ++ rest)).2.head?, c ≠ '.' := by
  induction front generalizing n count with
  | nil =>
      rw [List.nil_append, readDigits_of_ends hrest.1]
      exact hrest.2
  | cons c front ih =>
      obtain ⟨hc, hfront⟩ := List.forall_mem_cons.mp hfront
      rw [List.cons_append, readDigits]
      split
      · exact ih hfront
      · rintro d ⟨⟩
        exact hc

/-- What ends groups: no digit, no point, and behind a colon no digit either. -/
structure EndsGroups (rest : List Char) : Prop where
  digits : EndsDigits 16 rest
  point : ∀ c ∈ rest.head?, c ≠ '.'
  colon : ∀ more, rest = ':' :: more → EndsDigits 16 more

theorem EndsDigits.decimal (h : EndsDigits 16 rest) : EndsDigits 10 rest := by
  intro c hc
  have hnone := h c hc
  simp only [digitOf?, Option.filter_eq_none_iff, decide_eq_true_eq] at hnone ⊢
  intro d hd hless
  exact hnone d hd (by omega)

/-- The groups of an address with a colon in front of each. -/
def colonGroups (gs : List UInt16) : List Char := gs.flatMap fun g => ':' :: Nat.toDigits 16 g.toNat

theorem toList_printGroups_cons (g : UInt16) (gs : List UInt16) :
    (Ip6.printGroups (g :: gs)).toList = Nat.toDigits 16 g.toNat ++ colonGroups gs := by
  have hcolon : ":".toList = [':'] := rfl
  rw [Ip6.printGroups, String.toList_intercalate, hcolon, List.map_map]
  induction gs generalizing g with
  | nil => simp [Text.hexadecimal, colonGroups]
  | cons g' gs ih =>
      rw [List.map_cons, List.map_cons, List.intercalate_cons_cons, ← List.map_cons, ih]
      simp [Text.hexadecimal, colonGroups]

theorem exists_digitChar_of_mem_toDigits {c : Char} (hradix : 1 < radix) (h : c ∈ Nat.toDigits radix n) :
    ∃ d, c = Nat.digitChar d := by
  induction n using Nat.strongRecOn with
  | ind n ih =>
      rw [Nat.toDigits_eq_if hradix] at h
      split at h
      · exact ⟨n, List.mem_singleton.mp h⟩
      · next hlarge =>
          rcases List.mem_append.mp h with h | h
          · exact ih (n / radix) (Nat.div_lt_self (by omega) hradix) h
          · exact ⟨n % radix, List.mem_singleton.mp h⟩

/-- A group is no address of version four, since no point follows its digits. -/
theorem readIp4_group (g : UInt16) (hrest : EndsDigits 16 rest ∧ ∀ c ∈ rest.head?, c ≠ '.') :
    readIp4 (Nat.toDigits 16 g.toNat ++ rest) = none := by
  refine readIp4_of_no_point (readDigits_head ?_ ⟨hrest.1.decimal, hrest.2⟩)
  intro c hc
  obtain ⟨d, rfl⟩ := exists_digitChar_of_mem_toDigits (by decide) hc
  exact Nat.digitChar_ne '.' (by decide)

theorem readIp4_of_ends (h : EndsDigits 10 rest) : readIp4 rest = none := by
  simp [readIp4, readNumber_of_ends h]

theorem readNumber_group (g : UInt16) (hrest : EndsDigits 16 rest) :
    readNumber 16 65536 (some 4) true (Nat.toDigits 16 g.toNat ++ rest) = some (g.toNat, rest) := by
  have hg := g.toNat_lt
  have hmost : ∀ k ∈ some 4, 0 < k ∧ g.toNat < Nat.pow 16 k := by
    rintro k ⟨⟩
    exact ⟨by decide, hg⟩
  exact readNumber_toDigits (by decide) hg hmost (.inl rfl) hrest

/-- What stands in front of an item of a row. -/
def lead (first : Bool) : List Char := if first then [] else [':']

theorem afterColon_lead {α : Type} (first : Bool) (read : Reader α) (cs : List Char) :
    afterColon first read (lead first ++ cs) = read cs := by
  cases first with
  | true => rfl
  | false => simp [afterColon, lead, readChar_cons]

/-- Nothing follows the row where there is no digit behind a colon, or at first without one. -/
theorem afterColon_of_ends {α : Type} {first : Bool} {read : Reader α} (hrest : EndsGroups rest)
    (hread : ∀ cs, EndsDigits 16 cs → read cs = none) : afterColon first read rest = none := by
  cases first with
  | true => exact hread rest hrest.digits
  | false =>
      simp only [afterColon, Bool.false_eq_true, if_false]
      cases rest with
      | nil => rfl
      | cons c more =>
          by_cases hc : c = ':'
          · subst hc
            rw [readChar_cons, Option.bind_some]
            exact hread more (hrest.colon more rfl)
          · rw [readChar_of_head (by rintro d ⟨⟩; exact hc)]
            rfl

theorem readGroups_of_ends (first : Bool) (room : Nat) (hrest : EndsGroups rest) :
    readGroups first room rest = (([], false), rest) := by
  cases room with
  | zero => rfl
  | succ room =>
      have hip4 : afterColon first readIp4 rest = none :=
        afterColon_of_ends hrest fun cs hcs => readIp4_of_ends hcs.decimal
      have hgroup : afterColon first (readNumber 16 65536 (some 4) true) rest = none :=
        afterColon_of_ends hrest fun cs hcs => readNumber_of_ends hcs
      simp only [readGroups, hip4, hgroup, ite_self]

/-- One group is read, and then those behind it. -/
theorem readGroups_group (first : Bool) (g : UInt16) {room : Nat} {gs : List UInt16} {dotted : Bool}
    {behind : List Char}
    (hrest : EndsDigits 16 rest ∧ ∀ c ∈ rest.head?, c ≠ '.')
    (h : readGroups false room rest = ((gs, dotted), behind)) :
    readGroups first (room + 1) (lead first ++ (Nat.toDigits 16 g.toNat ++ rest)) =
      ((g :: gs, dotted), behind) := by
  simp only [readGroups, afterColon_lead, readIp4_group g hrest, readNumber_group g hrest.1, ite_self, h,
    UInt16.ofNat_toNat]

theorem colonGroups_ends (gs : List UInt16) (hrest : EndsGroups rest) :
    EndsDigits 16 (colonGroups gs ++ rest) ∧ ∀ c ∈ (colonGroups gs ++ rest).head?, c ≠ '.' := by
  cases gs with
  | nil => exact ⟨hrest.digits, hrest.point⟩
  | cons g gs =>
      refine ⟨endsDigits_cons rfl _, ?_⟩
      rintro c ⟨⟩
      decide

theorem readGroups_colonGroups (gs : List UInt16) {room : Nat} (hroom : gs.length ≤ room) (hrest : EndsGroups rest) :
    readGroups false room (colonGroups gs ++ rest) = ((gs, false), rest) := by
  induction gs generalizing room with
  | nil => exact readGroups_of_ends false room hrest
  | cons g gs ih =>
      obtain ⟨room, rfl⟩ : ∃ k, room = k + 1 := ⟨room - 1, by rw [List.length_cons] at hroom; omega⟩
      have htext : colonGroups (g :: gs) ++ rest =
          lead false ++ (Nat.toDigits 16 g.toNat ++ (colonGroups gs ++ rest)) := by
        simp [colonGroups, lead]
      rw [htext]
      exact readGroups_group _ g (colonGroups_ends gs hrest) (ih (Nat.le_of_succ_le_succ hroom))

/-- Groups are read as they are printed. -/
theorem readGroups_printGroups (gs : List UInt16) {room : Nat} (hroom : gs.length ≤ room) (hrest : EndsGroups rest) :
    readGroups true room ((Ip6.printGroups gs).toList ++ rest) = ((gs, false), rest) := by
  cases gs with
  | nil =>
      have hnone : (Ip6.printGroups []).toList = [] := rfl
      rw [hnone]
      exact readGroups_of_ends true room hrest
  | cons g gs =>
      obtain ⟨room, rfl⟩ : ∃ k, room = k + 1 := ⟨room - 1, by rw [List.length_cons] at hroom; omega⟩
      have hbehind := readGroups_colonGroups gs (Nat.le_of_succ_le_succ hroom) hrest
      rw [toList_printGroups_cons, List.append_assoc]
      exact readGroups_group _ g (colonGroups_ends gs hrest) hbehind

/-- An address of version four stands for two groups behind others. -/
theorem readGroups_ip4 (room : Nat) (ip : Ip4) (hrest : EndsDigits 10 rest) :
    readGroups false (room + 2) (':' :: (ip.print.toList ++ rest)) =
      (([UInt16.ofNat (256 * ip.a.toNat + ip.b.toNat), UInt16.ofNat (256 * ip.c.toNat + ip.d.toNat)], true), rest) := by
  have hip : afterColon false readIp4 (':' :: (ip.print.toList ++ rest)) = some (ip, rest) := by
    have hlead := afterColon_lead false readIp4 (ip.print.toList ++ rest)
    rwa [readIp4_print ip hrest] at hlead
  have hroom : room + 1 ≠ 0 := Nat.succ_ne_zero room
  simp only [readGroups, if_neg hroom, hip]

end Menagerie.Address
