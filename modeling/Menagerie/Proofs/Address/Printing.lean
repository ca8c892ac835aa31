import Mathlib.Data.List.Infix
import Menagerie.Proofs.Address.Reading
import Menagerie.StartupError

/-! An address is read again from its text, whatever its numbers are. The text of an address of version six depends
on its zeros: the first longest run of at least two zero groups is left out, and the length of what is written
tells how many groups it had. So an error about an address tells which one it was. -/

namespace Menagerie

/-! ### How addresses of version six are written -/

/-- The groups of an address of version six that maps one of version four. -/
def Ip4.mapping (ip : Ip4) : List UInt16 :=
  [0, 0, 0, 0, 0, 0xffff, UInt16.ofNat (256 * ip.a.toNat + ip.b.toNat), UInt16.ofNat (256 * ip.c.toNat + ip.d.toNat)]

namespace Ip6

/-- Between `front` and `back` stands the first longest run of zeros among some groups. -/
structure IsFirstLongest (groups front : List UInt16) (n : Nat) (back : List UInt16) : Prop where
  split : groups = front ++ List.replicate n 0 ++ back
  longest : ∀ front' m back', groups = front' ++ List.replicate m 0 ++ back' → m ≤ n
  first : ∀ front' back', groups = front' ++ List.replicate n 0 ++ back' → front.length ≤ front'.length

/-- How groups are written: as an address of version four if they map one; without two zeros in a row, all of
them; else with two colons for the first longest run of zeros. -/
inductive IsWritten : List UInt16 → String → Prop
  | mapped (ip : Ip4) : IsWritten ip.mapping ("::ffff:" ++ ip.print)
  | plain {groups : List UInt16} (hmapped : ∀ ip : Ip4, groups ≠ ip.mapping) (hzeros : ¬[0, 0] <:+: groups) :
    IsWritten groups (printGroups groups)
  | compressed {groups front back : List UInt16} {n : Nat} (hmapped : ∀ ip : Ip4, groups ≠ ip.mapping)
    (hn : 2 ≤ n) (h : IsFirstLongest groups front n back) :
    IsWritten groups (printGroups front ++ "::" ++ printGroups back)

variable {groups front back : List UInt16} {n : Nat} {ip : Ip6} {ip4 : Ip4} {s : String} {rest : List Char}

theorem mapped?_mapping (ip : Ip4) : mapped? ip.mapping = some ip := by
  obtain ⟨a, b, c, d⟩ := ip
  have hpair : ∀ x y : UInt8, (UInt16.ofNat (256 * x.toNat + y.toNat)).toNat = 256 * x.toNat + y.toNat := by
    intro x y
    have hx := x.toNat_lt
    have hy := y.toNat_lt
    rw [UInt16.toNat_ofNat']
    omega
  have hhigh : ∀ x y : UInt8, UInt8.ofNat ((256 * x.toNat + y.toNat) / 256) = x := by
    intro x y
    have hy := y.toNat_lt
    rw [show (256 * x.toNat + y.toNat) / 256 = x.toNat by omega, UInt8.ofNat_toNat]
  have hlow : ∀ x y : UInt8, UInt8.ofNat ((256 * x.toNat + y.toNat) % 256) = y := by
    intro x y
    have hy := y.toNat_lt
    rw [show (256 * x.toNat + y.toNat) % 256 = y.toNat by omega, UInt8.ofNat_toNat]
  simp only [Ip4.mapping, mapped?, hpair, hhigh, hlow]

theorem mapped?_eq_some_iff : mapped? groups = some ip4 ↔ groups = ip4.mapping := by
  constructor
  · intro h
    have hpair : ∀ g : UInt16, UInt16.ofNat (256 * (UInt8.ofNat (g.toNat / 256)).toNat +
        (UInt8.ofNat (g.toNat % 256)).toNat) = g := by
      intro g
      have hg := g.toNat_lt
      rw [UInt8.toNat_ofNat', UInt8.toNat_ofNat', ← UInt16.toNat_inj, UInt16.toNat_ofNat']
      omega
    unfold mapped? at h
    split at h
    · obtain rfl := Option.some.inj h
      simp only [Ip4.mapping, hpair]
    · cases h
  · rintro rfl
    exact mapped?_mapping ip4

/-! ### The first longest run of zeros -/

theorem exists_leadingZeros (groups : List UInt16) :
    ∃ back, groups = List.replicate (leadingZeros groups) 0 ++ back := by
  induction groups with
  | nil => exact ⟨[], rfl⟩
  | cons g groups ih =>
      obtain ⟨back, hback⟩ := ih
      by_cases hg : g = 0
      · subst hg
        refine ⟨back, ?_⟩
        rw [leadingZeros, if_pos rfl, List.replicate_succ, List.cons_append, ← hback]
      · exact ⟨g :: groups, by rw [leadingZeros, if_neg hg]; rfl⟩

theorem le_leadingZeros (n : Nat) (back : List UInt16) : n ≤ leadingZeros (List.replicate n 0 ++ back) := by
  induction n with
  | zero => exact Nat.zero_le _
  | succ n ih =>
      rw [List.replicate_succ, List.cons_append, leadingZeros, if_pos rfl]
      exact Nat.succ_le_succ ih

/-- The run that is found is the first longest one. -/
theorem exists_isFirstLongest (start : Nat) (groups : List UInt16) :
    ∃ front back, (longestZeros start groups).1 = start + front.length ∧
      IsFirstLongest groups front (longestZeros start groups).2 back := by
  induction groups generalizing start with
  | nil =>
      refine ⟨[], [], rfl, rfl, fun front m back h => ?_, fun _ _ _ => Nat.zero_le _⟩
      have hlength := congrArg List.length h
      simp only [List.length_nil, List.length_append, List.length_replicate] at hlength
      simp only [longestZeros]
      omega
  | cons g groups ih =>
      obtain ⟨front, back, hstart, hsplit, hlongest, hfirst⟩ := ih (start + 1)
      by_cases hlater : (longestZeros (start + 1) groups).2 ≤ leadingZeros (g :: groups)
      -- No run behind the first group is longer than the one that the first group begins.
      · obtain ⟨back', hback⟩ := exists_leadingZeros (g :: groups)
        rw [longestZeros, if_pos hlater]
        refine ⟨[], back', rfl, hback, fun front' m back' h => ?_, fun _ _ _ => Nat.zero_le _⟩
        cases front' with
        | nil =>
            rw [h]
            exact le_leadingZeros m back'
        | cons g' front' =>
            exact Nat.le_trans (hlongest front' m back' (List.cons.inj h).2) hlater
      · rw [longestZeros, if_neg hlater]
        refine ⟨g :: front, back, ?_, ?_, fun front' m back' h => ?_, fun front' back' h => ?_⟩
        · rw [hstart, List.length_cons]
          omega
        · rw [List.cons_append, List.cons_append, ← hsplit]
        · cases front' with
          | nil =>
              have hle := le_leadingZeros m back'
              rw [← List.nil_append (List.replicate m 0), ← h] at hle
              omega
          | cons g' front' => exact hlongest front' m back' (List.cons.inj h).2
        · cases front' with
          | nil =>
              have hle := le_leadingZeros (longestZeros (start + 1) groups).2 back'
              rw [← List.nil_append (List.replicate _ 0), ← h] at hle
              exact absurd hle hlater
          | cons g' front' => exact Nat.succ_le_succ (hfirst front' back' (List.cons.inj h).2)

/-- There is one first longest run. -/
theorem IsFirstLongest.unique {front' back' : List UInt16} {m : Nat} (h : IsFirstLongest groups front n back)
    (h' : IsFirstLongest groups front' m back') : front = front' ∧ n = m ∧ back = back' := by
  obtain rfl : n = m := Nat.le_antisymm (h'.longest _ _ _ h.split) (h.longest _ _ _ h'.split)
  have hlength : front.length = front'.length :=
    Nat.le_antisymm (h.first _ _ h'.split) (h'.first _ _ h.split)
  have hsplit := h.split.symm.trans h'.split
  rw [List.append_assoc, List.append_assoc] at hsplit
  obtain ⟨hfront, hbehind⟩ := List.append_inj hsplit hlength
  exact ⟨hfront, rfl, List.append_cancel_left hbehind⟩

/-- Two zeros stand in a row exactly if the longest run of zeros has two or more. -/
theorem IsFirstLongest.two_le_iff (h : IsFirstLongest groups front n back) : 2 ≤ n ↔ [0, 0] <:+: groups := by
  constructor
  · intro hn
    obtain ⟨k, rfl⟩ : ∃ k, n = 2 + k := ⟨n - 2, by omega⟩
    refine ⟨front, List.replicate k 0 ++ back, ?_⟩
    rw [h.split, List.replicate_add]
    simp
  · rintro ⟨front', back', hsplit⟩
    exact h.longest front' 2 back' hsplit.symm

theorem exists_isFirstLongest_print (ip : Ip6) : ∃ front n back, IsFirstLongest ip.groups front n back ∧
    (mapped? ip.groups = none → ip.print =
      if n < 2 then printGroups ip.groups else printGroups front ++ "::" ++ printGroups back) := by
  obtain ⟨front, back, hstart, h⟩ := exists_isFirstLongest 0 ip.groups
  rw [Nat.zero_add] at hstart
  refine ⟨front, _, back, h, fun hmapped => ?_⟩
  simp only [print, hmapped]
  generalize longestZeros 0 ip.groups = found at hstart h
  have hsplit := h.split
  have hfront : ip.groups.take found.1 = front := by
    rw [hsplit, hstart, List.append_assoc, List.take_left]
  have hback : ip.groups.drop (found.1 + found.2) = back := by
    have hlength : found.1 + found.2 = (front ++ List.replicate found.2 (0 : UInt16)).length := by
      rw [hstart, List.length_append, List.length_replicate]
    rw [hlength]
    conv_lhs => rw [hsplit, List.drop_left]
  rw [hfront, hback]

/-- An address is written in one way, and so it is printed. -/
theorem isWritten_iff : IsWritten ip.groups s ↔ ip.print = s := by
  have hnone : (∀ ip4 : Ip4, ip.groups ≠ ip4.mapping) ↔ mapped? ip.groups = none := by
    rw [Option.eq_none_iff_forall_ne_some]
    exact forall_congr' fun ip4 => not_congr mapped?_eq_some_iff.symm
  obtain ⟨front, n, back, hrun, hprint⟩ := exists_isFirstLongest_print ip
  constructor
  · intro h
    generalize hgroups : ip.groups = groups at h
    cases h with
    | mapped ip4 =>
        have hmapped := mapped?_eq_some_iff.mpr hgroups
        simp only [print, hmapped]
    | plain hmapped hzeros =>
        subst hgroups
        rw [hprint (hnone.mp hmapped), if_pos (Nat.lt_of_not_le (mt hrun.two_le_iff.mp hzeros))]
    | compressed hmapped hn h =>
        subst hgroups
        obtain ⟨rfl, rfl, rfl⟩ := hrun.unique h
        rw [hprint (hnone.mp hmapped), if_neg (Nat.not_lt_of_le hn)]
  · rintro rfl
    cases hmapped : mapped? ip.groups with
    | some ip4 =>
        have hgroups := mapped?_eq_some_iff.mp hmapped
        simp only [print, hmapped]
        rw [hgroups]
        exact .mapped ip4
    | none =>
        rw [hprint hmapped]
        split
        · next hn => exact .plain (hnone.mpr hmapped) (mt hrun.two_le_iff.mpr (Nat.not_le_of_lt hn))
        · next hn => exact .compressed (hnone.mpr hmapped) (Nat.le_of_not_lt hn) hrun

end Ip6

/-! ### Addresses as they are read -/

namespace Address

variable {rest : List Char}

theorem endsGroups_colons (rest : List Char) : EndsGroups (':' :: ':' :: rest) where
  digits := endsDigits_cons rfl _
  point := by
    rintro c ⟨⟩
    decide
  colon := by
    rintro more ⟨⟩
    exact endsDigits_cons rfl _

theorem endsGroups_cons {c : Char} (hdigit : digitOf? 16 c = none) (hpoint : c ≠ '.') (hcolon : c ≠ ':')
    (rest : List Char) : EndsGroups (c :: rest) where
  digits := endsDigits_cons hdigit _
  point := by
    rintro d ⟨⟩
    exact hpoint
  colon := fun more h => absurd (List.cons.inj h).1 hcolon

/-- Behind two colons the number of zeros follows from that of the groups around them. -/
theorem readIp6_colons {cs behind : List Char} {head tail : List UInt16} {dotted : Bool}
    (hhead : readGroups true 8 cs = ((head, false), ':' :: ':' :: behind)) (hlength : head.length < 8)
    (htail : readGroups true (7 - head.length) behind = ((tail, dotted), rest)) :
    readIp6 cs =
      (Ip6.ofGroups? (head ++ List.replicate (8 - head.length - tail.length) 0 ++ tail)).map (·, rest) := by
  simp only [readIp6, hhead, if_neg (Nat.ne_of_lt hlength), readChar_cons, htail, Option.bind_eq_bind,
    Option.bind_some, Bool.false_eq_true, if_false]

theorem ofGroups?_groups (ip : Ip6) : Ip6.ofGroups? ip.groups = some ip := by
  rw [Ip6.ofGroups?, dif_pos ip.length_groups]

/-- The text of a mapped address has one group and a dotted form behind the colons. -/
theorem readIp6_mapping (ip4 : Ip4) (hrest : EndsGroups rest) :
    readIp6 (("::ffff:" ++ ip4.print).toList ++ rest) = (Ip6.ofGroups? ip4.mapping).map (·, rest) := by
  have htext : ("::ffff:" ++ ip4.print).toList ++ rest =
      ':' :: ':' :: (lead true ++ (Nat.toDigits 16 (65535 : UInt16).toNat ++ ':' :: (ip4.print.toList ++ rest))) := by
    have hffff : Nat.toDigits 16 (65535 : UInt16).toNat = ['f', 'f', 'f', 'f'] := by decide +kernel
    have hfront : "::ffff:".toList = [':', ':', 'f', 'f', 'f', 'f', ':'] := rfl
    rw [String.toList_append, hffff, hfront]
    rfl
  have hpoint : ∀ c ∈ (':' :: (ip4.print.toList ++ rest)).head?, c ≠ '.' := by
    rintro c ⟨⟩
    decide
  have hrow := readGroups_group true 65535 ⟨endsDigits_cons rfl (ip4.print.toList ++ rest), hpoint⟩
    (readGroups_ip4 4 ip4 hrest.digits.decimal)
  rw [htext, readIp6_colons (readGroups_of_ends true 8 (endsGroups_colons _)) (by decide) hrow]
  rfl

theorem readIp6_print (ip : Ip6) (hrest : EndsGroups rest) :
    readIp6 (ip.print.toList ++ rest) = some (ip, rest) := by
  have hprint : Ip6.IsWritten ip.groups ip.print := Ip6.isWritten_iff.mpr rfl
  have height := ip.length_groups
  have hip := ofGroups?_groups ip
  generalize ip.print = s at hprint
  generalize ip.groups = groups at hprint height hip
  cases hprint with
  | mapped ip4 => rw [readIp6_mapping ip4 hrest, hip, Option.map_some]
  | plain hmapped hzeros =>
      have hrow := readGroups_printGroups groups (Nat.le_of_eq height) hrest
      simp only [readIp6, hrow, height, if_true, hip, Option.map_some]
  | @compressed groups front back n hmapped hn h =>
      have hsplit := h.split
      have hlengths : front.length + n + back.length = 8 := by
        rw [← height, hsplit, List.length_append, List.length_append, List.length_replicate]
      have htext : (Ip6.printGroups front ++ "::" ++ Ip6.printGroups back).toList ++ rest =
          (Ip6.printGroups front).toList ++ (':' :: ':' :: ((Ip6.printGroups back).toList ++ rest)) := by
        simp only [String.toList_append, List.append_assoc]
        rfl
      have hhead := readGroups_printGroups front (show front.length ≤ 8 by omega)
        (endsGroups_colons ((Ip6.printGroups back).toList ++ rest))
      have htail := readGroups_printGroups back (show back.length ≤ 7 - front.length by omega) hrest
      have hzeros : 8 - front.length - back.length = n := by omega
      rw [htext, readIp6_colons hhead (by omega) htail, hzeros, ← hsplit, hip, Option.map_some]

/-! ### Ports and scopes -/

theorem readPort_print (port : UInt16) (hrest : EndsDigits 10 rest) :
    readPort (':' :: (Nat.toDigits 10 port.toNat ++ rest)) = some (port, rest) := by
  have hnumber : readNumber 10 65536 none true (Nat.toDigits 10 port.toNat ++ rest) = some (port.toNat, rest) := by
    have hmost : ∀ k ∈ (none : Option Nat), 0 < k ∧ port.toNat < Nat.pow 10 k := by
      rintro k ⟨⟩
    exact readNumber_toDigits (by decide) port.toNat_lt hmost (.inl rfl) hrest
  simp only [readPort, readChar_cons, hnumber, Option.bind_eq_bind, Option.bind_some, UInt16.ofNat_toNat]

/-- The text of a scope; there is none for the scope zero. -/
def scopeText (scope : UInt32) : List Char := if scope = 0 then [] else '%' :: Nat.toDigits 10 scope.toNat

theorem readScope_scopeText (scope : UInt32) (rest : List Char) :
    readScope (scopeText scope ++ ']' :: rest) = some (scope, ']' :: rest) := by
  unfold scopeText
  split
  · next hzero =>
      rw [hzero]
      rfl
  · have hnumber : readNumber 10 UInt32.size none true (Nat.toDigits 10 scope.toNat ++ ']' :: rest) =
        some (scope.toNat, ']' :: rest) := by
      have hmost : ∀ k ∈ (none : Option Nat), 0 < k ∧ scope.toNat < Nat.pow 10 k := by
        rintro k ⟨⟩
      exact readNumber_toDigits (by decide) scope.toNat_lt_size hmost (.inl rfl) (endsDigits_cons rfl rest)
    simp only [List.cons_append, readScope, readChar_cons, hnumber, UInt32.ofNat_toNat]

theorem endsGroups_scopeText (scope : UInt32) (rest : List Char) : EndsGroups (scopeText scope ++ ']' :: rest) := by
  unfold scopeText
  split
  · exact endsGroups_cons rfl (by decide) (by decide) rest
  · exact endsGroups_cons rfl (by decide) (by decide) _

theorem toString_text (s : String) : toString s = s := rfl

theorem toList_print_v4 (ip : Ip4) (port : UInt16) :
    (SocketAddress.v4 ip port).print.toList = ip.print.toList ++ ':' :: Nat.toDigits 10 port.toNat := by
  have hcolon : ":".toList = [':'] := rfl
  simp [SocketAddress.print, toString_text, hcolon]

theorem toList_print_v6 (ip : Ip6) (scope : UInt32) (port : UInt16) :
    (SocketAddress.v6 ip scope port).print.toList =
      '[' :: (ip.print.toList ++ (scopeText scope ++ ']' :: ':' :: Nat.toDigits 10 port.toNat)) := by
  have hopening : "[".toList = ['['] := rfl
  have hclosing : "]:".toList = [']', ':'] := rfl
  have hpercent : "%".toList = ['%'] := rfl
  by_cases hscope : scope = 0
  · simp [SocketAddress.print, toString_text, scopeText, hscope, hopening, hclosing]
  · simp [SocketAddress.print, toString_text, scopeText, hscope, hopening, hclosing, hpercent]

/-- An address is read from its text, in front of anything but a digit. -/
theorem readSocketAddress_print (a : SocketAddress) (hrest : EndsDigits 10 rest) :
    readSocketAddress (a.print.toList ++ rest) = some (a, rest) := by
  cases a with
  | v4 ip port =>
      have hcolon : ∀ cs, EndsDigits 10 (':' :: cs) := endsDigits_cons rfl
      rw [toList_print_v4, List.append_assoc, List.cons_append]
      simp only [readSocketAddress, readIp4_print ip (hcolon _), readPort_print port hrest,
        Option.bind_eq_bind, Option.bind_some]
  | v6 ip scope port =>
      have hip4 : ∀ cs, readIp4 ('[' :: cs) = none := fun cs => readIp4_of_ends (endsDigits_cons rfl cs)
      rw [toList_print_v6]
      simp only [List.cons_append, List.append_assoc, readSocketAddress, hip4, readChar_cons,
        readIp6_print ip (endsGroups_scopeText scope _), readScope_scopeText, readPort_print port hrest,
        Option.bind_eq_bind, Option.bind_some]

end Address

theorem SocketAddress.read?_print (a : SocketAddress) : read? a.print = some a := by
  have hread := Address.readSocketAddress_print a (show Address.EndsDigits 10 [] by rintro c ⟨⟩)
  rw [List.append_nil] at hread
  rw [read?, hread]

namespace StartupError

variable {a b : SocketAddress} {cause cause' : SystemError}

theorem message_bind (a : SocketAddress) (cause : SystemError) :
    (bind a cause).message = "failed to listen on " ++ a.print ++ ": " ++ cause.message := rfl

/-- An error about an address tells which one it was, whatever caused it. -/
theorem eq_of_message_bind_eq (h : (bind a cause).message = (bind b cause').message) : a = b := by
  have hends : ∀ message : String, Address.EndsDigits 10 (": " ++ message).toList := by
    intro message
    rw [String.toList_append]
    exact Address.endsDigits_cons rfl _
  rw [message_bind, message_bind] at h
  simp only [String.append_assoc, String.append_right_inj] at h
  -- The address is read from the front of what follows the first words, and so is the other one.
  have hread := Address.readSocketAddress_print a (hends cause.message)
  rw [← String.toList_append, h, String.toList_append,
    Address.readSocketAddress_print b (hends cause'.message)] at hread
  exact (Prod.mk.inj (Option.some.inj hread)).1.symm

/-- **An error about an address tells which one it was.** Every address is read from its text, so that the texts
of different addresses are different, and so are the errors about them. A text that is read and printed again is
printed the same from then on. In the text of an address of version six the first longest run of at least two
zero groups is left out, and no other group is; a mapped address has a dotted form, and the scope is there unless
it is zero. -/
theorem bind_shows_address :
    (∀ a : SocketAddress, SocketAddress.read? a.print = some a) ∧
    (∀ (a : SocketAddress) (cause : SystemError),
      (bind a cause).message = "failed to listen on " ++ a.print ++ ": " ++ cause.message) ∧
    (∀ (a b : SocketAddress) (cause cause' : SystemError), a ≠ b →
      a.print ≠ b.print ∧ (bind a cause).message ≠ (bind b cause').message) ∧
    (∀ (s : String) (a : SocketAddress), SocketAddress.read? s = some a →
      (SocketAddress.read? a.print).map SocketAddress.print = some a.print) ∧
    (∀ (a b c d : UInt8) (port : UInt16), (SocketAddress.v4 ⟨a, b, c, d⟩ port).print =
      s!"{a.toNat}.{b.toNat}.{c.toNat}.{d.toNat}:{port.toNat}") ∧
    ∀ (ip : Ip6) (scope : UInt32) (port : UInt16), ∃! text, Ip6.IsWritten ip.groups text ∧
      (SocketAddress.v6 ip scope port).print =
        "[" ++ text ++ (if scope = 0 then "" else s!"%{scope.toNat}") ++ "]:" ++ toString port.toNat := by
  refine ⟨SocketAddress.read?_print, message_bind,
    fun a b cause cause' hne => ⟨fun hprint => ?_, fun hmessage => hne (eq_of_message_bind_eq hmessage)⟩,
    fun s a h => ?_, fun a b c d port => rfl, fun ip scope port => ?_⟩
  · have hread := SocketAddress.read?_print a
    rw [hprint, SocketAddress.read?_print] at hread
    exact hne (Option.some.inj hread).symm
  · rw [SocketAddress.read?_print, Option.map_some]
  · exact ⟨ip.print, ⟨Ip6.isWritten_iff.mpr rfl, rfl⟩, fun text h => (Ip6.isWritten_iff.mp h.1).symm⟩

/-- Two runs of two zeros, and a scope. -/
def tiedAddress : SocketAddress := .v6 ⟨[0x2001, 0, 0, 1, 0, 0, 0xab, 1], rfl⟩ 7 443

/-- An address of version four as it is mapped. -/
def mappedAddress : SocketAddress := .v6 ⟨[0, 0, 0, 0, 0, 0xffff, 0x7f00, 1], rfl⟩ 0 80

/-- The first of the two runs is left out, also if the text that was read left out the second one. A mapped address
and the one that it maps have different errors, whatever caused these. -/
theorem bind_shows_address_tied :
    tiedAddress.print = "[2001::1:0:0:ab:1%7]:443" ∧
      SocketAddress.read? "[2001::1:0:0:ab:1%7]:443" = some tiedAddress ∧
      SocketAddress.read? "[2001:0:0:1::AB:1%7]:443" = some tiedAddress ∧
      (SocketAddress.read? tiedAddress.print).map SocketAddress.print = some tiedAddress.print ∧
      mappedAddress.print = "[::ffff:127.0.0.1]:80" ∧
      mappedAddress ≠ .v4 ⟨127, 0, 0, 1⟩ 80 ∧
      (bind mappedAddress (.number 98)).message ≠ (bind (.v4 ⟨127, 0, 0, 1⟩ 80) (.number 13)).message := by
  have htied : tiedAddress.print = "[2001::1:0:0:ab:1%7]:443" := by decide +kernel
  have hother : SocketAddress.read? "[2001:0:0:1::AB:1%7]:443" = some tiedAddress := by decide +kernel
  have hne : mappedAddress ≠ .v4 ⟨127, 0, 0, 1⟩ 80 := by decide
  obtain ⟨hread, -, hdiffer, hagain, -⟩ := bind_shows_address
  refine ⟨htied, htied ▸ hread tiedAddress, hother, hagain _ _ hother, by decide +kernel, hne, ?_⟩
  exact (hdiffer _ _ _ _ hne).2

end StartupError

end Menagerie
