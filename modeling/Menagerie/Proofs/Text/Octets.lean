import Menagerie.Text.Octets

/-! Octets are read as a text exactly if they are those of it. An octet below 128 is a character of its
own, wherever it stands. -/

namespace Menagerie.Text

theorem text?_octets (s : String) : text? (octets s) = some s := by
  have hoctets : (octets s).toByteArray = s.toByteArray := by
    apply ByteArray.ext
    simp [octets]
  rw [text?, hoctets, String.fromUTF8?, dif_pos s.isValidUTF8]
  rfl

theorem octets_of_text? {bs : List UInt8} {s : String} (h : text? bs = some s) : octets s = bs := by
  rw [text?, String.fromUTF8?] at h
  split at h
  · obtain rfl := Option.some.inj h
    have hbytes (hvalid : bs.toByteArray.IsValidUTF8) :
        (String.fromUTF8 bs.toByteArray hvalid).toByteArray = bs.toByteArray := rfl
    rw [octets, hbytes, List.data_toByteArray, List.toList_toArray]
  · cases h

theorem text?_eq_some_iff {bs : List UInt8} {s : String} : text? bs = some s ↔ bs = octets s :=
  ⟨fun h => (octets_of_text? h).symm, fun h => h ▸ text?_octets s⟩

theorem octets_append (s t : String) : octets (s ++ t) = octets s ++ octets t := by
  simp [octets]

theorem octets_ofList (cs : List Char) : octets (String.ofList cs) = cs.flatMap String.utf8EncodeChar := by
  simp [octets, List.utf8Encode]

theorem utf8EncodeChar_of_mem {b : UInt8} {c : Char} (hb : b.toNat < 0x80)
    (h : b ∈ String.utf8EncodeChar c) : c.toNat = b.toNat ∧ String.utf8EncodeChar c = [b] := by
  simp only [String.utf8EncodeChar] at h ⊢
  split at h
  next hascii =>
      obtain rfl := List.mem_singleton.1 h
      rw [if_pos hascii]
      refine ⟨?_, rfl⟩
      simp only [Char.toNat, UInt8.toNat_ofNat']
      omega
  next hascii =>
      -- All octets of a longer character are at least 128.
      exfalso
      have habove (n : Nat) (hlow : 0x80 ≤ n) (hhigh : n < 0x100) : b ≠ UInt8.ofNat n := by
        rintro rfl
        simp only [UInt8.toNat_ofNat'] at hb
        omega
      split at h
      · simp only [List.mem_cons, List.not_mem_nil, or_false] at h
        rcases h with h | h <;> exact habove _ (by omega) (by omega) h
      · split at h <;> simp only [List.mem_cons, List.not_mem_nil, or_false] at h
        · rcases h with h | h | h <;> exact habove _ (by omega) (by omega) h
        · rcases h with h | h | h | h <;> exact habove _ (by omega) (by omega) h

theorem mem_toList_of_mem_octets {b : UInt8} {s : String} (hb : b.toNat < 0x80) (h : b ∈ octets s) :
    Char.ofNat b.toNat ∈ s.toList := by
  rw [← String.ofList_toList (s := s), octets_ofList] at h
  obtain ⟨c, hc, hmem⟩ := List.mem_flatMap.1 h
  rwa [← (utf8EncodeChar_of_mem hb hmem).1, Char.ofNat_toNat]

theorem head?_toList_of_octets {b : UInt8} {s : String} (hb : b.toNat < 0x80)
    (h : (octets s).head? = some b) : s.toList.head? = some (Char.ofNat b.toNat) := by
  rw [← String.ofList_toList (s := s), octets_ofList] at h
  cases hs : s.toList with
  | nil => simp [hs] at h
  | cons c cs =>
      have hne : String.utf8EncodeChar c ≠ [] := by simp
      rw [hs, List.flatMap_cons, List.head?_append, List.head?_eq_some_head hne, Option.some_or] at h
      have hmem : b ∈ String.utf8EncodeChar c := Option.some.inj h ▸ List.head_mem hne
      rw [List.head?_cons, ← (utf8EncodeChar_of_mem hb hmem).1, Char.ofNat_toNat]

end Menagerie.Text
