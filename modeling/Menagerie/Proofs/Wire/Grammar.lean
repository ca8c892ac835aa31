import Menagerie.Proofs.Wire.Varint
import Menagerie.Wire.Grammar
import Menagerie.Wire.Skip

/-! A reader takes from the front exactly the octets that the grammar allows, and leaves alone what follows
them. The grammar is therefore unambiguous: octets are fields in one way at most. -/

namespace Menagerie.Wire

variable {bs rest : List UInt8}

/-! ### Numbers, keys and runs of octets -/

theorem readVarintFrom_eq_some_iff {done more n : Nat} (hdone : done + more = 9) :
    readVarintFrom done bs = some (n, rest) ↔ ∃ used, IsVarint more n used ∧ bs = used ++ rest := by
  constructor
  · intro h
    induction bs generalizing done more n with
    | nil => cases h
    | cons b bs ih =>
        rw [readVarintFrom] at h
        split at h
        · next hlast =>
            split at h
            · next hbit =>
                obtain ⟨rfl, rfl⟩ := Prod.mk.inj (Option.some.inj h)
                exact ⟨[b], .last (by rw [if_pos (by omega)]; exact hbit), rfl⟩
            · cases h
        · next hlast =>
            obtain ⟨more, rfl⟩ : ∃ k, more = k + 1 := ⟨more - 1, by omega⟩
            split at h
            · next hlow =>
                obtain ⟨rfl, rfl⟩ := Prod.mk.inj (Option.some.inj h)
                exact ⟨[b], .last (by rw [if_neg (by omega)]; exact hlow), rfl⟩
            · next hhigh =>
                split at h
                · next high after hnext =>
                    obtain ⟨rfl, rfl⟩ := Prod.mk.inj (Option.some.inj h)
                    obtain ⟨used, hused, rfl⟩ := ih (by omega : done + 1 + more = 9) hnext
                    exact ⟨b :: used, .next (by omega) hused, rfl⟩
                · cases h
  · rintro ⟨used, hused, rfl⟩
    induction hused generalizing done with
    | @last more b hbit =>
        rw [List.singleton_append, readVarintFrom]
        split at hbit
        · rw [if_pos (by omega), if_pos hbit]
        · rw [if_neg (by omega), if_pos hbit]
    | next hhigh _ ih =>
        rw [List.cons_append, readVarintFrom, if_neg (by omega), if_neg (by omega), ih (by omega)]

theorem readVarint_eq_ok_iff {n : Nat} :
    readVarint bs = .ok (n, rest) ↔ ∃ used, IsVarint 9 n used ∧ bs = used ++ rest := by
  rw [← readVarintFrom_eq_some_iff (show 0 + 9 = 9 from rfl), readVarint]
  cases readVarintFrom 0 bs <;> simp

theorem IsVarint.readVarint_append {n : Nat} (h : IsVarint 9 n bs) (rest : List UInt8) :
    readVarint (bs ++ rest) = .ok (n, rest) :=
  readVarint_eq_ok_iff.mpr ⟨bs, h, rfl⟩

theorem IsVarint.length_pos {more n : Nat} (h : IsVarint more n bs) : 0 < bs.length := by
  cases h <;> simp

theorem WireType.ofNumber?_eq_some_iff {k : Nat} {t : WireType} :
    WireType.ofNumber? k = some t ↔ k = t.number := by
  constructor
  · intro h
    unfold ofNumber? at h
    split at h <;> cases h <;> rfl
  · rintro rfl
    exact t.ofNumber?_number

theorem WireType.number_lt (t : WireType) : t.number < 8 := by
  cases t <;> decide

theorem readKey_eq_ok_iff {tag : Nat} {t : WireType} :
    readKey bs = .ok ((tag, t), rest) ↔ ∃ used, IsKey tag t used ∧ bs = used ++ rest := by
  have hword : UInt32.size = 8 * 536870912 := by decide
  have hnumber := t.number_lt
  constructor
  · intro h
    rw [readKey] at h
    split at h
    · cases h
    · next key after hread =>
        split at h
        · cases h
        · next hsmall =>
            split at h
            · cases h
            · next layout hlayout =>
                split at h
                · cases h
                · next hpos =>
                    obtain ⟨hfront, rfl⟩ := Prod.mk.inj (Except.ok.inj h)
                    obtain ⟨rfl, rfl⟩ := Prod.mk.inj hfront
                    obtain ⟨used, hused, rfl⟩ := readVarint_eq_ok_iff.mp hread
                    have hlow := WireType.ofNumber?_eq_some_iff.mp hlayout
                    have hkey : 8 * (key / 8) + layout.number = key := by omega
                    exact ⟨used, ⟨by omega, by omega, by rwa [hkey]⟩, rfl⟩
  · rintro ⟨used, ⟨hpos, hlt, hused⟩, rfl⟩
    have hlow : (8 * tag + t.number) % 8 = t.number := by omega
    have hhigh : (8 * tag + t.number) / 8 = tag := by omega
    rw [readKey, hused.readVarint_append]
    simp only [hlow, hhigh, WireType.ofNumber?_number]
    rw [if_neg (by omega), if_neg (by omega)]

theorem IsKey.readKey_append {tag : Nat} {t : WireType} (h : IsKey tag t bs) (rest : List UInt8) :
    readKey (bs ++ rest) = .ok ((tag, t), rest) :=
  readKey_eq_ok_iff.mpr ⟨bs, h, rfl⟩

theorem readExactly_eq_ok_iff {n : Nat} {body : List UInt8} :
    readExactly n bs = .ok (body, rest) ↔ body.length = n ∧ bs = body ++ rest := by
  constructor
  · intro h
    rw [readExactly] at h
    split at h
    · cases h
    · obtain ⟨rfl, rfl⟩ := Prod.mk.inj (Except.ok.inj h)
      exact ⟨List.length_take_of_le (by omega), (List.take_append_drop n bs).symm⟩
  · rintro ⟨hlength, rfl⟩
    exact readExactly_append hlength.symm rest

theorem readDelimited_eq_ok_iff {body : List UInt8} :
    readDelimited bs = .ok (body, rest) ↔
      ∃ len, IsVarint 9 body.length len ∧ bs = len ++ body ++ rest := by
  constructor
  · intro h
    rw [readDelimited] at h
    split at h
    · cases h
    · next n after hread =>
        obtain ⟨len, hlen, rfl⟩ := readVarint_eq_ok_iff.mp hread
        obtain ⟨rfl, rfl⟩ := readExactly_eq_ok_iff.mp h
        exact ⟨len, hlen, (List.append_assoc ..).symm⟩
  · rintro ⟨len, hlen, rfl⟩
    rw [readDelimited, List.append_assoc, hlen.readVarint_append]
    exact readExactly_append rfl rest

/-! ### Fields that are passed over -/

/-- What passes over the values of fields takes the octets that `value` allows; the end of a group is no
value. -/
structure Passes (value : Nat → WireType → Held → List UInt8 → Prop)
    (skipOne : WireType → Nat → List UInt8 → Except Reason (List UInt8)) : Prop where
  eq_ok_iff : ∀ {t tag bs rest}, skipOne t tag bs = .ok rest ↔
    ∃ held used, value tag t held used ∧ bs = used ++ rest
  not_groupEnd : ∀ {tag held bs}, ¬value tag .groupEnd held bs

section

variable {value : Nat → WireType → Held → List UInt8 → Prop}
  {skipOne : WireType → Nat → List UInt8 → Except Reason (List UInt8)}

theorem isGroup_of_skipGroup (hskip : Passes value skipOne) {tag bound : Nat}
    (h : skipGroup skipOne tag bound bs = .ok rest) :
    ∃ used, IsGroup value tag used ∧ bs = used ++ rest := by
  induction bound generalizing bs with
  | zero => cases h
  | succ bound ih =>
      rw [skipGroup] at h
      split at h
      · cases h
      · next other after hkey =>
          split at h
          · next hsame =>
              obtain rfl := Except.ok.inj h
              obtain ⟨close, hclose, rfl⟩ := readKey_eq_ok_iff.mp hkey
              exact ⟨close, ⟨[], [], close, .nil, hsame ▸ hclose, rfl⟩, rfl⟩
          · cases h
      · next other t after _ hkey =>
          split at h
          · cases h
          · next left hone =>
              obtain ⟨key, hfront, rfl⟩ := readKey_eq_ok_iff.mp hkey
              obtain ⟨held, used, hvalue, rfl⟩ := hskip.eq_ok_iff.mp hone
              obtain ⟨_, ⟨fs, inner, close, hinner, hclose, rfl⟩, rfl⟩ := ih h
              refine ⟨key ++ (used ++ inner) ++ close, ?_, by simp⟩
              exact ⟨⟨other, held⟩ :: fs, _, close, .cons hfront hvalue hinner, hclose, rfl⟩

theorem skipGroup_of_areFields (hskip : Passes value skipOne) {tag bound : Nat} {fs : List Field}
    {inner close : List UInt8} (hinner : AreFields value fs inner) (hclose : IsKey tag .groupEnd close)
    (hbound : inner.length < bound) :
    skipGroup skipOne tag bound (inner ++ (close ++ rest)) = .ok rest := by
  -- Each key takes octets, so that the bound never ends the reading.
  induction hinner generalizing bound with
  | nil =>
      obtain ⟨bound, rfl⟩ : ∃ k, bound = k + 1 := ⟨bound - 1, by omega⟩
      rw [List.nil_append, skipGroup, hclose.readKey_append]
      exact if_pos rfl
  | @cons other t held key used left fs hkey hvalue _ ih =>
      have hpos := hkey.varint.length_pos
      obtain ⟨bound, rfl⟩ : ∃ k, bound = k + 1 := ⟨bound - 1, by omega⟩
      have hone : skipOne t other (used ++ (left ++ (close ++ rest))) = .ok (left ++ (close ++ rest)) :=
        hskip.eq_ok_iff.mpr ⟨held, used, hvalue, rfl⟩
      simp only [List.length_append] at hbound
      rw [List.append_assoc, List.append_assoc, skipGroup, hkey.readKey_append]
      cases t with
      | groupEnd => exact absurd hvalue hskip.not_groupEnd
      | _ =>
          simp only [hone]
          exact ih (by omega)

theorem skipGroup_eq_ok_iff (hskip : Passes value skipOne) {tag : Nat} :
    skipGroup skipOne tag (bs.length + 1) bs = .ok rest ↔ ∃ used, IsGroup value tag used ∧ bs = used ++ rest := by
  constructor
  · exact isGroup_of_skipGroup hskip
  · rintro ⟨_, ⟨fs, inner, close, hinner, hclose, rfl⟩, rfl⟩
    rw [List.append_assoc]
    exact skipGroup_of_areFields hskip hinner hclose (by simp only [List.length_append]; omega)

end

theorem map_snd_eq_ok_iff {α : Type} {x : Except Reason (α × List UInt8)} :
    x.map (·.2) = .ok rest ↔ ∃ a, x = .ok (a, rest) := by
  cases x with
  | error e => simp [Except.map]
  | ok r => simp [Except.map, Prod.ext_iff]

theorem passes_skipField (depth : Nat) : Passes (ValueWithin depth) (skipField depth) := by
  induction depth with
  | zero => exact ⟨by simp [skipField, ValueWithin], nofun⟩
  | succ depth ih =>
      refine ⟨fun {t tag bs rest} => ?_, nofun⟩
      -- Only a group goes one level deeper.
      cases t with
      | varint =>
          simp only [skipField, map_snd_eq_ok_iff, readVarint_eq_ok_iff]
          constructor
          · rintro ⟨n, used, hused, rfl⟩
            exact ⟨.number n, used, .varint hused, rfl⟩
          · rintro ⟨held, used, hvalue, rfl⟩
            cases hvalue with
            | varint hused => exact ⟨_, used, hused, rfl⟩
      | fixed64 =>
          simp only [skipField, map_snd_eq_ok_iff, readExactly_eq_ok_iff]
          constructor
          · rintro ⟨body, hlength, rfl⟩
            exact ⟨.other, body, .fixed64 hlength, rfl⟩
          · rintro ⟨held, used, hvalue, rfl⟩
            cases hvalue with
            | fixed64 hlength => exact ⟨used, hlength, rfl⟩
      | fixed32 =>
          simp only [skipField, map_snd_eq_ok_iff, readExactly_eq_ok_iff]
          constructor
          · rintro ⟨body, hlength, rfl⟩
            exact ⟨.other, body, .fixed32 hlength, rfl⟩
          · rintro ⟨held, used, hvalue, rfl⟩
            cases hvalue with
            | fixed32 hlength => exact ⟨used, hlength, rfl⟩
      | delimited =>
          simp only [skipField, map_snd_eq_ok_iff, readDelimited_eq_ok_iff]
          constructor
          · rintro ⟨body, len, hlen, rfl⟩
            exact ⟨.octets body, len ++ body, .delimited hlen, rfl⟩
          · rintro ⟨held, used, hvalue, rfl⟩
            cases hvalue with
            | @delimited len body hlen => exact ⟨body, len, hlen, rfl⟩
      | groupStart =>
          simp only [skipField, skipGroup_eq_ok_iff ih]
          constructor
          · rintro ⟨used, hgroup, rfl⟩
            exact ⟨.other, used, .group hgroup, rfl⟩
          · rintro ⟨held, used, hvalue, rfl⟩
            cases hvalue with
            | group hgroup => exact ⟨used, hgroup, rfl⟩
      | groupEnd =>
          constructor
          · nofun
          · rintro ⟨held, used, hvalue, -⟩
            cases hvalue

/-! ### The grammar is unambiguous -/

theorem ValueWithin.unique {depth tag : Nat} {t : WireType} {held held' : Held} {bs bs' rest' : List UInt8}
    (h : ValueWithin depth tag t held bs) (h' : ValueWithin depth tag t held' bs')
    (heq : bs ++ rest = bs' ++ rest') : held = held' ∧ rest = rest' := by
  have hskip := passes_skipField depth
  have hrest : rest = rest' := by
    have hread : skipField depth t tag (bs ++ rest) = .ok rest := hskip.eq_ok_iff.mpr ⟨held, bs, h, rfl⟩
    have hread' : skipField depth t tag (bs ++ rest) = .ok rest' :=
      hskip.eq_ok_iff.mpr ⟨held', bs', h', heq⟩
    exact Except.ok.inj (hread.symm.trans hread')
  refine ⟨?_, hrest⟩
  subst hrest
  obtain rfl := List.append_cancel_right heq
  cases depth with
  | zero => exact h.elim
  | succ depth =>
      cases h with
      | varint hn =>
          cases h' with
          | varint hn' =>
              have hsame := (hn.readVarint_append []).symm.trans (hn'.readVarint_append [])
              rw [(Prod.mk.inj (Except.ok.inj hsame)).1]
      | @delimited len body hlen =>
          generalize hbs : len ++ body = bs at h'
          cases h' with
          | @delimited len' body' hlen' =>
              have hread := hlen.readVarint_append body
              rw [hbs, hlen'.readVarint_append body'] at hread
              rw [(Prod.mk.inj (Except.ok.inj hread)).2]
      | fixed64 | fixed32 | group =>
          cases h'
          rfl

/-- Octets are fields in one way at most. -/
theorem Fields.unique {depth : Nat} {fs fs' : List Field} (h : Fields depth fs bs) (h' : Fields depth fs' bs) :
    fs = fs' := by
  induction h generalizing fs' with
  | nil =>
      generalize hbs : ([] : List UInt8) = bs at h'
      cases h' with
      | nil => rfl
      | cons hkey =>
          have hpos := hkey.varint.length_pos
          rw [(List.append_eq_nil_iff.mp hbs.symm).1] at hpos
          exact absurd hpos (Nat.lt_irrefl 0)
  | @cons tag t held key value rest fs hkey hvalue _ ih =>
      generalize hbs : key ++ (value ++ rest) = bs at h'
      cases h' with
      | nil =>
          have hpos := hkey.varint.length_pos
          rw [(List.append_eq_nil_iff.mp hbs).1] at hpos
          exact absurd hpos (Nat.lt_irrefl 0)
      | @cons tag' t' held' key' value' rest' fs' hkey' hvalue' hrest' =>
          have hread := hkey.readKey_append (value ++ rest)
          rw [hbs, hkey'.readKey_append] at hread
          obtain ⟨hfront, hbehind⟩ := Prod.mk.inj (Except.ok.inj hread)
          obtain ⟨rfl, rfl⟩ := Prod.mk.inj hfront
          obtain ⟨rfl, rfl⟩ := hvalue'.unique hvalue hbehind
          rw [ih hrest']

/-! ### Fields one after another, and fields that may stand deeper -/

section

variable {value value' : Nat → WireType → Held → List UInt8 → Prop} {fs fs' : List Field} {bs' : List UInt8}

theorem AreFields.append (h : AreFields value fs bs) (h' : AreFields value fs' bs') :
    AreFields value (fs ++ fs') (bs ++ bs') := by
  induction h with
  | nil => exact h'
  | cons hkey hvalue _ ih =>
      rw [List.append_assoc, List.append_assoc]
      exact .cons hkey hvalue ih

theorem AreFields.mono (h : AreFields value fs bs)
    (hvalue : ∀ {tag t held bs}, value tag t held bs → value' tag t held bs) : AreFields value' fs bs := by
  induction h with
  | nil => exact .nil
  | cons hkey hfirst _ ih => exact .cons hkey (hvalue hfirst) ih

end

theorem ValueWithin.succ {depth tag : Nat} {t : WireType} {held : Held}
    (h : ValueWithin depth tag t held bs) : ValueWithin (depth + 1) tag t held bs := by
  induction depth generalizing tag t held bs with
  | zero => exact h.elim
  | succ depth ih =>
      cases h with
      | varint hn => exact .varint hn
      | fixed64 hlength => exact .fixed64 hlength
      | fixed32 hlength => exact .fixed32 hlength
      | delimited hlen => exact .delimited hlen
      | group hgroup =>
          obtain ⟨fs, inner, close, hinner, hclose, rfl⟩ := hgroup
          exact .group ⟨fs, inner, close, hinner.mono ih, hclose, rfl⟩

theorem Fields.mono {depth depth' : Nat} {fs : List Field} (h : Fields depth fs bs) (hle : depth ≤ depth') :
    Fields depth' fs bs := by
  induction hle with
  | refl => exact h
  | step _ ih => exact AreFields.mono ih ValueWithin.succ

end Menagerie.Wire
