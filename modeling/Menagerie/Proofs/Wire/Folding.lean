import Menagerie.Proofs.Text.Octets
import Menagerie.Proofs.Wire.Grammar
import Menagerie.Proofs.Wire.Message

/-! Reading a message is taking up its fields one after another. A message can be read from octets exactly if
they are fields that it can take up; what it then is hangs on the fields alone. Octets one after another
are the fields of the first and then those of the second, so that reading both is merging the second
into what the first are read as, and fields that no message knows make no difference in between. -/

namespace Menagerie

namespace Wire

/-! ### What a field holds -/

/-- A field holds a number with these low bits. -/
def Held.IsNumber (held : Held) (n : Int32) : Prop := ∃ k : Nat, held = .number k ∧ n = Int32.ofInt k

/-- A field holds a text. -/
def Held.IsText (held : Held) (s : String) : Prop := held = .octets (Text.octets s)

/-- A reader of values takes those of a field with a tag and a layout, and `holds` says what it makes of
what they hold. -/
def ReadsValue {ε α : Type} (depth tag : Nat) (t : WireType) (holds : Held → α → Prop)
    (read : List UInt8 → Except ε (α × List UInt8)) : Prop :=
  ∀ bs a rest, read bs = .ok (a, rest) ↔
    ∃ held used, ValueWithin depth tag t held used ∧ bs = used ++ rest ∧ holds held a

theorem ReadsValue.read_append {ε α : Type} {depth tag : Nat} {t : WireType} {holds : Held → α → Prop}
    {read : List UInt8 → Except ε (α × List UInt8)} (h : ReadsValue depth tag t holds read) {held : Held}
    {used : List UInt8} {a : α} (hvalue : ValueWithin depth tag t held used) (hholds : holds held a)
    (rest : List UInt8) : read (used ++ rest) = .ok (a, rest) :=
  (h ..).mpr ⟨held, used, hvalue, rfl, hholds⟩

section

variable {depth tag : Nat} {t : WireType}

theorem expecting_eq_ok_iff {α : Type} {expected : WireType} {read : Reader α} {bs rest : List UInt8} {a : α} :
    expecting expected read t bs = .ok (a, rest) ↔ t = expected ∧ read bs = .ok (a, rest) := by
  unfold expecting
  split <;> simp_all

theorem readsValue_readInt32 : ReadsValue (depth + 1) tag t Held.IsNumber (readInt32 t) := by
  intro bs n rest
  constructor
  · intro h
    unfold readInt32 at h
    split at h
    · cases h
    · next k after hread =>
        obtain ⟨rfl, hread⟩ := expecting_eq_ok_iff.mp hread
        obtain ⟨used, hused, rfl⟩ := readVarint_eq_ok_iff.mp hread
        obtain ⟨rfl, rfl⟩ := Prod.mk.inj (Except.ok.inj h)
        exact ⟨.number k, used, .varint hused, rfl, k, rfl, rfl⟩
  · rintro ⟨held, used, hvalue, rfl, k, rfl, rfl⟩
    cases hvalue with
    | varint hused =>
        rw [readInt32, expecting_eq_ok_iff.mpr ⟨rfl, hused.readVarint_append rest⟩]

theorem readsValue_readText : ReadsValue (depth + 1) tag t Held.IsText (readText t) := by
  intro bs s rest
  constructor
  · intro h
    unfold readText at h
    split at h
    · cases h
    · next body after hread =>
        obtain ⟨rfl, hread⟩ := expecting_eq_ok_iff.mp hread
        obtain ⟨len, hlen, rfl⟩ := readDelimited_eq_ok_iff.mp hread
        split at h
        · next text htext =>
            obtain ⟨rfl, rfl⟩ := Prod.mk.inj (Except.ok.inj h)
            obtain rfl := Text.text?_eq_some_iff.mp htext
            exact ⟨_, _, .delimited hlen, rfl, rfl⟩
        · cases h
  · rintro ⟨held, used, hvalue, rfl, rfl⟩
    cases hvalue with
    | @delimited len body hlen =>
        have hread : readDelimited (len ++ Text.octets s ++ rest) = .ok (Text.octets s, rest) :=
          readDelimited_eq_ok_iff.mpr ⟨len, hlen, rfl⟩
        rw [readText, readOctets, expecting_eq_ok_iff.mpr ⟨rfl, hread⟩]
        simp only [Text.text?_octets]

variable {M α : Type} {messageName fieldName : String} {set : α → M} {holds : Held → α → Prop} {m : M}
  {rest : List UInt8}

theorem mk_eq_mk_iff {b : α} {after : List UInt8} :
    (set b, after) = (m, rest) ↔ ∃ a, (b, after) = (a, rest) ∧ m = set a := by
  constructor
  · rintro ⟨⟩
    exact ⟨b, rfl, rfl⟩
  · rintro ⟨a, ⟨⟩, rfl⟩
    rfl

theorem setField_eq_ok_iff {x : Except Reason (α × List UInt8)} :
    setField messageName fieldName set x = .ok (m, rest) ↔ ∃ a, x = .ok (a, rest) ∧ m = set a := by
  cases x with
  | error e => simp [setField]
  | ok r =>
      simp only [setField, Except.ok.injEq]
      exact mk_eq_mk_iff

theorem setEmbedded_eq_ok_iff {x : Except Fault (α × List UInt8)} :
    setEmbedded messageName fieldName set x = .ok (m, rest) ↔ ∃ a, x = .ok (a, rest) ∧ m = set a := by
  cases x with
  | error e => simp [setEmbedded]
  | ok r =>
      simp only [setEmbedded, Except.ok.injEq]
      exact mk_eq_mk_iff

/-- What sets a field from a value reads the value. -/
theorem ReadsValue.then_set {ε ε' : Type} {read : List UInt8 → Except ε (α × List UInt8)}
    {put : Except ε (α × List UInt8) → Except ε' (M × List UInt8)} (h : ReadsValue depth tag t holds read)
    (hput : ∀ {x m rest}, put x = .ok (m, rest) ↔ ∃ a, x = .ok (a, rest) ∧ m = set a) :
    ReadsValue depth tag t (fun held m => ∃ a, holds held a ∧ m = set a) (fun bs => put (read bs)) := by
  intro bs m rest
  rw [hput]
  constructor
  · rintro ⟨a, hread, hm⟩
    obtain ⟨held, used, hvalue, hbs, hholds⟩ := (h ..).mp hread
    exact ⟨held, used, hvalue, hbs, a, hholds, hm⟩
  · rintro ⟨held, used, hvalue, hbs, a, hholds, hm⟩
    exact ⟨a, (h ..).mpr ⟨held, used, hvalue, hbs, hholds⟩, hm⟩

theorem readsValue_ignoreField :
    ReadsValue depth tag t (fun _ m' => m' = m) (ignoreField depth m tag t) := by
  intro bs m' rest
  have hskip : ignoreField depth m tag t bs = .ok (m', rest) ↔ skipField depth t tag bs = .ok rest ∧ m' = m := by
    unfold ignoreField
    cases skipField depth t tag bs <;> simp [and_comm, eq_comm]
  rw [hskip, (passes_skipField depth).eq_ok_iff]
  constructor
  · rintro ⟨⟨held, used, hvalue, hbs⟩, hm⟩
    exact ⟨held, used, hvalue, hbs, hm⟩
  · rintro ⟨held, used, hvalue, hbs, hm⟩
    exact ⟨⟨held, used, hvalue, hbs⟩, hm⟩

end

/-! ### Fields one after another -/

/-- A message takes up fields one after another. -/
inductive TakesAll {M : Type} (takes : M → Field → M → Prop) : M → List Field → M → Prop
  | nil (m : M) : TakesAll takes m [] m
  | cons {m next last : M} {f : Field} {fs : List Field} (hfirst : takes m f next)
    (hrest : TakesAll takes next fs last) : TakesAll takes m (f :: fs) last

section

variable {M : Type} {takes : M → Field → M → Prop} {m m' m'' : M} {f : Field} {fs fs' : List Field}

theorem TakesAll.append (h : TakesAll takes m fs m') (h' : TakesAll takes m' fs' m'') :
    TakesAll takes m (fs ++ fs') m'' := by
  induction h with
  | nil => exact h'
  | cons hfirst _ ih => exact .cons hfirst (ih h')

/-- Fields that make no difference one by one make none together. -/
theorem TakesAll.of_forall (h : ∀ f ∈ fs, takes m f m) : TakesAll takes m fs m := by
  induction fs with
  | nil => exact .nil m
  | cons f fs ih =>
      exact .cons (h f List.mem_cons_self) (ih fun f' hf' => h f' (List.mem_cons_of_mem f hf'))

theorem TakesAll.exists_of_any (hany : ∀ m f m', takes m f m' → ∀ n, ∃ n', takes n f n')
    (h : TakesAll takes m fs m') (n : M) : ∃ n', TakesAll takes n fs n' := by
  induction h generalizing n with
  | nil => exact ⟨n, .nil n⟩
  | cons hfirst _ ih =>
      obtain ⟨next, hnext⟩ := hany _ _ _ hfirst n
      obtain ⟨last, hlast⟩ := ih next
      exact ⟨last, .cons hnext hlast⟩

/-- What one more field does to what the fields before it describe, all of them do. -/
theorem TakesAll.described {described : M → List Field → Prop}
    (hconcat : ∀ m f m' fs, described m fs → takes m f m' → described m' (fs ++ [f]))
    (h : TakesAll takes m fs m') (hm : described m fs') : described m' (fs' ++ fs) := by
  induction h generalizing fs' with
  | nil => rwa [List.append_nil]
  | cons hfirst _ ih =>
      rw [← List.singleton_append, ← List.append_assoc]
      exact ih (hconcat _ _ _ _ hm hfirst)

end

/-- What merges single fields into a message takes up what they hold. -/
def TakesUp {M : Type} (depth : Nat) (takes : M → Field → M → Prop)
    (step : M → Nat → WireType → List UInt8 → Except Fault (M × List UInt8)) : Prop :=
  ∀ m tag t, ReadsValue depth tag t (fun held m' => takes m ⟨tag, held⟩ m') (step m tag t)

section

variable {M : Type} {depth stop : Nat} {takes : M → Field → M → Prop} {m m' : M} {bs rest : List UInt8}
  {step : M → Nat → WireType → List UInt8 → Except Fault (M × List UInt8)}
  (hstep : TakesUp depth takes step)
include hstep

theorem exists_of_mergeFields {bound : Nat} (hbound : bs.length ≤ bound)
    (h : mergeFields step stop bound m bs = .ok (m', rest)) :
    rest.length ≤ stop ∧ ∃ fs used, Fields depth fs used ∧ bs = used ++ rest ∧ TakesAll takes m fs m' := by
  -- Where the bound is used up no octets are left, since each key takes some.
  induction bound generalizing m bs with
  | zero =>
      obtain ⟨rfl, rfl⟩ := Prod.mk.inj (Except.ok.inj h)
      exact ⟨by omega, [], [], .nil, rfl, .nil m⟩
  | succ bound ih =>
      rw [mergeFields] at h
      split at h
      · next hdone =>
          obtain ⟨rfl, rfl⟩ := Prod.mk.inj (Except.ok.inj h)
          exact ⟨hdone, [], [], .nil, rfl, .nil m⟩
      · split at h
        · cases h
        · next tag t behind hkey =>
            split at h
            · cases h
            · next next after hnext =>
                obtain ⟨key, hfront, rfl⟩ := readKey_eq_ok_iff.mp hkey
                obtain ⟨held, value, hvalue, rfl, htakes⟩ := (hstep m tag t ..).mp hnext
                have hpos := hfront.varint.length_pos
                simp only [List.length_append] at hbound
                obtain ⟨hstop, fs, used, hfields, rfl, hrest⟩ := ih (by omega) h
                exact ⟨hstop, ⟨tag, held⟩ :: fs, key ++ (value ++ used), .cons hfront hvalue hfields, by simp,
                  .cons htakes hrest⟩

theorem mergeFields_of_takesAll {fs : List Field} {used : List UInt8} (hfields : Fields depth fs used)
    (htakes : TakesAll takes m fs m') {bound : Nat} (hbound : (used ++ rest).length ≤ bound)
    (hstop : rest.length = stop) : mergeFields step stop bound m (used ++ rest) = .ok (m', rest) := by
  -- The induction is on the fields: the rest must not be looked at before they are all read.
  induction hfields generalizing m bound with
  | nil =>
      cases htakes
      cases bound with
      | zero => rfl
      | succ bound => rw [mergeFields, List.nil_append, if_pos (by omega)]
  | @cons tag t held key value left fs hkey hvalue _ ih =>
      obtain _ | ⟨hfirst, hrest⟩ := htakes
      have hpos := hkey.varint.length_pos
      simp only [List.length_append] at hbound
      obtain ⟨bound, rfl⟩ : ∃ k, bound = k + 1 := ⟨bound - 1, by omega⟩
      have hnext := (hstep m tag t).read_append hvalue hfirst (left ++ rest)
      rw [List.append_assoc, List.append_assoc, mergeFields, if_neg (by simp only [List.length_append]; omega),
        hkey.readKey_append]
      simp only [hnext]
      refine ih hrest ?_
      rw [List.length_append]
      omega

theorem mergeFields_eq_ok_iff :
    mergeFields step 0 bs.length m bs = .ok (m', rest) ↔
      rest = [] ∧ ∃ fs, Fields depth fs bs ∧ TakesAll takes m fs m' := by
  constructor
  · intro h
    obtain ⟨hstop, fs, used, hfields, rfl, htakes⟩ := exists_of_mergeFields hstep (Nat.le_refl _) h
    obtain rfl : rest = [] := List.length_eq_zero_iff.mp (Nat.le_zero.mp hstop)
    rw [List.append_nil]
    exact ⟨rfl, fs, hfields, htakes⟩
  · rintro ⟨rfl, fs, hfields, htakes⟩
    have h : mergeFields step 0 (bs ++ []).length m (bs ++ []) = .ok (m', []) :=
      mergeFields_of_takesAll hstep hfields htakes (Nat.le_refl _) rfl
    rwa [List.append_nil] at h

/-- An embedded message takes up the fields that the octets behind its length are. -/
theorem readsValue_mergeEnclosed {tag : Nat} :
    ReadsValue (depth + 1) tag .delimited
      (fun held m' => ∃ body fs, held = .octets body ∧ Fields depth fs body ∧ TakesAll takes m fs m')
      (mergeEnclosed step m) := by
  intro bs m' rest
  constructor
  · intro h
    simp only [mergeEnclosed] at h
    split at h
    · cases h
    · next n behind hread =>
        obtain ⟨len, hlen, rfl⟩ := readVarint_eq_ok_iff.mp hread
        split at h
        · cases h
        · next hlong =>
            split at h
            · cases h
            · next last after hmerge =>
                split at h
                · next hend =>
                    obtain ⟨rfl, rfl⟩ := Prod.mk.inj (Except.ok.inj h)
                    obtain ⟨-, fs, body, hfields, rfl, htakes⟩ :=
                      exists_of_mergeFields hstep (Nat.le_refl _) hmerge
                    rw [List.length_append] at hend hlong
                    obtain rfl : body.length = n := by omega
                    exact ⟨.octets body, len ++ body, .delimited hlen, by simp, body, fs, rfl, hfields, htakes⟩
                · cases h
  · rintro ⟨held, used, hvalue, rfl, body, fs, rfl, hfields, htakes⟩
    cases hvalue with
    | @delimited len body hlen =>
        have hstop : rest.length = (body ++ rest).length - body.length := by
          simp
        have hmerge := mergeFields_of_takesAll hstep hfields htakes (Nat.le_refl _) hstop
        rw [mergeEnclosed, List.append_assoc, hlen.readVarint_append]
        simp only [hmerge]
        rw [if_neg (by simp), if_pos hstop]

end

theorem readsValue_mergeEmbedded {M : Type} [Message M] {depth tag : Nat} {takes : M → Field → M → Prop}
    (hstep : TakesUp depth takes (Message.mergeField depth)) {m : M} {t : WireType} :
    ReadsValue (depth + 1) tag t
      (fun held m' => ∃ body fs, held = .octets body ∧ Fields depth fs body ∧ TakesAll takes m fs m')
      (mergeEmbedded (depth + 1) m t) := by
  intro bs m' rest
  by_cases ht : t = .delimited
  · subst ht
    exact readsValue_mergeEnclosed hstep bs m' rest
  · rw [mergeEmbedded, if_pos ht]
    constructor
    · intro h
      cases h
    · rintro ⟨held, used, hvalue, -, body, fs, rfl, -⟩
      cases hvalue with
      | delimited => exact absurd rfl ht

/-! ### Messages -/

/-- Messages are read field by field. Of the fields of other tags than `tags` nothing is taken up; whether a
field can be taken up does not hang on the message, and `described` says what it is after that. -/
structure Fieldwise {M : Type} [Message M] (depth : Nat) (takes : M → Field → M → Prop) (tags : List Nat)
    (described : M → List Field → Prop) : Prop where
  takesUp : TakesUp depth takes (Message.mergeField depth)
  other : ∀ m f, f.tag ∉ tags → takes m f m
  any : ∀ m f m', takes m f m' → ∀ n, ∃ n', takes n f n'
  blank : described Message.blank []
  concat : ∀ m f m' fs, described m fs → takes m f m' → described m' (fs ++ [f])

section

variable {M : Type} [Message M] {takes : M → Field → M → Prop} {tags : List Nat}
  {described : M → List Field → Prop} {m m' : M} {bs : List UInt8}

/-- What is merged is read to its end. -/
theorem Fieldwise.mergeFields_of_merge (h : Fieldwise depthLimit takes tags described)
    (hm : merge m bs = .ok m') :
    mergeFields (Message.mergeField depthLimit) 0 bs.length m bs = .ok (m', []) := by
  rw [merge] at hm
  cases hread : mergeFields (Message.mergeField depthLimit) 0 bs.length m bs with
  | error f =>
      rw [hread] at hm
      cases hm
  | ok r =>
      rw [hread] at hm
      obtain ⟨last, rest⟩ := r
      obtain rfl : last = m' := Except.ok.inj hm
      rw [((mergeFields_eq_ok_iff h.takesUp).mp hread).1]

/-- **Reading is a fold over fields.** -/
theorem Fieldwise.merge_eq_ok_iff (h : Fieldwise depthLimit takes tags described) :
    merge m bs = .ok m' ↔ ∃ fs, Fields depthLimit fs bs ∧ TakesAll takes m fs m' := by
  constructor
  · intro hm
    exact ((mergeFields_eq_ok_iff h.takesUp).mp (h.mergeFields_of_merge hm)).2
  · intro hfields
    rw [merge, (mergeFields_eq_ok_iff h.takesUp).mpr ⟨rfl, hfields⟩]
    rfl

/-- A message is what the fields describe that it was read from. -/
theorem Fieldwise.described_of_decode (h : Fieldwise depthLimit takes tags described) {fs : List Field}
    (hm : decode M bs = .ok m) (hfields : Fields depthLimit fs bs) : described m fs := by
  obtain ⟨fs', hfields', htakes⟩ := h.merge_eq_ok_iff.mp hm
  obtain rfl := hfields.unique hfields'
  exact htakes.described h.concat h.blank

end

end Wire

end Menagerie
