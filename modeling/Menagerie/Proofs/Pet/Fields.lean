import Menagerie.Pet.Fields
import Menagerie.Proofs.Pet.Layout
import Menagerie.Proofs.Wire.Folding
import Menagerie.Schema

/-! Pets, requests and responses are read field by field. They are read back as they were written, and octets of
two of a kind, one after the other, are read as the second merged into the first. -/

namespace Menagerie

open Wire

/-! ### The last field with a tag -/

namespace Wire.Field

variable {tag : Nat} {f : Field} {fs : List Field}

theorem numbers_concat_of_ne (h : f.tag ≠ tag) : numbers tag (fs ++ [f]) = numbers tag fs := by
  obtain ⟨t, held⟩ := f
  have hne : t ≠ tag := h
  cases held <;> simp [numbers, hne]

theorem contents_concat_of_ne (h : f.tag ≠ tag) : contents tag (fs ++ [f]) = contents tag fs := by
  obtain ⟨t, held⟩ := f
  have hne : t ≠ tag := h
  cases held <;> simp [contents, hne]

theorem contents_concat {body : List UInt8} :
    contents tag (fs ++ [⟨tag, .octets body⟩]) = contents tag fs ++ [body] := by
  simp [contents]

theorem LastNumber.concat_of_ne {n : Int32} (h : LastNumber tag fs n) (hne : f.tag ≠ tag) :
    LastNumber tag (fs ++ [f]) n := by
  rw [LastNumber, numbers_concat_of_ne hne]
  exact h

theorem LastText.concat_of_ne {s : String} (h : LastText tag fs s) (hne : f.tag ≠ tag) :
    LastText tag (fs ++ [f]) s := by
  rw [LastText, contents_concat_of_ne hne]
  exact h

theorem lastNumber_concat {held : Held} {n : Int32} (h : held.IsNumber n) :
    LastNumber tag (fs ++ [⟨tag, held⟩]) n := by
  obtain ⟨k, rfl, rfl⟩ := h
  simp [LastNumber, numbers]

theorem lastText_concat {held : Held} {s : String} (h : held.IsText s) :
    LastText tag (fs ++ [⟨tag, held⟩]) s := by
  obtain rfl := h
  rw [LastText, contents_concat]
  simp

theorem LastText.unique {s s' : String} (h : LastText tag fs s) (h' : LastText tag fs s') : s' = s := by
  have hoctets : Text.octets s' = Text.octets s := h'.trans h.symm
  have htext := Text.text?_octets s'
  rw [hoctets, Text.text?_octets] at htext
  exact (Option.some.inj htext).symm

end Wire.Field

/-! ### Fields describe one message -/

theorem Pet.DescribedBy.unique {p p' : Pet} {fs : List Field} (h : p.DescribedBy fs)
    (h' : p'.DescribedBy fs) : p' = p := by
  obtain ⟨kind, id, name⟩ := p
  obtain ⟨kind', id', name'⟩ := p'
  obtain rfl : kind' = kind := h'.kind.trans h.kind.symm
  obtain rfl : id' = id := h.id.unique h'.id
  obtain rfl : name' = name := h.name.unique h'.name
  rfl

theorem Pet.EmbeddedIn.unique {tag : Nat} {fs : List Field} {pet pet' : Option Pet}
    (h : EmbeddedIn tag fs pet) (h' : EmbeddedIn tag fs pet') : pet' = pet := by
  cases pet with
  | none =>
      cases pet' with
      | none => rfl
      | some p' => exact absurd h h'.1
  | some p =>
      cases pet' with
      | none => exact absurd h' h.1
      | some p' =>
          obtain ⟨-, inner, hinner, hp⟩ := h
          obtain ⟨-, inner', hinner', hp'⟩ := h'
          obtain rfl := hinner.unique hinner'
          rw [hp.unique hp']

/-- Fields describe no two messages. -/
theorem MessageKind.DescribedBy.unique {k : MessageKind} {m m' : k.Value} {fs : List Field}
    (h : k.DescribedBy m fs) (h' : k.DescribedBy m' fs) : m' = m := by
  cases k with
  | pet => exact Pet.DescribedBy.unique h h'
  | getRequest => exact congrArg GetPetRequest.mk (Field.LastText.unique h h')
  | deleteRequest => exact congrArg DeletePetRequest.mk (Field.LastText.unique h h')
  | getResponse => exact congrArg GetPetResponse.mk (Pet.EmbeddedIn.unique h h')
  | putResponse => exact congrArg PutPetResponse.mk (Pet.EmbeddedIn.unique h h')
  | putRequest =>
      obtain ⟨kind, name⟩ := m
      obtain ⟨kind', name'⟩ := m'
      obtain rfl : kind' = kind := h'.1.trans h.1.symm
      obtain rfl : name' = name := h.2.unique h'.2
      rfl
  | deleteResponse => rfl

/-! ### Pets and requests, field after field -/

/-- What a pet becomes with one more field. -/
def Pet.Takes (p : Pet) (f : Field) (p' : Pet) : Prop :=
  match f.tag with
  | 1 => ∃ k, f.held.IsNumber k ∧ p' = { p with kind := k }
  | 2 => ∃ s, f.held.IsText s ∧ p' = { p with id := s }
  | 3 => ∃ s, f.held.IsText s ∧ p' = { p with name := s }
  | _ => p' = p

theorem Pet.takesUp (depth : Nat) : TakesUp (depth + 1) Pet.Takes (Message.mergeField (depth + 1)) := by
  intro p tag t
  match tag with
  | 1 => exact readsValue_readInt32.then_set setField_eq_ok_iff
  | 2 => exact readsValue_readText.then_set setField_eq_ok_iff
  | 3 => exact readsValue_readText.then_set setField_eq_ok_iff
  | 0 | tag + 4 => exact readsValue_ignoreField

theorem Pet.fieldwise (depth : Nat) :
    Fieldwise (depth + 1) Pet.Takes MessageKind.pet.tags Pet.DescribedBy where
  takesUp := Pet.takesUp depth
  other := by
    rintro p ⟨tag, held⟩ hf
    match tag with
    | 0 | tag + 4 => exact rfl
    | 1 | 2 | 3 => simp [MessageKind.tags] at hf
  any := by
    rintro p ⟨tag, held⟩ p' htakes q
    match tag, htakes with
    | 1, ⟨k, hk, _⟩ => exact ⟨_, k, hk, rfl⟩
    | 2, ⟨s, hs, _⟩ | 3, ⟨s, hs, _⟩ => exact ⟨_, s, hs, rfl⟩
    | 0, _ | tag + 4, _ => exact ⟨q, rfl⟩
  blank := ⟨rfl, rfl, rfl⟩
  concat := by
    rintro p ⟨tag, held⟩ p' fs ⟨hkind, hid, hname⟩ htakes
    match tag with
    | 1 =>
        obtain ⟨k, hk, rfl⟩ := htakes
        exact ⟨Field.lastNumber_concat hk, hid.concat_of_ne (by simp), hname.concat_of_ne (by simp)⟩
    | 2 =>
        obtain ⟨s, hs, rfl⟩ := htakes
        exact ⟨hkind.concat_of_ne (by simp), Field.lastText_concat hs, hname.concat_of_ne (by simp)⟩
    | 3 =>
        obtain ⟨s, hs, rfl⟩ := htakes
        exact ⟨hkind.concat_of_ne (by simp), hid.concat_of_ne (by simp), Field.lastText_concat hs⟩
    | 0 | tag + 4 =>
        obtain rfl : p' = p := htakes
        exact ⟨hkind.concat_of_ne (by simp), hid.concat_of_ne (by simp), hname.concat_of_ne (by simp)⟩

/-- What a request to put a pet becomes with one more field. -/
def PutPetRequest.Takes (r : PutPetRequest) (f : Field) (r' : PutPetRequest) : Prop :=
  match f.tag with
  | 1 => ∃ k, f.held.IsNumber k ∧ r' = { r with kind := k }
  | 2 => ∃ s, f.held.IsText s ∧ r' = { r with name := s }
  | _ => r' = r

theorem PutPetRequest.takesUp (depth : Nat) :
    TakesUp (depth + 1) PutPetRequest.Takes (Message.mergeField (depth + 1)) := by
  intro r tag t
  match tag with
  | 1 => exact readsValue_readInt32.then_set setField_eq_ok_iff
  | 2 => exact readsValue_readText.then_set setField_eq_ok_iff
  | 0 | tag + 3 => exact readsValue_ignoreField

theorem PutPetRequest.fieldwise (depth : Nat) :
    Fieldwise (depth + 1) PutPetRequest.Takes MessageKind.putRequest.tags
      (MessageKind.DescribedBy .putRequest) where
  takesUp := PutPetRequest.takesUp depth
  other := by
    rintro r ⟨tag, held⟩ hf
    match tag with
    | 0 | tag + 3 => exact rfl
    | 1 | 2 => simp [MessageKind.tags] at hf
  any := by
    rintro r ⟨tag, held⟩ r' htakes q
    match tag, htakes with
    | 1, ⟨k, hk, _⟩ => exact ⟨_, k, hk, rfl⟩
    | 2, ⟨s, hs, _⟩ => exact ⟨_, s, hs, rfl⟩
    | 0, _ | tag + 3, _ => exact ⟨q, rfl⟩
  blank := ⟨rfl, rfl⟩
  concat := by
    rintro r ⟨tag, held⟩ r' fs ⟨hkind, hname⟩ htakes
    match tag with
    | 1 =>
        obtain ⟨k, hk, rfl⟩ := htakes
        exact ⟨Field.lastNumber_concat hk, hname.concat_of_ne (by simp)⟩
    | 2 =>
        obtain ⟨s, hs, rfl⟩ := htakes
        exact ⟨hkind.concat_of_ne (by simp), Field.lastText_concat hs⟩
    | 0 | tag + 3 =>
        obtain rfl : r' = r := htakes
        exact ⟨hkind.concat_of_ne (by simp), hname.concat_of_ne (by simp)⟩

/-! ### Messages with one field -/

/-- What a message with one text becomes with one more field; `wrap` makes the message of the text. -/
def TakesText {M : Type} (wrap : String → M) (m : M) (f : Field) (m' : M) : Prop :=
  match f.tag with
  | 1 => ∃ s, f.held.IsText s ∧ m' = wrap s
  | _ => m' = m

/-- What a message with one pet becomes with one more field; `wrap` makes the message of the pet, and `pet?`
is the pet that it has so far. -/
def TakesPet {M : Type} (wrap : Pet → M) (pet? : M → Option Pet) (m : M) (f : Field) (m' : M) : Prop :=
  match f.tag with
  | 1 => ∃ p, (∃ body fs, f.held = .octets body ∧ Fields (depthLimit - 1) fs body ∧
      TakesAll Pet.Takes ((pet? m).getD {}) fs p) ∧ m' = wrap p
  | _ => m' = m

theorem Pet.embeddedIn_concat_of_ne {tag : Nat} {fs : List Field} {f : Field} {pet : Option Pet}
    (h : EmbeddedIn tag fs pet) (hne : f.tag ≠ tag) : EmbeddedIn tag (fs ++ [f]) pet := by
  cases pet with
  | none =>
      rw [EmbeddedIn, Field.contents_concat_of_ne hne]
      exact h
  | some p =>
      rw [EmbeddedIn, Field.contents_concat_of_ne hne]
      exact h

/-- One more embedded pet is merged into the one so far. -/
theorem Pet.embeddedIn_concat {tag : Nat} {fs inner : List Field} {body : List UInt8} {pet : Option Pet}
    {p : Pet} (h : EmbeddedIn tag fs pet) (hinner : Fields (depthLimit - 1) inner body)
    (hp : TakesAll Pet.Takes (pet.getD {}) inner p) :
    EmbeddedIn tag (fs ++ [⟨tag, .octets body⟩]) (some p) := by
  have hconcat := (Pet.fieldwise (depthLimit - 2)).concat
  rw [EmbeddedIn, Field.contents_concat, List.flatten_concat]
  refine ⟨by simp, ?_⟩
  cases pet with
  -- The first pet is merged into a blank one, any other into the one so far.
  | none =>
      have hnone : Field.contents tag fs = [] := h
      have hdescribed := hp.described hconcat (Pet.fieldwise (depthLimit - 2)).blank
      rw [hnone]
      exact ⟨inner, hinner, hdescribed⟩
  | some p₀ =>
      obtain ⟨-, inner₀, hinner₀, hp₀⟩ := h
      exact ⟨inner₀ ++ inner, hinner₀.append hinner, hp.described hconcat hp₀⟩

section

variable {M : Type} [Message M] {messageName fieldName : String}

theorem fieldwise_takesText {wrap : String → M} {text : M → String} (hwrap : ∀ s, text (wrap s) = s)
    (hblank : text Message.blank = "")
    (hfield : ∀ (m : M) tag t bs, Message.mergeField depthLimit m tag t bs =
      match tag with
      | 1 => setField messageName fieldName wrap (readText t bs)
      | tag => ignoreField depthLimit m tag t bs) :
    Fieldwise depthLimit (TakesText wrap) [1] (fun m fs => Field.LastText 1 fs (text m)) where
  takesUp := by
    intro m tag t
    rw [funext (hfield m tag t)]
    match tag with
    | 1 => exact readsValue_readText.then_set setField_eq_ok_iff
    | 0 | tag + 2 => exact readsValue_ignoreField
  other := by
    rintro m ⟨tag, held⟩ hf
    match tag with
    | 0 | tag + 2 => exact rfl
    | 1 => simp at hf
  any := by
    rintro m ⟨tag, held⟩ m' htakes n
    match tag, htakes with
    | 1, ⟨s, hs, _⟩ => exact ⟨_, s, hs, rfl⟩
    | 0, _ | tag + 2, _ => exact ⟨n, rfl⟩
  blank := by
    rw [hblank]
    rfl
  concat := by
    rintro m ⟨tag, held⟩ m' fs hm htakes
    match tag with
    | 1 =>
        obtain ⟨s, hs, rfl⟩ := htakes
        rw [hwrap]
        exact Field.lastText_concat hs
    | 0 | tag + 2 =>
        obtain rfl : m' = m := htakes
        exact hm.concat_of_ne (by simp)

theorem fieldwise_takesPet {wrap : Pet → M} {pet? : M → Option Pet} (hwrap : ∀ p, pet? (wrap p) = some p)
    (hblank : pet? Message.blank = none)
    (hfield : ∀ (m : M) tag t bs, Message.mergeField depthLimit m tag t bs =
      match tag with
      | 1 => setEmbedded messageName fieldName wrap (mergeEmbedded depthLimit ((pet? m).getD {}) t bs)
      | tag => ignoreField depthLimit m tag t bs) :
    Fieldwise depthLimit (TakesPet wrap pet?) [1] (fun m fs => Pet.EmbeddedIn 1 fs (pet? m)) where
  takesUp := by
    intro m tag t
    rw [funext (hfield m tag t)]
    match tag with
    | 1 => exact (readsValue_mergeEmbedded (Pet.takesUp _)).then_set setEmbedded_eq_ok_iff
    | 0 | tag + 2 => exact readsValue_ignoreField
  other := by
    rintro m ⟨tag, held⟩ hf
    match tag with
    | 0 | tag + 2 => exact rfl
    | 1 => simp at hf
  any := by
    rintro m ⟨tag, held⟩ m' htakes n
    match tag, htakes with
    | 1, ⟨p, ⟨body, inner, hbody, hinner, hp⟩, _⟩ =>
        obtain ⟨q, hq⟩ := hp.exists_of_any (Pet.fieldwise (depthLimit - 2)).any ((pet? n).getD {})
        exact ⟨wrap q, q, ⟨body, inner, hbody, hinner, hq⟩, rfl⟩
    | 0, _ | tag + 2, _ => exact ⟨n, rfl⟩
  blank := by
    rw [hblank]
    rfl
  concat := by
    rintro m ⟨tag, held⟩ m' fs hm htakes
    match tag with
    | 1 =>
        obtain ⟨p, ⟨body, inner, rfl, hinner, hp⟩, rfl⟩ := htakes
        rw [hwrap]
        exact Pet.embeddedIn_concat hm hinner hp
    | 0 | tag + 2 =>
        obtain rfl : m' = m := htakes
        exact Pet.embeddedIn_concat_of_ne hm (by simp)

end

/-! ### Every kind of message -/

namespace MessageKind

/-- What a message becomes with one more field. -/
def Takes : (k : MessageKind) → k.Value → Field → k.Value → Prop
  | pet => Pet.Takes
  | getRequest => TakesText GetPetRequest.mk
  | getResponse => TakesPet (fun p => GetPetResponse.mk (some p)) GetPetResponse.pet
  | putRequest => PutPetRequest.Takes
  | putResponse => TakesPet (fun p => PutPetResponse.mk (some p)) PutPetResponse.pet
  | deleteRequest => TakesText DeletePetRequest.mk
  | deleteResponse => fun m _ m' => m' = m

theorem fieldwise (k : MessageKind) : Fieldwise depthLimit k.Takes k.tags k.DescribedBy := by
  cases k with
  | pet => exact Pet.fieldwise (depthLimit - 1)
  | putRequest => exact PutPetRequest.fieldwise (depthLimit - 1)
  | getRequest => exact fieldwise_takesText (fun _ => rfl) rfl (fun _ _ _ _ => rfl)
  | deleteRequest => exact fieldwise_takesText (fun _ => rfl) rfl (fun _ _ _ _ => rfl)
  | getResponse => exact fieldwise_takesPet (fun _ => rfl) rfl (fun _ _ _ _ => rfl)
  | putResponse => exact fieldwise_takesPet (fun _ => rfl) rfl (fun _ _ _ _ => rfl)
  | deleteResponse =>
      exact {
        takesUp := fun _ _ _ => readsValue_ignoreField
        other := fun _ _ _ => rfl
        any := fun _ _ _ _ n => ⟨n, rfl⟩
        blank := trivial
        concat := fun _ _ _ _ _ _ => trivial }

/-- The tags are those of the schema. -/
example : [pet, getRequest, getResponse, putRequest, putResponse, deleteRequest, deleteResponse].map tags =
    Schema.pets.messages.map (·.fields.map (·.number.toInt.toNat)) := by decide

/-! ### Reading what was written -/

theorem decode_encode (k : MessageKind) (m : k.Value) (h : (Message.encode m).length < UInt64.size) :
    decode k.Value (Message.encode m) = .ok m := by
  cases k with
  | pet =>
      have hmerges : Merges (Message.mergeField depthLimit) 0 Message.blank (Message.encode m ++ []) m [] :=
        Pet.merges_encode m (Nat.le_refl 0) h
      rw [List.append_nil] at hmerges
      exact hmerges.merge_eq
  | getRequest => exact GetPetRequest.decode_encode m h
  | getResponse => exact GetPetResponse.decode_encode m h
  | putRequest => exact PutPetRequest.decode_encode m h
  | putResponse => exact PutPetResponse.decode_encode m h
  | deleteRequest => exact DeletePetRequest.decode_encode m h
  | deleteResponse => rfl

/-- **A message that was written is read back.** Reading it takes all of its octets, and no other message
is written with them. -/
theorem read_as_written (k : MessageKind) (m : k.Value) (h : (Message.encode m).length < UInt64.size) :
    mergeFields (Message.mergeField depthLimit) 0 (Message.encode m).length (Message.blank : k.Value)
        (Message.encode m) = .ok (m, []) ∧
      decode k.Value (Message.encode m) = .ok m ∧
      ∀ n : k.Value, Message.encode n = Message.encode m → n = m := by
  have hread := k.decode_encode m h
  refine ⟨k.fieldwise.mergeFields_of_merge hread, hread, fun n hn => ?_⟩
  have hother := k.decode_encode n (hn ▸ h)
  rw [hn, hread] at hother
  exact (Except.ok.inj hother).symm

/-- A pet of an unknown kind keeps it, be it negative, and a pet without anything is not a missing one. -/
theorem read_as_written_edges :
    Message.encode (⟨-7, "猫"⟩ : PutPetRequest) =
        [8, 249, 255, 255, 255, 255, 255, 255, 255, 255, 1, 18, 3, 231, 140, 171] ∧
      decode PutPetRequest [8, 249, 255, 255, 255, 255, 255, 255, 255, 255, 1, 18, 3, 231, 140, 171] =
        .ok ⟨-7, "猫"⟩ ∧
      Message.encode (⟨some {}⟩ : GetPetResponse) = [10, 0] ∧
      decode GetPetResponse [10, 0] = .ok ⟨some {}⟩ ∧
      ∀ r : GetPetResponse, Message.encode r = [10, 0] → r = ⟨some {}⟩ := by
  have hcat : Message.encode (⟨-7, "猫"⟩ : PutPetRequest) =
      [8, 249, 255, 255, 255, 255, 255, 255, 255, 255, 1, 18, 3, 231, 140, 171] := by decide +kernel
  have hpresent : Message.encode (⟨some {}⟩ : GetPetResponse) = [10, 0] := by decide +kernel
  obtain ⟨-, hreadcat, -⟩ := read_as_written putRequest ⟨-7, "猫"⟩ (hcat ▸ by decide)
  obtain ⟨-, hreadpresent, honly⟩ := read_as_written getResponse ⟨some {}⟩ (hpresent ▸ by decide)
  rw [← hcat, ← hpresent]
  exact ⟨rfl, hreadcat, rfl, hreadpresent, honly⟩

/-! ### Messages one after the other -/

/-- **Octets of two messages, one after the other, are the second merged into the first.** Unknown fields in
between make no difference. -/
theorem concatenation_merges (k : MessageKind) {a b unknown : List UInt8} {first second : k.Value}
    {fs : List Field} {depth : Nat} (ha : decode k.Value a = .ok first) (hb : decode k.Value b = .ok second)
    (hunknown : Fields depth fs unknown) (hdepth : depth ≤ depthLimit) (hfs : ∀ f ∈ fs, f.tag ∉ k.tags) :
    ∃ fa fb m, Fields depthLimit fa a ∧ Fields depthLimit fb b ∧
      k.DescribedBy first fa ∧ k.DescribedBy second fb ∧
      decode k.Value (a ++ unknown ++ b) = .ok m ∧ merge first b = .ok m ∧
      k.DescribedBy m (fa ++ fb) ∧ ∀ m', k.DescribedBy m' (fa ++ fb) → m' = m := by
  have hk := k.fieldwise
  obtain ⟨fa, hfa, htakes_a⟩ := hk.merge_eq_ok_iff.mp ha
  obtain ⟨fb, hfb, htakes_b⟩ := hk.merge_eq_ok_iff.mp hb
  -- The second message can be read into the first just as well, though it becomes another one.
  obtain ⟨m, hm⟩ := htakes_b.exists_of_any hk.any first
  have hbetween : TakesAll k.Takes first fs first := .of_forall fun f hf => hk.other first f (hfs f hf)
  have hfirst := hk.described_of_decode ha hfa
  have hmerged := hm.described hk.concat hfirst
  refine ⟨fa, fb, m, hfa, hfb, hfirst, hk.described_of_decode hb hfb, ?_, ?_, hmerged,
    fun m' hm' => hmerged.unique hm'⟩
  · exact hk.merge_eq_ok_iff.mpr ⟨fa ++ fs ++ fb, (hfa.append (hunknown.mono hdepth)).append hfb,
      (htakes_a.append hbetween).append hm⟩
  · exact hk.merge_eq_ok_iff.mpr ⟨fb, hfb, hm⟩

/-- A group of an unknown field stands between two parts of a pet, and in it a field with the tag of the
pet. -/
theorem concatenation_merges_twoParts :
    ∃ fa fb m, Fields depthLimit fa [10, 2, 8, 1] ∧ Fields depthLimit fb [10, 3, 26, 1, 84] ∧
      MessageKind.DescribedBy getResponse ⟨some { kind := 1 }⟩ fa ∧
      MessageKind.DescribedBy getResponse ⟨some { name := "T" }⟩ fb ∧
      decode GetPetResponse ([10, 2, 8, 1] ++ [19, 8, 7, 20] ++ [10, 3, 26, 1, 84]) = .ok m ∧
      merge (⟨some { kind := 1 }⟩ : GetPetResponse) [10, 3, 26, 1, 84] = .ok m ∧
      MessageKind.DescribedBy getResponse m (fa ++ fb) ∧
      ∀ m', MessageKind.DescribedBy getResponse m' (fa ++ fb) → m' = m := by
  have hopen : IsKey 2 .groupStart [19] := ⟨by decide, by decide, .last (b := 19) (by decide)⟩
  have hclose : IsKey 2 .groupEnd [20] := ⟨by decide, by decide, .last (b := 20) (by decide)⟩
  have hkey : IsKey 1 .varint [8] := ⟨by decide, by decide, .last (b := 8) (by decide)⟩
  have hvalue : ValueWithin 1 1 .varint (.number 7) [7] := .varint (.last (b := 7) (by decide))
  have hgroup : ValueWithin 2 2 .groupStart .other [8, 7, 20] :=
    .group ⟨_, _, _, .cons hkey hvalue .nil, hclose, rfl⟩
  have hunknown : Fields 2 [⟨2, .other⟩] [19, 8, 7, 20] := .cons hopen hgroup .nil
  exact concatenation_merges getResponse rfl rfl hunknown (by decide) (by decide)

end MessageKind

end Menagerie
