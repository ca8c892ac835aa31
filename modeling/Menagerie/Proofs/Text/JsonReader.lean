import Mathlib.Data.List.Forall2
import Menagerie.Text.JsonReader
import Menagerie.Text.JsonText

/-! What is written as JSON is read back, and no line ends in it. -/

namespace Menagerie.Text.JsonReader

/-! ### Texts -/

theorem readEscaped_append {cs : List Char} {c : Char} (h : readEscaped cs = some (c, [])) (rest : List Char) :
    readEscaped (cs ++ rest) = some (c, rest) := by
  have hnone : escaped? 'u' = none := rfl
  unfold readEscaped at h
  split at h
  · next a b c d after =>
      obtain ⟨x, hx, heq⟩ := Option.map_eq_some_iff.mp h
      obtain ⟨rfl, rfl⟩ := Prod.mk.inj heq
      simp only [List.cons_append, readEscaped, hx]
      rfl
  -- More characters could only turn this into the first case behind a u, which is no escape by itself.
  · next first after hshort =>
      obtain ⟨x, hx, heq⟩ := Option.map_eq_some_iff.mp h
      obtain ⟨rfl, rfl⟩ := Prod.mk.inj heq
      have hne : first ≠ 'u' := by
        rintro rfl
        cases hnone.symm.trans hx
      rw [List.cons_append, List.nil_append, readEscaped, hx]
      · rfl
      · rintro a b c d rest' hfirst -
        exact hne hfirst
  · cases h

theorem readCharacter_append {cs : List Char} {c : Char} (h : readCharacter cs = some (c, []))
    (rest : List Char) : readCharacter (cs ++ rest) = some (c, rest) := by
  cases cs with
  | nil => cases h
  | cons first cs =>
      simp only [readCharacter, List.cons_append] at h ⊢
      split
      · next hfirst =>
          rw [if_pos hfirst] at h
          exact readEscaped_append h rest
      · next hfirst =>
          rw [if_neg hfirst] at h
          split at h
          · cases h
          · next hshows =>
              cases h
              rw [if_neg hshows]
              rfl

/-- This is written for a character inside a text: it is read as the character, and neither the text nor a
line ends with it. -/
structure Writes (cs : List Char) (c : Char) : Prop where
  read : readCharacter cs = some (c, [])
  quote : cs.head? ≠ some '"'
  line : '\n' ∉ cs

instance (cs : List Char) (c : Char) : Decidable (Writes cs c) :=
  decidable_of_iff (readCharacter cs = some (c, []) ∧ cs.head? ≠ some '"' ∧ '\n' ∉ cs)
    ⟨fun h => ⟨h.1, h.2.1, h.2.2⟩, fun h => ⟨h.read, h.quote, h.line⟩⟩

theorem writes_escape (c : Char) : Writes (JsonText.escape c).toList c := by
  by_cases hlow : c.toNat < 0x20
  · have hall : ∀ n < 0x20, Writes (JsonText.escape (Char.ofNat n)).toList (Char.ofNat n) := by
      decide +kernel
    have h := hall c.toNat hlow
    rwa [Char.ofNat_toNat] at h
  · unfold JsonText.escape
    split
    · decide
    · decide
    · decide
    · decide
    · decide
    · decide
    · decide
    · next hquote hslash hline _ _ _ _ =>
        have hread : readCharacter [c] = some (c, []) := by
          rw [readCharacter, if_neg hslash, if_neg hlow]
        rw [if_neg hlow, Char.toString_eq_singleton, String.toList_singleton]
        exact ⟨hread, fun h => hquote (Option.some.inj h), fun h => hline (List.mem_singleton.mp h).symm⟩

theorem Writes.length_pos {cs : List Char} {c : Char} (h : Writes cs c) : 0 < cs.length := by
  cases cs with
  | nil => cases h.read
  | cons first cs => exact Nat.succ_pos _

theorem Writes.readCharacters_append {cs more rest last : List Char} {c : Char} {bound : Nat}
    (h : Writes cs c) (hrest : readCharacters bound rest = some (more, last)) :
    readCharacters (bound + 1) (cs ++ rest) = some (c :: more, last) := by
  have hquote : (cs ++ rest).head? ≠ some '"' := by
    rw [List.head?_append_of_ne_nil _ (List.ne_nil_of_length_pos h.length_pos)]
    exact h.quote
  simp only [readCharacters, if_neg hquote, readCharacter_append h.read, hrest]
  rfl

/-- The characters between the quotes of a text. -/
def escaped (s : List Char) : List Char := s.flatMap fun c => (JsonText.escape c).toList

theorem readCharacters_escaped {s rest : List Char} {bound : Nat}
    (hbound : (escaped s ++ '"' :: rest).length ≤ bound) :
    readCharacters bound (escaped s ++ '"' :: rest) = some (s, rest) := by
  obtain ⟨bound, rfl⟩ : ∃ k, bound = k + 1 := ⟨bound - 1, by simp at hbound; omega⟩
  induction s generalizing bound with
  | nil => rfl
  | cons c s ih =>
      have hpos := (writes_escape c).length_pos
      have hescaped : escaped (c :: s) = (JsonText.escape c).toList ++ escaped s := List.flatMap_cons
      rw [hescaped, List.append_assoc] at hbound ⊢
      simp only [List.length_append, List.length_cons] at hbound ih
      obtain ⟨bound, rfl⟩ : ∃ k, bound = k + 1 := ⟨bound - 1, by omega⟩
      exact (writes_escape c).readCharacters_append (ih bound (by omega))

theorem toList_text (s : String) : (JsonText.text s).toList = '"' :: (escaped s.toList ++ ['"']) := by
  have hquote : "\"".toList = ['"'] := rfl
  simp only [JsonText.text, String.toList_append, String.toList_join, List.flatMap_map, hquote]
  rfl

/-- A text is read wherever it stands. -/
theorem readText_text (s : String) (rest : List Char) :
    readText ((JsonText.text s).toList ++ rest) = some (s, rest) := by
  rw [toList_text, List.cons_append, List.append_assoc, List.singleton_append, readText,
    readCharacters_escaped (Nat.le_refl _), Option.map_some]
  simp only [String.ofList_toList]

theorem newline_not_mem_text (s : String) : '\n' ∉ (JsonText.text s).toList := by
  rw [toList_text]
  simp only [escaped, List.mem_cons, List.mem_append, List.mem_flatMap]
  rintro (h | ⟨c, -, h⟩ | h | h)
  · cases h
  · exact (writes_escape c).line h
  · cases h
  · cases h

/-! ### Values -/

/-- A text is read as a value, wherever it stands in front of something that can follow a value. It does not
begin with that, and no line ends in it. -/
structure Reads {α : Type} (read : Reader α) (s : String) (a : α) : Prop where
  start : ∃ c ∈ s.toList.head?, isEnd c = false
  read_append : ∀ rest : List Char, (∀ c ∈ rest.head?, isEnd c = true) →
    read (s.toList ++ rest) = some (a, rest)
  line : '\n' ∉ s.toList

section

variable {α : Type} {read : Reader α} {close : Char}

theorem isEnd_of_mem_head? {c : Char} {rest : List Char} (hc : isEnd c = true) :
    ∀ x ∈ (c :: rest).head?, isEnd x = true := by
  intro x hx
  obtain rfl := Option.some.inj hx
  exact hc

theorem readItems_intercalate (hclose : isEnd close = true) (hcomma : close ≠ ',') {s : String} {a : α}
    {texts : List String} {as : List α} (hs : Reads read s a) (h : List.Forall₂ (Reads read) texts as)
    {rest : List Char} {bound : Nat}
    (hbound : ((",".intercalate (s :: texts)).toList ++ close :: rest).length ≤ bound) :
    readItems close read bound ((",".intercalate (s :: texts)).toList ++ close :: rest) =
      some (a :: as, rest) := by
  obtain ⟨bound, rfl⟩ : ∃ k, bound = k + 1 := ⟨bound - 1, by simp at hbound; omega⟩
  induction h generalizing s a bound with
  | nil =>
      rw [String.intercalate_singleton, readItems, hs.read_append _ (isEnd_of_mem_head? hclose)]
      simp
  | @cons next b texts bs hnext _ ih =>
      have hsplit : (",".intercalate (s :: next :: texts)).toList ++ close :: rest =
          s.toList ++ ',' :: ((",".intercalate (next :: texts)).toList ++ close :: rest) := by
        have hsign : ",".toList = [','] := rfl
        simp [String.intercalate_cons_cons, hsign]
      rw [hsplit] at hbound ⊢
      simp only [List.length_append, List.length_cons] at hbound ih
      obtain ⟨bound, rfl⟩ : ∃ k, bound = k + 1 := ⟨bound - 1, by omega⟩
      rw [readItems, hs.read_append _ (isEnd_of_mem_head? rfl)]
      simp only [if_neg hcomma.symm, if_true, ih hnext bound (by omega)]
      rfl

/-- Items with commas between them are read up to the sign behind them. -/
theorem readMany_intercalate (hclose : isEnd close = true) (hcomma : close ≠ ',') {texts : List String}
    {as : List α} (h : List.Forall₂ (Reads read) texts as) (rest : List Char) :
    readMany close read ((",".intercalate texts).toList ++ close :: rest) = some (as, rest) := by
  cases h with
  | nil => exact if_pos rfl
  | @cons s a texts as hs hrest =>
      have hopen : ((",".intercalate (s :: texts)).toList ++ close :: rest).head? ≠ some close := by
        obtain ⟨c, hc, hend⟩ := hs.start
        have hfirst : ((",".intercalate (s :: texts)).toList ++ close :: rest).head? = some c := by
          cases texts with
          | nil => rw [String.intercalate_singleton, List.head?_append, hc, Option.some_or]
          | cons next texts =>
              rw [String.intercalate_cons_cons, String.toList_append, String.toList_append, List.append_assoc,
                List.append_assoc, List.head?_append, hc, Option.some_or]
        rw [hfirst]
        rintro heq
        obtain rfl := Option.some.inj heq
        cases hclose.symm.trans hend
      rw [readMany, if_neg hopen]
      exact readItems_intercalate hclose hcomma hs hrest (Nat.le_refl _)

theorem newline_not_mem_intercalate {texts : List String} {as : List α}
    (h : List.Forall₂ (Reads read) texts as) : '\n' ∉ (",".intercalate texts).toList := by
  have hsign : ",".toList = [','] := rfl
  induction h with
  | nil => exact List.not_mem_nil
  | cons hs hrest ih =>
      cases hrest with
      | nil =>
          rw [String.intercalate_singleton]
          exact hs.line
      | cons _ _ =>
          rw [String.intercalate_cons_cons, String.toList_append, String.toList_append, hsign]
          simp only [List.mem_append, List.mem_singleton, hs.line, ih, or_false, false_or]
          decide

theorem Reads.member {s : String} {a : α} (h : Reads read s a) (name : String) :
    Reads (readMember read) (JsonText.text name ++ ":" ++ s) (name, a) where
  start := ⟨'"', by simp [toList_text], rfl⟩
  read_append rest hrest := by
    have hsign : ":".toList = [':'] := rfl
    rw [String.toList_append, String.toList_append, hsign, List.append_assoc, List.append_assoc,
      List.singleton_append, readMember, readText_text]
    simp only [h.read_append rest hrest]
    rfl
  line := by
    have hsign : ":".toList = [':'] := rfl
    simp [newline_not_mem_text, hsign, h.line]

end

section

variable {depth : Nat}

theorem reads_text (s : String) : Reads (readValue (depth + 1)) (JsonText.text s) (.text s) where
  start := ⟨'"', by simp [toList_text], rfl⟩
  read_append rest _ := by
    have hread := readText_text s rest
    rw [toList_text, List.cons_append] at hread ⊢
    rw [readValue, hread]
    rfl
  line := newline_not_mem_text s

theorem reads_list {texts : List String} {values : List Json}
    (h : List.Forall₂ (Reads (readValue depth)) texts values) :
    Reads (readValue (depth + 1)) (JsonText.list texts) (.list values) := by
  have hlist : (JsonText.list texts).toList = '[' :: ((",".intercalate texts).toList ++ [']']) := by
    have hopen : "[".toList = ['['] := rfl
    have hclose : "]".toList = [']'] := rfl
    simp [JsonText.list, hopen, hclose]
  refine ⟨⟨'[', by simp [hlist], rfl⟩, fun rest _ => ?_, ?_⟩
  · rw [hlist, List.cons_append, List.append_assoc, List.singleton_append]
    have hmany : readMany ']' (readValue depth) ((",".intercalate texts).toList ++ ']' :: rest) =
        some (values, rest) := readMany_intercalate rfl (by decide) h rest
    simp only [readValue, hmany]
    rfl
  · rw [hlist]
    simp only [List.mem_cons, List.mem_append, newline_not_mem_intercalate h, false_or]
    decide

theorem reads_object {fields : List (String × String)} {members : List (String × Json)}
    (h : List.Forall₂ (fun f m => f.1 = m.1 ∧ Reads (readValue depth) f.2 m.2) fields members) :
    Reads (readValue (depth + 1)) (JsonText.object fields) (.object members) := by
  have hmembers : List.Forall₂ (Reads (readMember (readValue depth)))
      (fields.map fun f => JsonText.text f.1 ++ ":" ++ f.2) members := by
    rw [List.forall₂_map_left_iff]
    refine h.imp fun f m hf => ?_
    obtain ⟨hname, hvalue⟩ := hf
    rw [hname]
    exact hvalue.member m.1
  have hobject : (JsonText.object fields).toList = '\x7b' ::
      ((",".intercalate (fields.map fun f => JsonText.text f.1 ++ ":" ++ f.2)).toList ++ ['\x7d']) := by
    have hopen : "\x7b".toList = ['\x7b'] := rfl
    have hclose : "\x7d".toList = ['\x7d'] := rfl
    rw [JsonText.object, String.toList_append, String.toList_append, hopen, hclose]
    rfl
  refine ⟨⟨'\x7b', by simp [hobject], rfl⟩, fun rest _ => ?_, ?_⟩
  · rw [hobject, List.cons_append, List.append_assoc, List.singleton_append]
    have hmany := readMany_intercalate (rfl : isEnd '\x7d' = true) (by decide) hmembers rest
    simp only [readValue, hmany]
    rfl
  · rw [hobject]
    simp only [List.mem_cons, List.mem_append, newline_not_mem_intercalate hmembers, false_or]
    decide

/-- A word is written with letters, digits and the minus sign. -/
structure IsWord (s : String) : Prop where
  ne_empty : s ≠ ""
  plain : ∀ c ∈ s.toList, c.isAlphanum = true ∨ c = '-'

theorem IsWord.unmarked {s : String} (h : IsWord s) {c : Char} (hc : c ∈ s.toList) :
    isEnd c = false ∧ c ≠ '"' ∧ c ≠ '[' ∧ c ≠ '\x7b' ∧ c ≠ '\n' := by
  have hplain := h.plain c hc
  refine ⟨?_, ?_, ?_, ?_, ?_⟩
  · simp only [isEnd, Bool.or_eq_false_iff, beq_eq_false_iff_ne]
    refine ⟨⟨?_, ?_⟩, ?_⟩ <;> rintro rfl <;> revert hplain <;> decide
  all_goals
    rintro rfl
    revert hplain
    decide

theorem IsWord.readWord_append {s : String} (h : IsWord s) {rest : List Char}
    (hrest : ∀ c ∈ rest.head?, isEnd c = true) : readWord (s.toList ++ rest) = some (s, rest) := by
  have htake : (s.toList ++ rest).takeWhile (fun c => !isEnd c) = s.toList := by
    have hnone : rest.takeWhile (fun c => !isEnd c) = [] := by
      cases rest with
      | nil => rfl
      | cons c rest => exact List.takeWhile_cons_of_neg (by simp [hrest c rfl])
    rw [List.takeWhile_append_of_pos fun c hc => by simp [(h.unmarked hc).1], hnone, List.append_nil]
  have hne : s.toList.isEmpty = false := by simp [h.ne_empty]
  simp only [readWord, htake, hne, Bool.false_eq_true, if_false, String.ofList_toList, List.drop_left]

theorem reads_word {s : String} (h : IsWord s) : Reads (readValue (depth + 1)) s (.word s) := by
  obtain ⟨first, others, hfirst⟩ : ∃ first others, s.toList = first :: others := by
    cases hs : s.toList with
    | nil => exact absurd (String.toList_eq_nil_iff.mp hs) h.ne_empty
    | cons first others => exact ⟨first, others, rfl⟩
  obtain ⟨hend, hquote, hlist, hobject, -⟩ := h.unmarked (hfirst ▸ List.mem_cons_self)
  refine ⟨⟨first, by simp [hfirst], hend⟩, fun rest hrest => ?_, fun hmem => (h.unmarked hmem).2.2.2.2 rfl⟩
  have hread := h.readWord_append hrest
  rw [hfirst, List.cons_append] at hread ⊢
  rw [readValue, hread]
  · rfl
  · exact fun _ heq => hquote (List.cons.inj heq).1
  · exact fun _ heq => hlist (List.cons.inj heq).1
  · exact fun _ heq => hobject (List.cons.inj heq).1

end

/-! ### Lines -/

theorem read_eq {s : String} {v : Json} (h : Reads (readValue nestingLimit) s v) : read s.toList = some v := by
  have hread := h.read_append [] (by simp)
  rw [List.append_nil] at hread
  rw [read, hread]

theorem lines_append {line : List Char} (h : '\n' ∉ line) (rest : List Char) :
    lines (line ++ '\n' :: rest) = line :: lines rest := by
  induction line with
  | nil => exact if_pos rfl
  | cons c line ih =>
      rw [List.cons_append, lines, if_neg (List.ne_of_not_mem_cons h).symm, ih (List.not_mem_of_not_mem_cons h)]

/-- What is written as one value a line is read line by line. -/
theorem readLines_join {texts : List String} {values : List Json}
    (h : List.Forall₂ (Reads (readValue nestingLimit)) texts values) :
    readLines (String.join (texts.map (· ++ "\n"))) = some values := by
  have hend : "\n".toList = ['\n'] := rfl
  induction h with
  | nil => rfl
  | @cons s v texts values hs _ ih =>
      have hjoin : (String.join ((s :: texts).map (· ++ "\n"))).toList =
          s.toList ++ '\n' :: (String.join (texts.map (· ++ "\n"))).toList := by
        simp [String.toList_join, hend]
      rw [readLines] at ih ⊢
      rw [hjoin, lines_append hs.line, List.mapM_cons, read_eq hs, ih]
      rfl

end Menagerie.Text.JsonReader
