import Menagerie.Proofs.Filter.Plain

/-! The text of a filter and of its parts: what is cut out at distances in octets, what is left without blanks, and
the pieces between commas. -/

namespace Menagerie

namespace Filter

/-! ### Cuts -/

/-- How many octets characters take. -/
def octetCount : List Char → Nat
  | [] => 0
  | c :: cs => c.utf8Size + octetCount cs

theorem octetCount_cons (c : Char) (cs : List Char) : octetCount (c :: cs) = c.utf8Size + octetCount cs := rfl

theorem octetCount_append (front rest : List Char) :
    octetCount (front ++ rest) = octetCount front + octetCount rest := by
  induction front with
  | nil => exact (Nat.zero_add _).symm
  | cons c front ih => rw [List.cons_append, octetCount_cons, octetCount_cons, ih, Nat.add_assoc]

theorem octetCount_concat (cs : List Char) (c : Char) : octetCount (cs ++ [c]) = octetCount cs + c.utf8Size :=
  octetCount_append cs [c]

theorem takeOctets?_append (front rest : List Char) :
    takeOctets? (front ++ rest) (octetCount front) = some front := by
  induction front with
  | nil => cases rest <;> rfl
  | cons c front ih =>
      have hpos := c.utf8Size_pos
      rw [List.cons_append, takeOctets?, octetCount_cons, if_neg (by omega), if_pos (by omega),
        Nat.add_sub_cancel_left, ih]
      rfl

theorem dropOctets?_append (front rest : List Char) :
    dropOctets? (front ++ rest) (octetCount front) = some rest := by
  induction front with
  | nil => cases rest <;> rfl
  | cons c front ih =>
      have hpos := c.utf8Size_pos
      rw [List.cons_append, dropOctets?, octetCount_cons, if_neg (by omega), if_pos (by omega),
        Nat.add_sub_cancel_left, ih]

/-- What lies between two distances that both fall between characters is cut out. -/
theorem cut_between (front part rest : List Char) :
    cut (front ++ (part ++ rest)) (octetCount front) (octetCount (front ++ part)) = .ok part := by
  have hle : octetCount front ≤ octetCount (front ++ part) := by
    rw [octetCount_append]
    exact Nat.le_add_right _ _
  rw [cut, if_neg (Nat.not_lt_of_le hle), dropOctets?_append, Option.bind_some, octetCount_append,
    Nat.add_sub_cancel_left, takeOctets?_append]

theorem cut_append (front rest : List Char) : cut (front ++ rest) 0 (octetCount front) = .ok front :=
  cut_between [] front rest

theorem cutFrom_append (front rest : List Char) : cutFrom (front ++ rest) (octetCount front) = .ok rest := by
  rw [cutFrom, dropOctets?_append]

end Filter

/-! ### Blanks and targets -/

namespace Text

theorem trimLeft_eq_self {cs : List Char} (h : ∀ c ∈ cs.head?, isBlank c = false) : trimLeft cs = cs := by
  cases cs with
  | nil => rfl
  | cons c cs => exact List.dropWhile_cons_of_neg (by simp [h c rfl])

/-- Without blanks at its ends nothing is cut off a text. -/
theorem IsTrimmed.trim_eq {cs : List Char} (h : IsTrimmed cs) : trim cs = cs := by
  have hlast := h.last
  rw [← List.head?_reverse] at hlast
  rw [trim, trimLeft_eq_self h.first, trimRight, trimLeft_eq_self hlast, List.reverse_reverse]

/-- Without a blank in front, a text is what is left of it without blanks, and blanks. -/
theorem exists_trim_append {cs : List Char} (h : ∀ c ∈ cs.head?, isBlank c = false) :
    ∃ tail, cs = trim cs ++ tail ∧ ∀ c ∈ tail, isBlank c = true := by
  refine ⟨(cs.reverse.takeWhile isBlank).reverse, ?_, fun c hc => ?_⟩
  · rw [trim, trimLeft_eq_self h, trimRight, trimLeft, ← List.reverse_append, List.takeWhile_append_dropWhile,
      List.reverse_reverse]
  · exact List.all_eq_true.mp List.all_takeWhile c (List.mem_reverse.mp hc)

end Text

namespace Filter.Directive

/-- A name that is a target in front of an equals sign: it begins as names do, without a blank, and has none of
the signs that end a target or a directive. -/
structure IsTargetName (cs : List Char) : Prop where
  starts : ∃ c ∈ cs.head?, startsName c = true ∧ Text.isBlank c = false
  unmarked : ∀ c ∈ cs, c ≠ ',' ∧ c ≠ '=' ∧ c ≠ '['

end Filter.Directive

/-! ### Directives between commas -/

namespace LogFilter

open Menagerie.Filter

theorem splitCommas_of_not_mem {piece : List Char} (h : ',' ∉ piece) : splitCommas piece = [piece] := by
  induction piece with
  | nil => rfl
  | cons c piece ih =>
      have hne : (c == ',') = false := beq_eq_false_iff_ne.mpr (List.ne_of_not_mem_cons h).symm
      simp only [splitCommas, hne, Bool.false_eq_true, if_false, ih (List.not_mem_of_not_mem_cons h)]

theorem splitCommas_append_comma {piece : List Char} (h : ',' ∉ piece) (rest : List Char) :
    splitCommas (piece ++ ',' :: rest) = piece :: splitCommas rest := by
  induction piece with
  | nil => rfl
  | cons c piece ih =>
      have hne : (c == ',') = false := beq_eq_false_iff_ne.mpr (List.ne_of_not_mem_cons h).symm
      simp only [List.cons_append, splitCommas, hne, Bool.false_eq_true, if_false,
        ih (List.not_mem_of_not_mem_cons h)]

/-- No piece has a comma. -/
theorem comma_not_mem_of_mem_splitCommas {cs piece : List Char} (h : piece ∈ splitCommas cs) : ',' ∉ piece := by
  induction cs generalizing piece with
  | nil =>
      obtain rfl := List.mem_singleton.mp h
      exact List.not_mem_nil
  | cons first rest ih =>
      simp only [splitCommas] at h
      split at h
      · rcases List.mem_cons.mp h with rfl | h
        · exact List.not_mem_nil
        · exact ih h
      · next hfirst =>
          have hne : ',' ≠ first := fun heq => hfirst (beq_iff_eq.mpr heq.symm)
          split at h
          · obtain rfl := List.mem_singleton.mp h
            exact fun hmem => hne (List.mem_singleton.mp hmem)
          · next next others hsplit =>
              rw [hsplit] at ih
              rcases List.mem_cons.mp h with rfl | h
              · exact List.not_mem_cons_of_ne_of_not_mem hne (ih List.mem_cons_self)
              · exact ih (List.mem_cons_of_mem next h)

theorem splitCommas_intercalate {piece : List Char} {others : List (List Char)}
    (h : ∀ p ∈ piece :: others, ',' ∉ p) :
    splitCommas ([','].intercalate (piece :: others)) = piece :: others := by
  induction others generalizing piece with
  | nil =>
      rw [List.intercalate_singleton]
      exact splitCommas_of_not_mem (h piece List.mem_cons_self)
  | cons next others ih =>
      rw [List.intercalate_cons_cons, List.append_assoc, List.singleton_append,
        splitCommas_append_comma (h piece List.mem_cons_self),
        ih fun p hp => h p (List.mem_cons_of_mem piece hp)]

/-- Pieces that are not empty and have no commas are those of the text that joins them with commas. -/
theorem pieces_intercalate {texts : List String} (h : ∀ s ∈ texts, s ≠ "" ∧ ',' ∉ s.toList) :
    pieces (",".intercalate texts) = texts.map String.toList := by
  have hcomma : ",".toList = [','] := rfl
  rw [pieces, String.toList_intercalate, hcomma]
  cases texts with
  | nil => rfl
  | cons s texts =>
      have hpieces : ∀ p ∈ s.toList :: texts.map String.toList, p ≠ [] ∧ ',' ∉ p := by
        rw [← List.map_cons, List.forall_mem_map]
        exact fun t ht => ⟨fun hnil => (h t ht).1 (String.toList_eq_nil_iff.mp hnil), (h t ht).2⟩
      rw [List.map_cons, splitCommas_intercalate fun p hp => (hpieces p hp).2, List.filter_eq_self]
      intro p hp
      simpa using (hpieces p hp).1

/-- Directives are read back from their texts with commas between them if each one is from its own. -/
theorem mapM_read_pieces_of_read {ds : List Directive}
    (h : ∀ d ∈ ds, ',' ∉ d.print.toList ∧ Directive.read d.print.toList = .ok d) :
    (pieces (",".intercalate (ds.map Directive.print))).mapM Directive.read = .ok ds := by
  have htexts : ∀ s ∈ ds.map Directive.print, s ≠ "" ∧ ',' ∉ s.toList := by
    rw [List.forall_mem_map]
    refine fun d hd => ⟨fun hempty => ?_, (h d hd).1⟩
    have hnothing := (h d hd).2
    rw [hempty] at hnothing
    cases hnothing
  rw [pieces_intercalate htexts, List.map_map]
  clear htexts
  induction ds with
  | nil => rfl
  | cons d ds ih =>
      have hfirst : (String.toList ∘ Directive.print) d = d.print.toList := rfl
      rw [List.map_cons, List.mapM_cons, hfirst, (h d List.mem_cons_self).2,
        ih fun e he => h e (List.mem_cons_of_mem d he)]
      rfl

end LogFilter

end Menagerie
