import Menagerie.Proofs.Filter.Grammar
import Menagerie.Proofs.Filter.Specificity

/-! Directives that can be read from their own text. No part of such a directive has a sign that ends the part, so
that the text is one of its written forms. What was read without a value from a piece without a blank in front is
such a directive, and so is a plain one with a name for its target. -/

namespace Menagerie

namespace Threshold

theorem isNamed_name (t : Threshold) : t.IsNamed t.name.toList := read?_eq_some_iff.mp t.read?_name

theorem comma_not_mem_name (t : Threshold) : ',' ∉ t.name.toList := by
  cases t <;> decide

theorem isTrimmed_name (t : Threshold) : Text.IsTrimmed t.name.toList := by
  cases t <;> decide

theorem isTarget_name (t : Threshold) : Filter.Directive.IsTarget t.name.toList where
  starts := by
    cases t <;> exact ⟨_, rfl, by decide +kernel⟩
  unmarked := by
    cases t <;> simp [name]

end Threshold

namespace Filter.Directive

open Text

variable {text : List Char} {d : Directive}

theorem IsTargetName.isTarget {name : List Char} (h : IsTargetName name) : IsTarget name where
  starts := by
    obtain ⟨c, hc, hstarts, -⟩ := h.starts
    exact ⟨c, hc, startsName_iff.mp hstarts⟩
  unmarked c hc := (h.unmarked c hc).2

theorem IsTarget.isTargetName {name : List Char} (h : IsTarget name) (hcomma : ',' ∉ name)
    (hfirst : ∀ c ∈ name.head?, isBlank c = false) : IsTargetName name where
  starts := by
    obtain ⟨c, hc, hstarts⟩ := h.starts
    exact ⟨c, hc, startsName_iff.mpr hstarts, hfirst c hc⟩
  unmarked c hc := ⟨ne_of_mem_of_not_mem hc hcomma, h.unmarked c hc⟩

/-! ### Legible directives -/

/-- No part of a directive has a sign that ends the part or the whole, and no value is wanted. -/
structure IsLegible (d : Directive) : Prop where
  target : ∀ name ∈ d.target, IsTargetName name.toList
  span : ∀ name ∈ d.span, ∀ c ∈ name.toList, c ≠ ',' ∧ c ≠ ']' ∧ c ≠ '\x7b'
  field : ∀ m ∈ d.field, m.value = none ∧ m.name ≠ "" ∧
    ∀ c ∈ m.name.toList, c ≠ ',' ∧ c ≠ '=' ∧ c ≠ '\x7d'
  /-- In front of a field the name of a span is missing where it is empty. -/
  named : d.field.isSome = true → d.span ≠ some ""

theorem exists_name_of_isWritten {body : List Char} {m : FieldMatch} (h : m.IsWritten body) (hm : m.value = none) :
    m = { name := String.ofList body } ∧ '=' ∉ body := by
  cases h with
  | name hname => exact ⟨rfl, hname⟩
  | value => cases hm

/-- What stands between brackets, without a comma and without a value, is legible. -/
theorem IsBracketed.isLegible {inner : List Char} {span : Option String} {field : Option FieldMatch}
    (h : IsBracketed inner span field) (hcomma : ',' ∉ inner) (hspan : d.span = span) (hfield : d.field = field)
    (hvalue : d.hasValue = false) (htarget : ∀ name ∈ d.target, IsTargetName name.toList) : d.IsLegible := by
  have hnone := value_eq_none hvalue
  cases h with
  | span hname =>
      refine ⟨htarget, ?_, ?_, ?_⟩
      · intro name hmem c hc
        obtain rfl := Option.some.inj (hspan.symm.trans hmem)
        rw [String.toList_ofList] at hc
        exact ⟨ne_of_mem_of_not_mem (List.mem_append_left _ hc) hcomma, hname c hc⟩
      · intro m hm
        cases hfield.symm.trans hm
      · intro hsome
        rw [hfield] at hsome
        cases hsome
  | @field name body m hname hne hbody hm =>
      obtain ⟨rfl, hequals⟩ := exists_name_of_isWritten hm (hnone m hfield)
      have hname' : ∀ n ∈ d.span, name ≠ [] ∧ String.ofList name = n := by
        intro n hn
        have heq := hspan.symm.trans hn
        split at heq
        · cases heq
        · next hempty => exact ⟨hempty, Option.some.inj heq⟩
      refine ⟨htarget, ?_, ?_, ?_⟩
      · intro n hn c hc
        obtain ⟨-, rfl⟩ := hname' n hn
        rw [String.toList_ofList] at hc
        exact ⟨ne_of_mem_of_not_mem (List.mem_append_left _ hc) hcomma, hname c hc⟩
      · intro m hm
        obtain rfl := Option.some.inj (hfield.symm.trans hm)
        refine ⟨rfl, mt String.ofList_eq_empty_iff.mp hne, fun c hc => ?_⟩
        rw [String.toList_ofList] at hc
        have hmem : c ∈ name ++ '\x7b' :: (body ++ ['\x7d', ']']) := by simp [hc]
        exact ⟨ne_of_mem_of_not_mem hmem hcomma, ne_of_mem_of_not_mem hc hequals, ne_of_mem_of_not_mem hc hbody⟩
      · intro _ hempty
        obtain ⟨hne, heq⟩ := hname' "" hempty
        exact hne (String.ofList_eq_empty_iff.mp heq)

/-- What is written without a comma, without a blank in front and without a value is legible. -/
theorem IsWritten.isLegible (h : IsWritten text d) (hcomma : ',' ∉ text) (hvalue : d.hasValue = false)
    (hfirst : ∀ c ∈ text.head?, isBlank c = false) : d.IsLegible := by
  have htarget : ∀ {name rest : List Char}, text = name ++ rest → IsTarget name →
      ∀ n ∈ some (String.ofList name), IsTargetName n.toList := by
    intro name rest htext hname n hn
    obtain rfl := Option.some.inj hn
    rw [String.toList_ofList]
    refine hname.isTargetName (fun hmem => hcomma (htext ▸ List.mem_append_left rest hmem)) fun c hc => ?_
    apply hfirst
    rw [htext]
    exact List.mem_head?_append_of_mem_head? hc
  cases h with
  | level => exact ⟨nofun, nofun, nofun, nofun⟩
  | target hname => exact ⟨htarget (List.append_nil _).symm hname, nofun, nofun, nofun⟩
  | targetLevel hname => exact ⟨htarget rfl hname, nofun, nofun, nofun⟩
  | spans hinner =>
      have hinnerComma : ',' ∉ _ := fun hmem => hcomma (List.mem_cons_of_mem _ (List.mem_append_left _ hmem))
      exact hinner.isLegible hinnerComma rfl rfl hvalue nofun
  | targetSpans hname hinner =>
      have hinnerComma : ',' ∉ _ := fun hmem =>
        hcomma (List.mem_append_right _ (List.mem_cons_of_mem _ (List.mem_append_left _ hmem)))
      exact hinner.isLegible hinnerComma rfl rfl hvalue (htarget rfl hname)

/-- What is read without a value from a piece that has no blank in front is legible. -/
theorem isLegible_of_read (hread : read text = .ok d) (hcomma : ',' ∉ text) (hvalue : d.hasValue = false)
    (hfirst : ∀ c ∈ text.head?, isBlank c = false) : d.IsLegible := by
  obtain ⟨tail, htext, htail⟩ := exists_trim_append hfirst
  rcases exists_isWritten_of_read htext htail rfl hread with hwritten | hwritten
  · exact hwritten.isLegible hcomma hvalue hfirst
  · refine hwritten.isLegible (fun hmem => hcomma (mem_of_mem_trim hmem)) hvalue fun c hc => ?_
    apply hfirst
    rw [htext]
    exact List.mem_head?_append_of_mem_head? hc

/-! ### The text of a legible directive -/

theorem toList_printWith {target : Option String} {brackets : String} {level : Threshold}
    (h : target ≠ none ∨ brackets ≠ "") : (printWith target brackets level).toList =
      (target.getD "").toList ++ (brackets.toList ++ '=' :: level.name.toList) := by
  have hfront : (target.isNone && brackets == "") = false := by
    rw [Bool.and_eq_false_iff, Option.isNone_eq_false_iff, beq_eq_false_iff_ne]
    exact h.imp_left Option.isSome_iff_ne_none.mpr
  rw [printWith, hfront, if_neg Bool.false_ne_true]
  simp

/-- The text of every directive ends with its level. -/
theorem exists_print_eq (d : Directive) : ∃ front, d.print.toList = front ++ d.level.name.toList := by
  have hprint : ∀ brackets, ∃ front, (printWith d.target brackets d.level).toList =
      front ++ d.level.name.toList := by
    intro brackets
    unfold printWith
    split
    · exact ⟨[], rfl⟩
    · exact ⟨_, String.toList_append⟩
  exact hprint _

/-- What a directive about spans shows between brackets. -/
def brackets (d : Directive) : List Char :=
  (d.span.getD "").toList ++ (d.field.elim [] fun m => '\x7b' :: (m.print.toList ++ ['\x7d'])) ++ [']']

theorem toList_print_of_dynamic (h : d.isDynamic = true) :
    d.print.toList = (d.target.getD "").toList ++ '[' :: (d.brackets ++ '=' :: d.level.name.toList) := by
  have hprint : d.print = printWith d.target
      ("[" ++ d.span.getD "" ++ (d.field.elim "" fun m => "\x7b" ++ m.print ++ "\x7d") ++ "]") d.level := by
    simp only [print, h, if_true]
  have hbrackets : ("[" ++ d.span.getD "" ++ (d.field.elim "" fun m => "\x7b" ++ m.print ++ "\x7d") ++ "]").toList =
      '[' :: d.brackets := by
    cases hfield : d.field <;> simp [brackets, hfield]
  have hne : "[" ++ d.span.getD "" ++ (d.field.elim "" fun m => "\x7b" ++ m.print ++ "\x7d") ++ "]" ≠ "" := by
    intro hempty
    rw [hempty] at hbrackets
    cases hbrackets
  rw [hprint, toList_printWith (.inr hne), hbrackets, List.cons_append]

theorem print_of_not_dynamic (h : d.isDynamic = false) : d.print = printWith d.target "" d.level := by
  simp only [print, h]
  rfl

theorem toList_print_of_value_eq_none {m : FieldMatch} (h : m.value = none) : m.print.toList = m.name.toList := by
  simp [FieldMatch.print, h]

theorem IsLegible.isBracketed (h : d.IsLegible) (hdynamic : d.isDynamic = true) :
    IsBracketed d.brackets d.span d.field := by
  have hspan : ∀ c ∈ (d.span.getD "").toList, c ≠ ',' ∧ c ≠ ']' ∧ c ≠ '\x7b' := by
    cases hname : d.span with
    | none => exact nofun
    | some name => exact h.span name hname
  cases hfield : d.field with
  | none =>
      obtain ⟨name, hname⟩ : ∃ name, d.span = some name := by
        simpa [isDynamic, hfield, Option.isSome_iff_exists] using hdynamic
      rw [hname] at hspan
      rw [brackets, hname, hfield, Option.getD_some, Option.elim_none, List.append_nil]
      have hbracketed := IsBracketed.span fun c hc => (hspan c hc).2
      rwa [Option.getD_some, String.ofList_toList] at hbracketed
  | some m =>
      obtain ⟨hvalue, hne, hbody⟩ := h.field m hfield
      have hm : m.IsWritten m.name.toList := by
        have hname := FieldMatch.IsWritten.name fun hmem => (hbody '=' hmem).2.1 rfl
        rw [String.ofList_toList] at hname
        rwa [← hvalue] at hname
      have hbracketed := IsBracketed.field (fun c hc => (hspan c hc).2) (mt String.toList_eq_nil_iff.mp hne)
        (fun hmem => (hbody '\x7d' hmem).2.2 rfl) hm
      have hnone : (if (d.span.getD "").toList = [] then none else some (String.ofList (d.span.getD "").toList)) =
          d.span := by
        have hnamed := h.named (by rw [hfield]; rfl)
        cases hname : d.span with
        | none => rfl
        | some name =>
            rw [hname] at hnamed
            have hempty : name ≠ "" := fun heq => hnamed (congrArg some heq)
            rw [Option.getD_some, if_neg (mt String.toList_eq_nil_iff.mp hempty), String.ofList_toList]
      rw [hnone] at hbracketed
      rw [brackets, hfield, Option.elim_some, toList_print_of_value_eq_none hvalue]
      simpa using hbracketed

theorem IsLegible.comma_not_mem_brackets (h : d.IsLegible) : ',' ∉ d.brackets := by
  have hspan : ',' ∉ (d.span.getD "").toList := by
    cases hname : d.span with
    | none => exact nofun
    | some name => exact fun hmem => (h.span name hname ',' hmem).1 rfl
  have hfield : ',' ∉ d.field.elim [] fun m => '\x7b' :: (m.print.toList ++ ['\x7d']) := by
    cases hm : d.field with
    | none => exact nofun
    | some m =>
        obtain ⟨hvalue, -, hbody⟩ := h.field m hm
        have hname : ',' ∉ m.name.toList := fun hmem => (hbody ',' hmem).1 rfl
        simp [toList_print_of_value_eq_none hvalue, hname]
  simp [brackets, hspan, hfield]

/-- The text of a legible directive is one of its written forms. -/
theorem IsLegible.isWritten_print (h : d.IsLegible) : IsWritten d.print.toList d := by
  have hlevel : IsLevel d.level.name.toList d.level := .named d.level.isNamed_name
  cases hdynamic : d.isDynamic with
  | true =>
      have hinner := h.isBracketed hdynamic
      rw [toList_print_of_dynamic hdynamic]
      cases htarget : d.target with
      | none =>
          have hwritten := IsWritten.spans hinner (.level hlevel)
          rwa [← htarget] at hwritten
      | some name =>
          have hwritten := IsWritten.targetSpans (h.target name htarget).isTarget hinner (.level hlevel)
          rwa [String.ofList_toList, ← htarget] at hwritten
  | false =>
      rw [print_of_not_dynamic hdynamic]
      obtain ⟨target, span, field, level⟩ := d
      obtain ⟨rfl, rfl⟩ : span = none ∧ field = none := by simpa [isDynamic] using hdynamic
      cases target with
      | none => exact .level level.isTarget_name level.isNamed_name
      | some name =>
          have hwritten := IsWritten.targetLevel (h.target name rfl).isTarget hlevel
          rw [String.ofList_toList] at hwritten
          rwa [toList_printWith (.inl (Option.some_ne_none name))]

theorem IsLegible.head_print (h : d.IsLegible) : ∀ c ∈ d.print.toList.head?, isBlank c = false := by
  cases htarget : d.target with
  | none =>
      cases hdynamic : d.isDynamic with
      | true =>
          rw [toList_print_of_dynamic hdynamic, htarget]
          intro c hc
          obtain rfl := Option.some.inj hc
          rfl
      | false =>
          rw [print_of_not_dynamic hdynamic, htarget]
          exact d.level.isTrimmed_name.first
  | some name =>
      obtain ⟨first, hfirst, -, hblank⟩ := (h.target name htarget).starts
      obtain ⟨brackets, hprint⟩ : ∃ brackets, d.print = printWith (some name) brackets d.level :=
        ⟨_, by rw [← htarget]; rfl⟩
      have hhead : first ∈ d.print.toList.head? := by
        rw [hprint, toList_printWith (.inl (Option.some_ne_none name))]
        exact List.mem_head?_append_of_mem_head? hfirst
      intro c hc
      obtain rfl := Option.mem_unique hhead hc
      exact hblank

theorem IsLegible.comma_not_mem_print (h : d.IsLegible) : ',' ∉ d.print.toList := by
  have hlevel := d.level.comma_not_mem_name
  have htarget : ',' ∉ (d.target.getD "").toList := by
    cases hname : d.target with
    | none => exact nofun
    | some name => exact fun hmem => ((h.target name hname).unmarked ',' hmem).1 rfl
  cases hdynamic : d.isDynamic with
  | true =>
      have hbrackets := h.comma_not_mem_brackets
      simp [toList_print_of_dynamic hdynamic, htarget, hbrackets, hlevel]
  | false =>
      rw [print_of_not_dynamic hdynamic]
      cases hname : d.target with
      | none => exact hlevel
      | some name =>
          rw [hname, Option.getD_some] at htarget
          rw [toList_printWith (.inl (Option.some_ne_none name))]
          simp [htarget, hlevel]

/-- A legible directive is read back from its text. -/
theorem IsLegible.read_print (h : d.IsLegible) : read d.print.toList = .ok d := by
  refine h.isWritten_print.read_eq ⟨h.head_print, ?_⟩
  obtain ⟨front, hfront⟩ := d.exists_print_eq
  have hname : d.level.name.toList ≠ [] := by
    cases d.level <;> decide
  rw [hfront, List.getLast?_append_of_ne_nil _ hname]
  exact d.level.isTrimmed_name.last

theorem IsPlain.isLegible (hplain : d.IsPlain) (htarget : ∀ name ∈ d.target, IsTargetName name.toList) :
    d.IsLegible := by
  obtain ⟨target, span, field, level⟩ := d
  obtain ⟨rfl, rfl⟩ : span = none ∧ field = none := hplain
  exact ⟨htarget, nofun, nofun, nofun⟩

end Filter.Directive

namespace LogFilter

open Menagerie.Filter

/-- Legible directives are read back from their texts with commas between them. -/
theorem mapM_read_pieces_of_legible {ds : List Directive} (h : ∀ d ∈ ds, d.IsLegible) :
    (pieces (",".intercalate (ds.map Directive.print))).mapM Directive.read = .ok ds :=
  mapM_read_pieces_of_read fun d hd => ⟨(h d hd).comma_not_mem_print, (h d hd).read_print⟩

theorem mapM_read_pieces_print {ds : List Directive} (hplain : ∀ d ∈ ds, d.IsPlain)
    (htarget : ∀ d ∈ ds, ∀ name ∈ d.target, Directive.IsTargetName name.toList) :
    (pieces (",".intercalate (ds.map Directive.print))).mapM Directive.read = .ok ds :=
  mapM_read_pieces_of_legible fun d hd => (hplain d hd).isLegible (htarget d hd)

end LogFilter

end Menagerie
