import Menagerie.Proofs.Filter.Values
import Menagerie.Proofs.Filter.Written

/-! A directive is read exactly as it is written. The reader goes over the text once and remembers distances in
octets; from one sign that ends a part to the next its state does not change, and there the part between the two
is cut out. The blanks behind the last part are not read, but they belong to a target or a level that nothing
ends. -/

namespace Menagerie

namespace Filter

namespace Directive

/-- Reads what is left of a directive. -/
def readFrom (text : List Char) (i : Nat) (d : Directive) (state : DirectiveState) (rest : List Char) :
    Except DirectiveFault Directive :=
  match steps text i d state rest with
  | .error f => .error f
  | .ok (d, state) => finish text d state

variable {text front rest tail more inner ending : List Char} {i : Nat} {d d' : Directive} {state : DirectiveState}
  {span : Option String} {field : Option FieldMatch} {t : Threshold}

theorem readFrom_nil : readFrom text i d state [] = finish text d state := rfl

theorem readFrom_step {d₁ : Directive} {state₁ : DirectiveState} {c : Char}
    (h : step text i c d state = .ok (d₁, state₁)) :
    readFrom text i d state (c :: rest) = readFrom text (i + c.utf8Size) d₁ state₁ rest := by
  simp only [readFrom, steps, h]

theorem readFrom_fault {f : DirectiveFault} {c : Char} (h : step text i c d state = .error f) :
    readFrom text i d state (c :: rest) = .error f := by
  simp only [readFrom, steps, h]

/-- Characters that do not end a part are passed over. -/
theorem readFrom_run {run : List Char} (h : ∀ c ∈ run, ∀ i, step text i c d state = .ok (d, state)) :
    readFrom text i d state (run ++ rest) = readFrom text (i + octetCount run) d state rest := by
  induction run generalizing i with
  | nil => rfl
  | cons c run ih =>
      rw [List.cons_append, readFrom_step (h c List.mem_cons_self i),
        ih fun c' hc' => h c' (List.mem_cons_of_mem c hc'), octetCount_cons, Nat.add_assoc]

/-- A part is passed over up to the sign that ends it. -/
theorem readFrom_part {part : List Char} {c : Char} {d₁ : Directive} {state₁ : DirectiveState}
    (hpart : ∀ c ∈ part, ∀ i, step text i c d state = .ok (d, state))
    (hend : step text (octetCount (front ++ part)) c d state = .ok (d₁, state₁)) :
    readFrom text (octetCount front) d state (part ++ c :: rest) =
      readFrom text (octetCount (front ++ (part ++ [c]))) d₁ state₁ rest := by
  rw [readFrom_run hpart, ← octetCount_append, readFrom_step hend, ← octetCount_concat, List.append_assoc]

/-! ### Levels -/

theorem finish_level_eq_ok_iff {start : Nat} {word : List Char} (h : cutFrom text start = .ok word) :
    finish text d (.level start) = .ok d' ↔ ∃ t, IsLevel word t ∧ d' = { d with level := t } := by
  have hnone : Threshold.read? [] = none := rfl
  cases word with
  | nil =>
      simp only [finish, h]
      constructor
      · intro hd
        exact ⟨.trace, .nothing, (Except.ok.inj hd).symm⟩
      · rintro ⟨t, hlevel, rfl⟩
        cases hlevel with
        | nothing => rfl
        | named hnamed =>
            rw [Threshold.read?_eq_some_iff.mpr hnamed] at hnone
            cases hnone
  | cons c word =>
      simp only [finish, h]
      cases hread : Threshold.read? (c :: word) with
      | none =>
          constructor
          · intro hd
            cases hd
          · rintro ⟨t, hlevel, -⟩
            cases hlevel with
            | named hnamed =>
                rw [Threshold.read?_eq_some_iff.mpr hnamed] at hread
                cases hread
      | some level =>
          have hnamed := Threshold.read?_eq_some_iff.mp hread
          constructor
          · intro hd
            exact ⟨level, .named hnamed, (Except.ok.inj hd).symm⟩
          · rintro ⟨t, hlevel, rfl⟩
            cases hlevel with
            | named hnamed =>
                rw [Threshold.read?_eq_some_iff.mpr hnamed] at hread
                obtain rfl := Option.some.inj hread
                rfl

/-- All that follows an equals sign is the level. -/
theorem readFrom_level_eq_ok_iff (htext : text = front ++ (rest ++ tail)) :
    readFrom text i d (.level (octetCount front)) rest = .ok d' ↔
      ∃ t, IsLevel (rest ++ tail) t ∧ d' = { d with level := t } := by
  have hrun : readFrom text i d (.level (octetCount front)) rest = finish text d (.level (octetCount front)) := by
    rw [← List.append_nil rest, readFrom_run fun c _ i => rfl, readFrom_nil]
  rw [hrun, finish_level_eq_ok_iff (htext ▸ cutFrom_append front (rest ++ tail))]

/-- Behind a closing bracket there is nothing or a level. -/
theorem readFrom_target_eq_ok_iff (htext : text = front ++ (rest ++ tail)) :
    readFrom text (octetCount front) d .target rest = .ok d' ↔
      rest = [] ∧ d' = d ∨ ∃ word t, rest = '=' :: word ∧ IsLevel (word ++ tail) t ∧ d' = { d with level := t } := by
  cases rest with
  | nil =>
      rw [readFrom_nil]
      constructor
      · intro h
        exact .inl ⟨rfl, (Except.ok.inj h).symm⟩
      · rintro (⟨-, rfl⟩ | ⟨word, t, h, -⟩)
        · rfl
        · cases h
  | cons c word =>
      by_cases hc : c = '='
      · subst hc
        have hstep : step text (octetCount front) '=' d .target = .ok (d, .level (octetCount front + 1)) := rfl
        have hword : text = (front ++ ['=']) ++ (word ++ tail) := by simp [htext]
        have hstart : octetCount front + 1 = octetCount (front ++ ['=']) := (octetCount_concat front '=').symm
        rw [readFrom_step hstep, hstart, readFrom_level_eq_ok_iff hword]
        simp
      · have hstep : step text (octetCount front) c d .target = .error .malformed := by simp [step, hc]
        rw [readFrom_fault hstep]
        constructor
        · intro h
          cases h
        · rintro (⟨h, -⟩ | ⟨word', t, h, -⟩)
          · cases h
          · exact absurd (List.cons.inj h).1 hc

/-! ### Brackets -/

theorem step_span {c : Char} {start : Nat} (h : c ≠ ']' ∧ c ≠ '\x7b') :
    step text i c d (.span start) = .ok (d, .span start) := by
  simp [step, h.1, h.2]

theorem step_field {c : Char} {start : Nat} (h : c ≠ '\x7d') :
    step text i c d (.field start) = .ok (d, .field start) := by
  simp [step, h]

section

variable {name : List Char} (hname : ∀ c ∈ name, c ≠ ']' ∧ c ≠ '\x7b')
include hname

/-- The name of a span is cut out in front of the closing bracket. -/
theorem readFrom_span_close (htext : text = front ++ (name ++ ']' :: more)) :
    readFrom text (octetCount front) d (.span (octetCount front)) (name ++ ']' :: rest) =
      readFrom text (octetCount (front ++ (name ++ [']']))) { d with span := some (String.ofList name) } .target
        rest := by
  refine readFrom_part (fun c hc i => step_span (hname c hc)) ?_
  simp only [step, beq_self_eq_true, if_true, htext, cut_between]
  rfl

/-- In front of a brace the name of a span may be missing. -/
theorem readFrom_span_brace (htext : text = front ++ (name ++ '\x7b' :: more)) :
    readFrom text (octetCount front) d (.span (octetCount front)) (name ++ '\x7b' :: rest) =
      readFrom text (octetCount (front ++ (name ++ ['\x7b']))) { d with span := nonempty name }
        (.field (octetCount (front ++ (name ++ ['\x7b'])))) rest := by
  have hne : ('\x7b' == ']') = false := rfl
  refine readFrom_part (fun c hc i => step_span (hname c hc)) ?_
  rw [← List.append_assoc, octetCount_concat]
  simp only [step, hne, Bool.false_eq_true, if_false, beq_self_eq_true, if_true, htext, cut_between]
  rfl

end

/-- A name with its value is cut out in front of the closing brace. -/
theorem step_field_close {body : List Char} (htext : text = front ++ (body ++ '\x7d' :: more)) :
    step text (octetCount (front ++ body)) '\x7d' d (.field (octetCount front)) =
      if body.isEmpty then .error .malformed
      else
        match FieldMatch.read body with
        | .ok m => .ok ({ d with field := some m }, .fields)
        | .error f => .error (.badPattern f) := by
  simp only [step, beq_self_eq_true, if_true, htext, cut_between]
  rfl

theorem readFrom_field_run {body : List Char} (hbody : '\x7d' ∉ body) :
    readFrom text (octetCount front) d (.field (octetCount front)) (body ++ rest) =
      readFrom text (octetCount (front ++ body)) d (.field (octetCount front)) rest := by
  rw [readFrom_run fun c hc i => step_field (ne_of_mem_of_not_mem hc hbody), octetCount_append]

theorem readFrom_field {body : List Char} {m : FieldMatch} (hne : body ≠ []) (hbody : '\x7d' ∉ body)
    (hm : m.IsWritten body) (htext : text = front ++ (body ++ '\x7d' :: ']' :: more)) :
    readFrom text (octetCount front) d (.field (octetCount front)) (body ++ '\x7d' :: ']' :: rest) =
      readFrom text (octetCount (front ++ (body ++ ['\x7d', ']']))) { d with field := some m } .target rest := by
  have hempty : body.isEmpty = false := List.isEmpty_eq_false_iff.mpr hne
  have hclose : step text (octetCount (front ++ body)) '\x7d' d (.field (octetCount front)) =
      .ok ({ d with field := some m }, .fields) := by
    rw [step_field_close htext, hempty, FieldMatch.read_eq_ok_iff.mpr hm]
    rfl
  have hfields : ∀ i, step text i ']' { d with field := some m } .fields =
      .ok ({ d with field := some m }, .target) := fun i => rfl
  have hend : octetCount (front ++ (body ++ ['\x7d', ']'])) = octetCount (front ++ body) + 1 + 1 := by
    rw [← List.append_assoc, octetCount_append]
    rfl
  rw [readFrom_field_run hbody, readFrom_step hclose, readFrom_step (hfields _), hend]
  rfl

/-- Reading on from an opening brace needs a name, the closing brace and the closing bracket. -/
theorem exists_of_readFrom_field (htext : text = front ++ (rest ++ tail))
    (h : readFrom text (octetCount front) d (.field (octetCount front)) rest = .ok d') :
    ∃ body m behind, rest = body ++ '\x7d' :: ']' :: behind ∧ body ≠ [] ∧ '\x7d' ∉ body ∧
      FieldMatch.IsWritten body m := by
  obtain ⟨body, behind, rfl, hrun, hstop⟩ := Text.exists_run_append (· != '\x7d') rest
  have hbody : '\x7d' ∉ body := fun hmem => bne_iff_ne.mp (hrun _ hmem) rfl
  rw [readFrom_field_run hbody] at h
  cases behind with
  | nil => cases h
  | cons c behind =>
      obtain rfl := bne_eq_false_iff_eq.mp (hstop c rfl)
      have hclosed : text = front ++ (body ++ '\x7d' :: (behind ++ tail)) := by simp [htext]
      have hclose : step text _ _ d _ = _ := step_field_close hclosed
      cases body with
      | nil =>
          rw [readFrom_fault hclose] at h
          cases h
      | cons first body =>
          cases hm : FieldMatch.read (first :: body) with
          | error f =>
              rw [hm] at hclose
              rw [readFrom_fault hclose] at h
              cases h
          | ok m =>
              rw [hm] at hclose
              rw [readFrom_step hclose] at h
              cases behind with
              | nil => cases h
              | cons c behind =>
                  by_cases hc : c = ']'
                  · subst hc
                    exact ⟨first :: body, m, behind, rfl, List.cons_ne_nil _ _, hbody, FieldMatch.read_eq_ok_iff.mp hm⟩
                  · have hfault : ∀ i, step text i c { d with field := some m } .fields = .error .malformed := by
                      intro i
                      simp [step, hc]
                    rw [readFrom_fault (hfault _)] at h
                    cases h

theorem nonempty_eq (name : List Char) : nonempty name = if name = [] then none else some (String.ofList name) := by
  cases name <;> rfl

/-- What stands between brackets is read as it is written. -/
theorem IsBracketed.readFrom_eq (h : IsBracketed inner span field) (hd : d.field = none)
    (htext : text = front ++ (inner ++ more)) :
    readFrom text (octetCount front) d (.span (octetCount front)) (inner ++ rest) =
      readFrom text (octetCount (front ++ inner)) { d with span, field } .target rest := by
  cases h with
  | @span name hname =>
      have hclosed : text = front ++ (name ++ ']' :: more) := by simp [htext]
      rw [List.append_assoc, List.singleton_append, readFrom_span_close hname hclosed, hd]
  | @field name body m hname hne hbody hm =>
      have hopened : text = front ++ (name ++ '\x7b' :: (body ++ '\x7d' :: ']' :: more)) := by simp [htext]
      have hclosed : text = (front ++ (name ++ ['\x7b'])) ++ (body ++ '\x7d' :: ']' :: more) := by simp [htext]
      have hinner : front ++ (name ++ ['\x7b']) ++ (body ++ ['\x7d', ']']) =
          front ++ (name ++ '\x7b' :: (body ++ ['\x7d', ']'])) := by simp
      rw [List.append_assoc, List.cons_append, List.append_assoc, List.cons_append, List.singleton_append,
        readFrom_span_brace hname hopened, readFrom_field hne hbody hm hclosed, hinner, nonempty_eq]

theorem exists_isBracketed_of_readFrom (htext : text = front ++ (rest ++ tail))
    (h : readFrom text (octetCount front) d (.span (octetCount front)) rest = .ok d') :
    ∃ inner ending span field, rest = inner ++ ending ∧ IsBracketed inner span field := by
  obtain ⟨name, behind, rfl, hrun, hstop⟩ := Text.exists_run_append (fun c => c != ']' && c != '\x7b') rest
  have hname : ∀ c ∈ name, c ≠ ']' ∧ c ≠ '\x7b' := by simpa using hrun
  cases behind with
  | nil =>
      rw [readFrom_run fun c hc i => step_span (hname c hc)] at h
      cases h
  | cons c behind =>
      have hc : c = ']' ∨ c = '\x7b' := by simpa [or_iff_not_imp_left] using hstop
      rcases hc with rfl | rfl
      · exact ⟨name ++ [']'], behind, _, _, by simp, .span hname⟩
      · have hopened : text = front ++ (name ++ '\x7b' :: (behind ++ tail)) := by simp [htext]
        have hbehind : text = (front ++ (name ++ ['\x7b'])) ++ (behind ++ tail) := by simp [htext]
        rw [readFrom_span_brace hname hopened] at h
        obtain ⟨body, m, behind, rfl, hne, hbody, hm⟩ := exists_of_readFrom_field hbehind h
        exact ⟨name ++ '\x7b' :: (body ++ ['\x7d', ']']), behind, _, _, by simp, .field hname hne hbody hm⟩

/-- What follows an opening bracket: the reader takes the level with the blanks behind it, if there is one. -/
theorem exists_isWritten_of_readFrom_span (htext : text = front ++ (rest ++ tail)) (hfield : d.field = none)
    (hlevel : d.level = .trace)
    (h : readFrom text (octetCount front) d (.span (octetCount front)) rest = .ok d') :
    ∃ inner ending span field t, (rest = inner ++ ending ∨ rest ++ tail = inner ++ ending) ∧
      IsBracketed inner span field ∧ IsEnding ending t ∧ d' = { d with span, field, level := t } := by
  obtain ⟨inner, behind, span, field, rfl, hinner⟩ := exists_isBracketed_of_readFrom htext h
  have hopened : text = front ++ (inner ++ (behind ++ tail)) := by simp [htext]
  have hclosed : text = (front ++ inner) ++ (behind ++ tail) := by simp [htext]
  rw [hinner.readFrom_eq hfield hopened, readFrom_target_eq_ok_iff hclosed] at h
  rcases h with ⟨rfl, rfl⟩ | ⟨word, t, rfl, hword, rfl⟩
  · refine ⟨inner, [], span, field, .trace, .inl rfl, hinner, .nothing, ?_⟩
    rw [← hlevel]
  · exact ⟨inner, '=' :: (word ++ tail), span, field, t, .inr (by simp), hinner, .level hword, rfl⟩

theorem readFrom_span_of_isWritten (hinner : IsBracketed inner span field) (hending : IsEnding ending t)
    (htext : text = front ++ (inner ++ ending)) (hfield : d.field = none) (hlevel : d.level = .trace) :
    readFrom text (octetCount front) d (.span (octetCount front)) (inner ++ ending) =
      .ok { d with span, field, level := t } := by
  have hclosed : text = (front ++ inner) ++ (ending ++ []) := by simp [htext]
  rw [hinner.readFrom_eq hfield htext, readFrom_target_eq_ok_iff hclosed]
  cases hending with
  | nothing => exact .inl ⟨rfl, by rw [← hlevel]⟩
  | level h => exact .inr ⟨_, _, rfl, by rwa [List.append_nil], rfl⟩

/-! ### Targets -/

theorem startsName_iff {c : Char} :
    startsName c = true ↔ c = '-' ∨ c = ':' ∨ c = '_' ∨ Text.isAlphanumeric c = true := by
  simp [startsName, or_assoc]

theorem IsTarget.exists_cons {name : List Char} (h : IsTarget name) :
    ∃ c rest, name = c :: rest ∧ startsName c = true ∧ c ≠ '[' := by
  obtain ⟨c, hc, hstarts⟩ := h.starts
  cases name with
  | nil => cases hc
  | cons first rest =>
      obtain rfl := Option.some.inj hc
      exact ⟨first, rest, rfl, startsName_iff.mpr hstarts, (h.unmarked first List.mem_cons_self).2⟩

theorem step_levelOrTarget {c : Char} (h : c ≠ '=' ∧ c ≠ '[') :
    step text i c d .levelOrTarget = .ok (d, .levelOrTarget) := by
  simp [step, h.1, h.2]

/-- A target is passed over, up to the sign that ends it. -/
theorem readFrom_target {name : List Char} (h : IsTarget name) :
    readFrom text 0 d .start (name ++ rest) = readFrom text (octetCount name) d .levelOrTarget rest := by
  obtain ⟨c, run, rfl, hstarts, hbracket⟩ := h.exists_cons
  have hstep : step text 0 c d .start = .ok (d, .levelOrTarget) := by simp [step, hstarts, hbracket]
  rw [List.cons_append, readFrom_step hstep,
    readFrom_run fun c' hc' i => step_levelOrTarget (h.unmarked c' (List.mem_cons_of_mem c hc')), Nat.zero_add,
    octetCount_cons]

section

variable {name : List Char} (htext : text = name ++ more)
include htext

theorem readFrom_equals : readFrom text (octetCount name) d .levelOrTarget ('=' :: rest) =
    readFrom text (octetCount (name ++ ['='])) { d with target := some (String.ofList name) }
      (.level (octetCount (name ++ ['=']))) rest := by
  rw [octetCount_concat]
  refine readFrom_step ?_
  simp only [step, beq_self_eq_true, if_true, htext, cut_append]
  rfl

theorem readFrom_bracket : readFrom text (octetCount name) d .levelOrTarget ('[' :: rest) =
    readFrom text (octetCount (name ++ ['['])) { d with target := some (String.ofList name) }
      (.span (octetCount (name ++ ['[']))) rest := by
  have hne : ('[' == '=') = false := rfl
  rw [octetCount_concat]
  refine readFrom_step ?_
  simp only [step, hne, Bool.false_eq_true, if_false, beq_self_eq_true, if_true, htext, cut_append]
  rfl

end

theorem readFrom_opening : readFrom text 0 d .start ('[' :: rest) =
    readFrom text (octetCount ['[']) d (.span (octetCount ['['])) rest := rfl

/-- A text that nothing ends is a level if it names one, else a target. -/
theorem finish_levelOrTarget_eq_ok_iff : finish text {} .levelOrTarget = .ok d ↔
    (∃ t : Threshold, t.IsNamed text ∧ d = { level := t }) ∨
      (∀ t : Threshold, ¬t.IsNamed text) ∧ d = { target := some (String.ofList text) } := by
  cases hread : Threshold.read? text with
  | some level =>
      have hnamed := Threshold.read?_eq_some_iff.mp hread
      simp only [finish, hread]
      constructor
      · intro h
        exact .inl ⟨level, hnamed, (Except.ok.inj h).symm⟩
      · rintro (⟨t, ht, rfl⟩ | ⟨hnone, -⟩)
        · rw [Threshold.read?_eq_some_iff.mpr ht] at hread
          obtain rfl := Option.some.inj hread
          rfl
        · exact absurd hnamed (hnone level)
  | none =>
      have hnone := Threshold.read?_eq_none_iff.mp hread
      simp only [finish, hread]
      constructor
      · intro h
        exact .inr ⟨hnone, (Except.ok.inj h).symm⟩
      · rintro (⟨t, ht, -⟩ | ⟨-, rfl⟩)
        · exact absurd ht (hnone t)
        · rfl

/-! ### Whole directives -/

/-- What is written as a directive is read as that directive. -/
theorem IsWritten.read_eq (h : IsWritten text d) (htrimmed : Text.IsTrimmed text) : read text = .ok d := by
  have hread : read text = readFrom text 0 {} .start text := by
    rw [read, htrimmed.trim_eq]
    rfl
  rw [hread]
  cases h with
  | level hname h =>
      rw [← List.append_nil text, readFrom_target hname, List.append_nil, readFrom_nil,
        finish_levelOrTarget_eq_ok_iff]
      exact .inl ⟨_, h, rfl⟩
  | target hname h =>
      rw [← List.append_nil text, readFrom_target hname, List.append_nil, readFrom_nil,
        finish_levelOrTarget_eq_ok_iff]
      exact .inr ⟨h, rfl⟩
  | @targetLevel name word t hname h =>
      have hword : name ++ '=' :: word = (name ++ ['=']) ++ (word ++ []) := by simp
      rw [readFrom_target hname, readFrom_equals rfl, readFrom_level_eq_ok_iff hword]
      exact ⟨t, by rwa [List.append_nil], rfl⟩
  | spans hinner hending =>
      rw [readFrom_opening]
      exact readFrom_span_of_isWritten (d := {}) hinner hending rfl rfl rfl
  | @targetSpans name inner ending span field t hname hinner hending =>
      have hopened : name ++ '[' :: (inner ++ ending) = (name ++ ['[']) ++ (inner ++ ending) := by simp
      rw [readFrom_target hname, readFrom_bracket rfl]
      exact readFrom_span_of_isWritten (d := { target := some (String.ofList name) }) hinner hending hopened rfl rfl

theorem IsTarget.cons {c : Char} {run : List Char} (hstarts : startsName c = true) (hc : c ≠ '[')
    (hrun : ∀ c ∈ run, c ≠ '=' ∧ c ≠ '[') : IsTarget (c :: run) where
  starts := ⟨c, rfl, startsName_iff.mp hstarts⟩
  unmarked := by
    have hequals : startsName '=' = false := by decide +kernel
    rw [List.forall_mem_cons]
    refine ⟨⟨?_, hc⟩, hrun⟩
    rintro rfl
    rw [hequals] at hstarts
    cases hstarts

theorem IsTarget.append_blanks {name : List Char} (h : IsTarget name) (htail : ∀ c ∈ tail, Text.isBlank c = true) :
    IsTarget (name ++ tail) where
  starts := by
    obtain ⟨c, hc, hstarts⟩ := h.starts
    exact ⟨c, List.mem_head?_append_of_mem_head? hc, hstarts⟩
  unmarked c hc := by
    rcases List.mem_append.mp hc with hc | hc
    · exact h.unmarked c hc
    · have hblank := htail c hc
      constructor <;> rintro rfl <;> cases hblank

/-- What is read as a directive is written as that directive, maybe without the blanks behind its last part. -/
theorem exists_isWritten_of_read {core : List Char} (htext : text = core ++ tail)
    (htail : ∀ c ∈ tail, Text.isBlank c = true) (htrim : Text.trim text = core) (h : read text = .ok d) :
    IsWritten text d ∨ IsWritten core d := by
  have hread : readFrom text 0 {} .start core = .ok d := by
    rw [← h, read, htrim]
    rfl
  cases core with
  | nil => cases hread
  | cons c rest =>
      by_cases hbracket : c = '['
      · subst hbracket
        have hopened : text = ['['] ++ (rest ++ tail) := htext
        rw [readFrom_opening] at hread
        obtain ⟨inner, ending, span, field, t, hwritten, hinner, hending, rfl⟩ :=
          exists_isWritten_of_readFrom_span hopened rfl rfl hread
        rcases hwritten with rfl | hwritten
        · exact .inr (.spans hinner hending)
        · rw [htext, List.cons_append, hwritten]
          exact .inl (.spans hinner hending)
      cases hstarts : startsName c with
      | false =>
          have hfault : step text 0 c {} .start = .error .malformed := by simp [step, hbracket, hstarts]
          rw [readFrom_fault hfault] at hread
          cases hread
      | true =>
          obtain ⟨run, behind, rfl, hrun, hstop⟩ := Text.exists_run_append (fun c => c != '=' && c != '[') rest
          have hname : IsTarget (c :: run) := .cons hstarts hbracket (by simpa using hrun)
          rw [← List.cons_append, readFrom_target hname] at hread
          cases behind with
          | nil =>
              have htarget : IsTarget text := by
                rw [htext, List.append_nil]
                exact hname.append_blanks htail
              rw [readFrom_nil, finish_levelOrTarget_eq_ok_iff] at hread
              rcases hread with ⟨t, ht, rfl⟩ | ⟨hnone, rfl⟩
              · exact .inl (.level htarget ht)
              · exact .inl (.target htarget hnone)
          | cons sign behind =>
              have hsign : sign = '=' ∨ sign = '[' := by simpa [or_iff_not_imp_left] using hstop
              have hended : text = (c :: run) ++ sign :: (behind ++ tail) := by simp [htext]
              have hbehind : text = ((c :: run) ++ [sign]) ++ (behind ++ tail) := by simp [htext]
              rcases hsign with rfl | rfl
              · rw [readFrom_equals hended, readFrom_level_eq_ok_iff hbehind] at hread
                obtain ⟨t, hword, rfl⟩ := hread
                rw [hended]
                exact .inl (.targetLevel hname hword)
              · rw [readFrom_bracket hended] at hread
                obtain ⟨inner, ending, span, field, t, hwritten, hinner, hending, rfl⟩ :=
                  exists_isWritten_of_readFrom_span hbehind rfl rfl hread
                rcases hwritten with rfl | hwritten
                · exact .inr (.targetSpans hname hinner hending)
                · rw [hended, hwritten]
                  exact .inl (.targetSpans hname hinner hending)

/-- **Directives are read exactly as they are written.** -/
theorem read_eq_ok_iff (htrimmed : Text.IsTrimmed text) : read text = .ok d ↔ IsWritten text d := by
  constructor
  · intro h
    rcases exists_isWritten_of_read (List.append_nil text).symm nofun htrimmed.trim_eq h with hwritten | hwritten
    · exact hwritten
    · exact hwritten
  · exact fun h => h.read_eq htrimmed

end Directive

end Filter

/-! ### Whole filters -/

namespace LogFilter

open Menagerie.Filter

/-- Every piece between commas that is not empty is written as a directive, and the filter is made of these. -/
def IsWritten (text : String) (f : LogFilter) : Prop :=
  ∃ ds, List.Forall₂ Directive.IsWritten (pieces text) ds ∧ ofDirectives ds = f

variable {text : String} {f : LogFilter}

/-- A filter of which no piece has blanks at its ends is read exactly as it is written. -/
theorem read_eq_ok_iff_isWritten (htrimmed : ∀ piece ∈ pieces text, Text.IsTrimmed piece) :
    read text = .ok f ↔ IsWritten text f := by
  have hpieces : ∀ ds, List.Forall₂ (fun piece d => Directive.read piece = .ok d) (pieces text) ds ↔
      List.Forall₂ Directive.IsWritten (pieces text) ds := by
    intro ds
    rw [List.forall₂_iff_get, List.forall₂_iff_get]
    refine and_congr_right fun _ => forall₃_congr fun i hi _ => ?_
    exact Directive.read_eq_ok_iff (htrimmed _ (List.get_mem _ _))
  simp only [read_eq_ok_iff, mapM_eq_ok_iff_forall₂, hpieces, IsWritten]

/-- **Filters are read exactly as they are written.** A piece without blanks at its ends is read as a directive
exactly if it is written as that directive. In place of a value stands a truth value, a number or a valid
pattern. A text of such pieces is read exactly if every piece is written as a directive, and settings with that
text have the filter of these directives, as long as no variable has another one. -/
theorem reads_as_written :
    (∀ piece, Text.IsTrimmed piece → ∀ d, Directive.read piece = .ok d ↔ Directive.IsWritten piece d) ∧
    (∀ cs, (∃ v, WantedValue.IsWritten cs v) ↔
      (∃ b : Bool, cs = (toString b).toList) ∨ Decimal.IsFraction cs ∨
        ∃ p, Pattern.read (String.ofList cs) = .ok p) ∧
    ∀ text, (∀ piece ∈ pieces text, Text.IsTrimmed piece) → ∀ f, (read text = .ok f ↔ IsWritten text f) ∧
      ∀ (s : LogSettings) (env : Environment), s.logLevel = text → env.text? variableName = none →
        (s.filter env = .ok f ↔ IsWritten text f) := by
  refine ⟨fun piece htrimmed d => Directive.read_eq_ok_iff htrimmed, fun cs => WantedValue.exists_isWritten_iff,
    fun text htrimmed f => ⟨read_eq_ok_iff_isWritten htrimmed, ?_⟩⟩
  rintro s env rfl henv
  rw [← read_eq_ok_iff_isWritten htrimmed, LogSettings.filter, henv, choose]
  cases read s.logLevel <;> simp

/-- A brace belongs to a target, a level is a number with a sign and a zero, what follows a second equals sign
counts for nothing, a span has the empty name, a level stands in capitals, and a number is too large for one. -/
def crowdedText : String := "a\x7b[b]=+03,[\x7bx=1=2\x7d]=,[],INFO,9"

def crowdedDirectives : List Directive :=
  [{ target := some "a\x7b", span := some "b", level := .info }, { field := some ⟨"x", some (.unsigned 1)⟩ },
    { span := some "" }, { level := .info }, { target := some "9" }]

theorem reads_as_written_crowded :
    (∀ piece ∈ pieces crowdedText, Text.IsTrimmed piece) ∧
      Directive.read "a\x7b[b]=+03".toList = .ok { target := some "a\x7b", span := some "b", level := .info } ∧
      (∃ v, WantedValue.IsWritten "1".toList v) ∧ IsWritten crowdedText (ofDirectives crowdedDirectives) ∧
      LogSettings.filter { logLevel := crowdedText } {} = .ok (ofDirectives crowdedDirectives) := by
  obtain ⟨hpiece, hvalue, htext⟩ := reads_as_written
  have htrimmed : ∀ piece ∈ pieces crowdedText, Text.IsTrimmed piece := by decide +kernel
  have hread : read crowdedText = .ok (ofDirectives crowdedDirectives) := by decide +kernel
  obtain ⟨hiff, hsettings⟩ := htext crowdedText htrimmed (ofDirectives crowdedDirectives)
  have hwritten := hiff.mp hread
  refine ⟨htrimmed, ?_, (hvalue _).mpr (.inr (.inl ?_)), hwritten, (hsettings _ _ rfl rfl).mpr hwritten⟩
  · have hname : Directive.IsTarget ['a', '\x7b'] := ⟨⟨'a', rfl, by decide +kernel⟩, by simp⟩
    have hinner : Directive.IsBracketed ['b', ']'] (some "b") none := @Directive.IsBracketed.span ['b'] (by simp)
    have hlevel : Decimal.IsUnsigned ['+', '0', '3'] 3 := .plus ⟨nofun, by simp, rfl⟩
    have hpart := Directive.IsWritten.targetSpans hname hinner (.level (.named (t := .info) (.number hlevel)))
    exact (hpiece _ (by decide) _).mpr hpart
  · have hone : Decimal.IsMantissa ['1'] := .whole nofun (by simp)
    exact .bare (.numeral hone .nothing)

end LogFilter

end Menagerie
