import Menagerie.Proofs.Filter.Written
import Menagerie.Proofs.Launch

/-! Where the parts of a directive are cut out. The distances come from the text without the blanks at its ends,
and the parts are cut out of the text with them. No cut falls inside a character if no blank stands in front, and
none if a blank does and all characters take one octet. A filter is then never aborted: the text of the variable
decides if it can be read, and else that of the log level, with the fault of its first bad piece. -/

namespace Menagerie

namespace Filter

variable {text rest run : List Char} {i n start stop : Nat}

/-! ### Slices -/

/-- This many octets from the start of a text, a character ends or the text does. -/
def IsBoundary (text : List Char) (n : Nat) : Prop := ∃ front rest, text = front ++ rest ∧ octetCount front = n

/-- What lies between two distances from the start of a text can be cut out. -/
structure IsSlice (text : List Char) (start stop : Nat) : Prop where
  ordered : start ≤ stop
  starts : IsBoundary text start
  stops : IsBoundary text stop

theorem isBoundary_zero (text : List Char) : IsBoundary text 0 := ⟨[], text, rfl, rfl⟩

theorem isBoundary_octetCount (front rest : List Char) : IsBoundary (front ++ rest) (octetCount front) :=
  ⟨front, rest, rfl, rfl⟩

theorem IsBoundary.append (h : IsBoundary text n) (rest : List Char) : IsBoundary (text ++ rest) n := by
  obtain ⟨front, behind, rfl, hn⟩ := h
  exact ⟨front, behind ++ rest, List.append_assoc .., hn⟩

theorem eq_nil_of_octetCount_eq_zero (h : octetCount text = 0) : text = [] := by
  cases text with
  | nil => rfl
  | cons c text =>
      have hpos := c.utf8Size_pos
      rw [octetCount_cons] at h
      omega

/-- The part between two boundaries is cut out. -/
theorem IsSlice.exists_cut (h : IsSlice text start stop) : ∃ part, cut text start stop = .ok part := by
  obtain ⟨hle, ⟨front, rest, rfl, rfl⟩, ⟨front', rest', htext, rfl⟩⟩ := h
  rcases List.append_eq_append_iff.mp htext with ⟨part, rfl, rfl⟩ | ⟨part, rfl, rfl⟩
  · exact ⟨part, cut_between front part rest'⟩
  -- The second boundary is not in front of the first one, so that nothing lies between them.
  · have hempty : part = [] := by
      apply eq_nil_of_octetCount_eq_zero
      rw [octetCount_append] at hle
      omega
    subst hempty
    rw [List.append_nil]
    exact ⟨[], by simpa using cut_between front' [] rest⟩

theorem IsBoundary.exists_cutFrom (h : IsBoundary text n) : ∃ part, cutFrom text n = .ok part := by
  obtain ⟨front, rest, rfl, rfl⟩ := h
  exact ⟨rest, cutFrom_append front rest⟩

/-! ### The parts of a directive -/

/-- Where the part starts that is being read. -/
def DirectiveState.partStart? : DirectiveState → Option Nat
  | .levelOrTarget => some 0
  | .span start => some start
  | .field start => some start
  | .level start => some start
  | _ => none

namespace Directive

variable {c : Char} {d d' : Directive} {state : DirectiveState}

/-- Reading came to a distance from the start without a cut inside a character, and the part that is being read
can be cut out there. -/
def Settles (text : List Char) (i : Nat) : Except DirectiveFault (Directive × DirectiveState) → Prop
  | .error fault => fault ≠ .offBoundary
  | .ok (_, state) => ∀ start ∈ state.partStart?, IsSlice text start i

/-- One character: the part that it ends can be cut out, and it starts another one behind itself, or none, or
belongs to the part. -/
theorem step_settles (h : ∀ start ∈ state.partStart?, IsSlice text start i)
    (hnext : IsBoundary text (i + c.utf8Size)) : Settles text (i + c.utf8Size) (step text i c d state) := by
  have hkept : ∀ start ∈ state.partStart?, IsSlice text start (i + c.utf8Size) := by
    intro start hstart
    exact ⟨Nat.le_trans (h start hstart).ordered (Nat.le_add_right i _), (h start hstart).starts, hnext⟩
  have hopened : c.utf8Size = 1 → ∀ start ∈ some (i + 1), IsSlice text start (i + c.utf8Size) := by
    rintro hone start ⟨⟩
    exact ⟨Nat.le_of_eq (by rw [hone]), hone ▸ hnext, hnext⟩
  have hcut : ∀ start ∈ state.partStart?, ∃ part, cut text start i = .ok part :=
    fun start hstart => (h start hstart).exists_cut
  cases state with
  | start =>
      by_cases hbracket : c = '['
      · subst hbracket
        exact hopened rfl
      · by_cases hname : startsName c = true
        · simp only [step, beq_eq_false_iff_ne.mpr hbracket, hname, Bool.false_eq_true, if_false, if_true]
          rintro start ⟨⟩
          exact ⟨Nat.zero_le _, isBoundary_zero text, hnext⟩
        · simp [step, hbracket, hname, Settles]
  | levelOrTarget =>
      obtain ⟨name, hname⟩ := hcut 0 rfl
      by_cases hequals : c = '='
      · subst hequals
        simp only [step, hname]
        exact hopened rfl
      · by_cases hbracket : c = '['
        · subst hbracket
          simp only [step, hname]
          exact hopened rfl
        · simp only [step, beq_eq_false_iff_ne.mpr hequals, beq_eq_false_iff_ne.mpr hbracket]
          exact hkept
  | span start =>
      obtain ⟨name, hname⟩ := hcut start rfl
      by_cases hclose : c = ']'
      · subst hclose
        simp only [step, hname]
        rintro start ⟨⟩
      · by_cases hbrace : c = '\x7b'
        · subst hbrace
          simp only [step, hname]
          exact hopened rfl
        · simp only [step, beq_eq_false_iff_ne.mpr hclose, beq_eq_false_iff_ne.mpr hbrace]
          exact hkept
  | field start =>
      obtain ⟨body, hbody⟩ := hcut start rfl
      by_cases hclose : c = '\x7d'
      · subst hclose
        cases hempty : body.isEmpty with
        | true => simp [step, hbody, hempty, Settles, bind, Except.bind]
        | false =>
            cases hread : FieldMatch.read body with
            | error f => simp [step, hbody, hempty, hread, Settles, bind, Except.bind]
            | ok m =>
                simp only [step, beq_self_eq_true, if_true, hbody, bind, Except.bind, hempty, hread,
                  Bool.false_eq_true, if_false]
                rintro start ⟨⟩
      · simp only [step, beq_eq_false_iff_ne.mpr hclose]
        exact hkept
  | fields =>
      by_cases hclose : c = ']'
      · subst hclose
        rintro start ⟨⟩
      · simp [step, hclose, Settles]
  | target =>
      by_cases hequals : c = '='
      · subst hequals
        exact hopened rfl
      · simp [step, hequals, Settles]
  | level start => exact hkept

theorem steps_concat {i : Nat} :
    steps text i d state (run ++ [c]) =
      match steps text i d state run with
      | .error fault => .error fault
      | .ok (d', state') => step text (i + octetCount run) c d' state' := by
  induction run generalizing i d state with
  | nil =>
      simp only [List.nil_append, steps, octetCount, Nat.add_zero]
      cases step text i c d state <;> rfl
  | cons first run ih =>
      simp only [List.cons_append, steps]
      cases hstep : step text i first d state with
      | error fault => rfl
      | ok next =>
          obtain ⟨d₁, state₁⟩ := next
          simp only [ih, octetCount_cons, Nat.add_assoc]

/-- What is read of a text without the blanks at its ends ends between characters of the text. -/
def IsSteady (text : List Char) : Prop :=
  ∀ run rest, Text.trim text = run ++ rest → IsBoundary text (octetCount run)

theorem IsSteady.settles (hsteady : IsSteady text) (htrim : Text.trim text = run ++ rest) :
    Settles text (octetCount run) (steps text 0 {} .start run) := by
  induction run using List.reverseRecOn generalizing rest with
  | nil => rintro start ⟨⟩
  | append_singleton run c ih =>
      have hbefore := ih (show Text.trim text = run ++ (c :: rest) by rw [htrim, List.append_assoc]; rfl)
      have hnext := hsteady _ _ htrim
      rw [octetCount_concat] at hnext ⊢
      rw [steps_concat, Nat.zero_add]
      cases hsteps : steps text 0 {} .start run with
      | error fault =>
          rw [hsteps] at hbefore
          exact hbefore
      | ok reached =>
          obtain ⟨d', state'⟩ := reached
          rw [hsteps] at hbefore
          exact step_settles hbefore hnext

theorem finish_ne_offBoundary (h : ∀ start ∈ state.partStart?, IsSlice text start i) :
    finish text d state ≠ .error .offBoundary := by
  cases state with
  | levelOrTarget =>
      simp only [finish]
      cases Threshold.read? text <;> simp
  | level start =>
      obtain ⟨word, hword⟩ := (h start rfl).starts.exists_cutFrom
      simp only [finish, hword]
      cases word with
      | nil => simp
      | cons first word =>
          cases hlevel : Threshold.read? (first :: word) <;> simp [hlevel]
  | _ => simp [finish]

theorem IsSteady.read_ne_offBoundary (hsteady : IsSteady text) : read text ≠ .error .offBoundary := by
  have hall := hsteady.settles (List.append_nil _).symm
  unfold read
  cases hsteps : steps text 0 {} .start (Text.trim text) with
  | error fault =>
      rw [hsteps] at hall
      exact fun h => hall (Except.error.inj h)
  | ok reached =>
      obtain ⟨d', state'⟩ := reached
      rw [hsteps] at hall
      exact finish_ne_offBoundary hall

/-! ### Blanks in front -/

/-- If a blank stands in front, then all characters are those of ASCII. -/
def IsAligned (text : List Char) : Prop :=
  (∃ c ∈ text.head?, Text.isBlank c = true) → ∀ c ∈ text, c.toNat < 128

instance (text : List Char) : Decidable (IsAligned text) :=
  decidable_of_iff (text.head?.any Text.isBlank = true → text.all (·.toNat < 128) = true) <| by
    simp only [Option.any_eq_true, List.all_eq_true, decide_eq_true_eq]
    rfl

theorem octetCount_eq_length (h : ∀ c ∈ text, c.toNat < 128) : octetCount text = text.length := by
  induction text with
  | nil => rfl
  | cons c text ih =>
      have hone : c.utf8Size = 1 := by
        have hc := h c List.mem_cons_self
        rw [Char.utf8Size_eq_one_iff, UInt32.le_iff_toNat_le]
        exact Nat.le_of_lt_succ hc
      rw [octetCount_cons, hone, ih fun c' hc' => h c' (List.mem_cons_of_mem c hc'), List.length_cons,
        Nat.add_comm]

theorem length_trim_le (text : List Char) : (Text.trim text).length ≤ text.length := by
  have hleft : ∀ cs : List Char, (Text.trimLeft cs).length ≤ cs.length :=
    fun cs => (List.dropWhile_sublist _).length_le
  calc (Text.trim text).length
      = (Text.trimLeft (Text.trimLeft text).reverse).length := by rw [Text.trim, Text.trimRight, List.length_reverse]
    _ ≤ (Text.trimLeft text).reverse.length := hleft _
    _ = (Text.trimLeft text).length := List.length_reverse
    _ ≤ text.length := hleft _

theorem IsAligned.isSteady (h : IsAligned text) : IsSteady text := by
  intro run rest htrim
  by_cases hblank : ∃ c ∈ text.head?, Text.isBlank c = true
  -- Every distance up to the length falls between characters of one octet.
  · have hascii := h hblank
    have hrun : ∀ c ∈ run, c.toNat < 128 := by
      intro c hc
      exact hascii c (Text.mem_of_mem_trim (htrim ▸ List.mem_append_left rest hc))
    have hlength : run.length ≤ text.length := by
      have hle := length_trim_le text
      rw [htrim, List.length_append] at hle
      omega
    refine ⟨text.take run.length, text.drop run.length, (List.take_append_drop ..).symm, ?_⟩
    rw [octetCount_eq_length hrun, octetCount_eq_length fun c hc => hascii c (List.mem_of_mem_take hc),
      List.length_take_of_le hlength]
  · have hfirst : ∀ c ∈ text.head?, Text.isBlank c = false := by
      intro c hc
      exact Bool.eq_false_iff.mpr fun hc' => hblank ⟨c, hc, hc'⟩
    obtain ⟨tail, htail, -⟩ := Text.exists_trim_append hfirst
    rw [htail, htrim, List.append_assoc]
    exact isBoundary_octetCount run (rest ++ tail)

end Directive

end Filter

/-! ### The filter that is chosen -/

namespace LogFilter

open Menagerie.Filter

variable {text : String} {fault : DirectiveFault}

theorem exists_of_mapM_eq_error {α β ε : Type} {f : α → Except ε β} {as : List α} {e : ε}
    (h : as.mapM f = .error e) :
    ∃ front a behind, as = front ++ a :: behind ∧ (∀ x ∈ front, ∃ b, f x = .ok b) ∧ f a = .error e := by
  induction as with
  | nil => cases h
  | cons a as ih =>
      rw [List.mapM_cons] at h
      cases ha : f a with
      | error e' =>
          rw [ha] at h
          cases h
          exact ⟨[], a, as, rfl, by simp, ha⟩
      | ok b =>
          cases has : as.mapM f with
          | error e' =>
              rw [ha, has] at h
              cases h
              obtain ⟨front, a', behind, rfl, hfront, ha'⟩ := ih has
              exact ⟨a :: front, a', behind, rfl, List.forall_mem_cons.mpr ⟨⟨b, ha⟩, hfront⟩, ha'⟩
          | ok bs =>
              rw [ha, has] at h
              cases h

/-- The fault of a filter is that of its first piece that is no directive. -/
theorem exists_of_read_eq_error (h : read text = .error fault) :
    ∃ front piece behind, pieces text = front ++ piece :: behind ∧
      (∀ p ∈ front, ∃ d, Directive.read p = .ok d) ∧ Directive.read piece = .error fault := by
  apply exists_of_mapM_eq_error
  unfold read at h
  cases hds : (pieces text).mapM Directive.read with
  | ok ds => simp [hds] at h
  | error fault' =>
      rw [hds] at h
      exact congrArg Except.error (Except.error.inj h)

/-- The pieces of a text begin without blanks or have no characters but those of ASCII. -/
def IsAligned (text : String) : Prop := ∀ piece ∈ splitCommas text.toList, Directive.IsAligned piece

instance (text : String) : Decidable (IsAligned text) :=
  inferInstanceAs (Decidable (∀ piece ∈ splitCommas text.toList, Directive.IsAligned piece))

theorem IsAligned.isSteady (h : IsAligned text) {piece : List Char} (hpiece : piece ∈ pieces text) :
    Directive.IsSteady piece :=
  (h piece (List.mem_filter.mp hpiece).1).isSteady

theorem IsAligned.read_ne_offBoundary (h : IsAligned text) : read text ≠ .error .offBoundary := by
  intro hread
  obtain ⟨front, piece, behind, hpieces, -, hfault⟩ := exists_of_read_eq_error hread
  have hpiece : piece ∈ pieces text := by simp [hpieces]
  exact (h.isSteady hpiece).read_ne_offBoundary hfault

theorem choose_of_reads {f : LogFilter} (h : read text = .ok f) (logLevel : String) :
    choose (some text) logLevel = .ok f := by
  rw [choose, h]

theorem choose_ne_offBoundary {preferred : Option String} {logLevel : String}
    (hpreferred : ∀ text ∈ preferred, IsAligned text) (hlevel : IsAligned logLevel) :
    choose preferred logLevel ≠ .error .offBoundary := by
  cases preferred with
  | none => exact hlevel.read_ne_offBoundary
  | some text =>
      have htext := (hpreferred text rfl).read_ne_offBoundary
      cases hread : read text with
      | ok f => simp [choose_of_reads hread]
      | error fault =>
          rw [hread] at htext
          cases fault with
          | offBoundary => exact absurd rfl htext
          | _ =>
              simp only [choose, hread]
              exact hlevel.read_ne_offBoundary

end LogFilter

namespace LogSettings

open Menagerie.Filter LogFilter

/-- **Cuts fall between characters, and the variable decides first.** Say that no piece of either text has both a
blank in front and a character beyond ASCII. At every character of a piece without the blanks at its ends, the
part that is being read can be cut out of the whole piece: it starts and stops between characters of the piece,
and does not stop before it starts. So no filter is aborted. If the variable holds a text that can be read, it
decides for all settings. If it does not, the log level decides, and the fault is that of its first piece that is
no directive. -/
theorem filter_never_aborts (s : LogSettings) (env : Environment)
    (hvariable : ∀ text, env.text? "RUST_LOG" = some text → LogFilter.IsAligned text)
    (hlevel : LogFilter.IsAligned s.logLevel) :
    (∀ text, env.text? "RUST_LOG" = some text ∨ text = s.logLevel → ∀ piece ∈ pieces text,
      Directive.read piece ≠ .error .offBoundary ∧
      ∀ run rest d state, Text.trim piece = run ++ rest → Directive.steps piece 0 {} .start run = .ok (d, state) →
        ∀ start ∈ state.partStart?, IsSlice piece start (octetCount run)) ∧
    s.filter env ≠ .error (.invalidFilter .offBoundary) ∧
    (∀ text f, env.text? "RUST_LOG" = some text → LogFilter.read text = .ok f →
      ∀ s' : LogSettings, s'.filter env = .ok f) ∧
    ((∀ text, env.text? "RUST_LOG" = some text → ¬Reads text) →
      (∀ f, LogFilter.read s.logLevel = .ok f → s.filter env = .ok f) ∧
      (¬Reads s.logLevel → ∃ front piece behind fault, pieces s.logLevel = front ++ piece :: behind ∧
        (∀ p ∈ front, ∃ d, Directive.read p = .ok d) ∧ Directive.read piece = .error fault ∧
        s.filter env = .error (.invalidFilter fault) ∧
        (LogFault.invalidFilter fault).message =
          "Invalid telemetry configuration: Invalid log level: " ++ fault.message)) := by
  have hchoose : LogFilter.choose (env.text? variableName) s.logLevel ≠ .error .offBoundary :=
    LogFilter.choose_ne_offBoundary hvariable hlevel
  have haligned : ∀ text, env.text? "RUST_LOG" = some text ∨ text = s.logLevel → LogFilter.IsAligned text := by
    rintro text (htext | rfl)
    · exact hvariable text htext
    · exact hlevel
  have hunread_eq : (∀ text, env.text? "RUST_LOG" = some text → ¬Reads text) →
      LogFilter.choose (env.text? variableName) s.logLevel = LogFilter.read s.logLevel :=
    fun hunread => choose_of_unread hunread hchoose
  refine ⟨fun text htext piece hpiece => ?_, ?_, fun text f htext hread s' => ?_,
    fun hunread => ⟨fun f hf => ?_, fun hbad => ?_⟩⟩
  · have hsteady := (haligned text htext).isSteady hpiece
    refine ⟨hsteady.read_ne_offBoundary, fun run rest d state htrim hsteps => ?_⟩
    have hsettles := hsteady.settles htrim
    rw [hsteps] at hsettles
    exact hsettles
  · intro hfilter
    rw [LogSettings.filter] at hfilter
    split at hfilter
    · cases hfilter
    · next fault hfault =>
        cases hfilter
        exact hchoose hfault
  · have htext : env.text? variableName = some text := htext
    rw [LogSettings.filter, htext, choose_of_reads hread]
  · rw [LogSettings.filter, hunread_eq hunread, hf]
  · cases hread : LogFilter.read s.logLevel with
    | ok f => exact absurd ⟨f, hread⟩ hbad
    | error fault =>
        obtain ⟨front, piece, behind, hpieces, hfront, hpiece⟩ := exists_of_read_eq_error hread
        refine ⟨front, piece, behind, fault, hpieces, hfront, hpiece, ?_, rfl⟩
        rw [LogSettings.filter, hunread_eq hunread, hread]

/-- In the second piece a blank stands in front and shifts all parts, so that its level begins with the equals sign;
the third piece has no level either. -/
def shiftedText : String := "[é]=info, petstore_grpc=debug,[ü]=loud"

/-- A bracket that is not closed. -/
def unclosedEnvironment : Environment := ⟨[("RUST_LOG", .text "[é")]⟩

/-- The fault of the variable is not reported, but that of the second piece, whose target is cut out with the blank
and without its last letter. -/
theorem filter_never_aborts_shifted :
    (∀ text, unclosedEnvironment.text? "RUST_LOG" = some text → LogFilter.IsAligned text) ∧
      LogFilter.IsAligned shiftedText ∧
      IsSlice " petstore_grpc=debug".toList 0 13 ∧
      cut " petstore_grpc=debug".toList 0 13 = .ok " petstore_grp".toList ∧
      LogSettings.filter { logLevel := shiftedText } unclosedEnvironment = .error (.invalidFilter .badLevel) := by
  have hpieces : pieces shiftedText = ["[é]=info".toList, " petstore_grpc=debug".toList, "[ü]=loud".toList] := by
    decide +kernel
  have hlevel : LogFilter.IsAligned shiftedText := by decide +kernel
  have hvariable : ∀ text, unclosedEnvironment.text? "RUST_LOG" = some text → LogFilter.IsAligned text := by
    rintro text htext
    obtain rfl : "[é" = text := Option.some.inj htext
    decide +kernel
  have hunread : ∀ text, unclosedEnvironment.text? "RUST_LOG" = some text → ¬Reads text := by
    rintro text htext ⟨f, hf⟩
    obtain rfl : "[é" = text := Option.some.inj htext
    have hread : LogFilter.read "[é" = .error .malformed := by decide +kernel
    rw [hread] at hf
    cases hf
  have hbad : LogFilter.read shiftedText = .error .badLevel := by decide +kernel
  have hsecond : Directive.read " petstore_grpc=debug".toList = .error .badLevel := by decide +kernel
  obtain ⟨hslices, -, -, hchosen⟩ :=
    filter_never_aborts { logLevel := shiftedText } unclosedEnvironment hvariable hlevel
  obtain ⟨front, piece, behind, fault, hsplit, hfront, hpiece, hfilter, -⟩ := (hchosen hunread).2 (by
    rintro ⟨f, hf⟩
    rw [hbad] at hf
    cases hf)
  have hslice : IsSlice " petstore_grpc=debug".toList 0 13 :=
    (hslices shiftedText (.inr rfl) _ (by simp [hpieces])).2 "petstore_grpc".toList "=debug".toList {} .levelOrTarget
      (by decide +kernel) (by decide +kernel) 0 rfl
  have hfault : fault = .badLevel := by
    rw [show pieces ({ logLevel := shiftedText } : LogSettings).logLevel = _ from hpieces] at hsplit
    rcases front with _ | ⟨p, _ | ⟨q, front⟩⟩
    · have hfirst : (Directive.read "[é]=info".toList).toOption.isSome = true := by decide +kernel
      rw [(List.cons.inj hsplit).1, hpiece] at hfirst
      cases hfirst
    · rw [(List.cons.inj (List.cons.inj hsplit).2).1, hpiece] at hsecond
      exact Except.error.inj hsecond
    · obtain ⟨d, hd⟩ := hfront q (by simp)
      rw [(List.cons.inj (List.cons.inj hsplit).2).1, hd] at hsecond
      cases hsecond
  exact ⟨hvariable, hlevel, hslice, by decide +kernel, hfault ▸ hfilter⟩

/-- A blank in front of a character of two octets moves the end of the name into that character. -/
example : Directive.read " [é]".toList = .error .offBoundary := by decide +kernel

end LogSettings

end Menagerie
