import Menagerie.Proofs.Filter.Deciding

/-! The text that a filter shows is read as the same directives again, if none of them wants a value and no piece
of the text that it was read from has a blank in front. -/

namespace Menagerie

namespace LogFilter

open Menagerie.Filter

variable {text : String} {f : LogFilter} {ds : List Directive}

theorem print_toDirective (s : StaticDirective) : s.toDirective.print = s.print := by
  obtain ⟨target, field, level⟩ := s
  cases field with
  | none => rfl
  | some name =>
      have hfield : FieldMatch.print { name } = name := by
        simp [FieldMatch.print]
      have hbrackets : "[" ++ "" ++ ("\x7b" ++ name ++ "\x7d") ++ "]" = "[\x7b" ++ name ++ "\x7d]" := by
        rw [← String.toList_inj]
        simp
      show Directive.printWith target ("[" ++ "" ++ ("\x7b" ++ FieldMatch.print { name } ++ "\x7d") ++ "]") level = _
      rw [hfield, hbrackets]
      rfl

/-- The text of a filter is made of the directives that it shows. -/
theorem print_eq (f : LogFilter) : f.print = ",".intercalate (f.shown.map Directive.print) := by
  have hstatics : (f.statics.entries.map (·.toDirective)).map Directive.print =
      f.statics.entries.map StaticDirective.print := by
    rw [List.map_map]
    exact List.map_congr_left fun s _ => print_toDirective s
  rw [print, shown, List.map_append, hstatics]

/-- Directives without values are read back from what their filter shows. -/
theorem mapM_read_pieces_shown (hvalue : ∀ d ∈ ds, d.hasValue = false) (hlegible : ∀ d ∈ ds, d.IsLegible) :
    (pieces (ofDirectives ds).print).mapM Directive.read = .ok (ofDirectives ds).shown := by
  rw [print_eq]
  apply mapM_read_pieces_of_legible
  exact fun d hd => hlegible d (shown_subset hvalue d hd)

theorem InForce.read_eq {s : LogSettings} {env : Environment}
    (h : InForce (env.text? variableName) s.logLevel text) (hf : s.filter env = .ok f) : read text = .ok f := by
  have habort : s.filter env ≠ .error (.invalidFilter .offBoundary) := by
    rw [hf]
    nofun
  obtain ⟨f', hchoose, hread⟩ := h.choose_eq (LogSettings.choose_ne_offBoundary habort)
  rw [LogSettings.filter, hchoose] at hf
  rwa [← Except.ok.inj hf]

/-- **A filter is read again from the text that it shows.** Say that no piece of a text has a blank in front or
wants a value, and that the settings take their filter from it. What the filter shows is then a text that is
accepted too, as a variable or as the level of settings, with the same directives in both sets and the same text.
Its greatest level is the greatest one that is shown; it may have become less, unless no two directives of the
text were about the same. -/
theorem reread_as_shown {s : LogSettings} {env : Environment}
    (htext : InForce (env.text? variableName) s.logLevel text) (hf : s.filter env = .ok f)
    (hfirst : ∀ piece ∈ pieces text, ∀ c ∈ piece.head?, Text.isBlank c = false)
    (hvalue : ∀ piece ∈ pieces text, ∀ d, Directive.read piece = .ok d → d.hasValue = false) :
    ∃ f' : LogFilter,
      (∀ (s' : LogSettings) (env' : Environment),
        env'.text? variableName = some f.print ∨ env'.text? variableName = none ∧ s'.logLevel = f.print →
          s'.filter env' = .ok f') ∧
      f'.statics.entries = f.statics.entries ∧ f'.dynamics.entries = f.dynamics.entries ∧ f'.print = f.print ∧
      f'.maxLevel = greatest (f.statics.entries.map (·.level) ++ f.dynamics.entries.map (·.level)) ∧
      f'.maxLevel.rank ≤ f.maxLevel.rank ∧
      ∀ ds, (pieces text).mapM Directive.read = .ok ds → ds.Pairwise (fun d e => ¬d.SameKey e) →
        f'.maxLevel = f.maxLevel := by
  obtain ⟨ds, hds, rfl⟩ := read_eq_ok_iff.mp (htext.read_eq hf)
  have hpiece : ∀ d ∈ ds, ∃ piece ∈ pieces text, Directive.read piece = .ok d :=
    fun d hd => exists_mem_of_mapM_eq_ok hds hd
  have hvalue : ∀ d ∈ ds, d.hasValue = false := by
    intro d hd
    obtain ⟨piece, hmem, hread⟩ := hpiece d hd
    exact hvalue piece hmem d hread
  have hlegible : ∀ d ∈ ds, d.IsLegible := by
    intro d hd
    obtain ⟨piece, hmem, hread⟩ := hpiece d hd
    have hcomma := comma_not_mem_of_mem_splitCommas (List.mem_filter.mp hmem).1
    exact Directive.isLegible_of_read hread hcomma (hvalue d hd) (hfirst piece hmem)
  have hshown := mapM_read_pieces_shown hvalue hlegible
  obtain ⟨hstatics, hdynamics⟩ := entries_ofDirectives_shown hvalue
  refine ⟨ofDirectives (ofDirectives ds).shown, ?_, hstatics, hdynamics, ?_, ?_,
    maxLevel_ofDirectives_shown_le hvalue, ?_⟩
  · rintro s' env' (henv | ⟨henv, hlevel⟩)
    · exact (LogSettings.asksFor_of_variable henv hshown).filter_eq
    · exact (LogSettings.asksFor_of_logLevel henv (hlevel ▸ hshown)).filter_eq
  · rw [print, hstatics, hdynamics, print]
  · rw [maxLevel_ofDirectives_shown hvalue, shown, List.map_append, List.map_map]
    rfl
  · intro ds' hds' hdistinct
    obtain rfl := Except.ok.inj (hds.symm.trans hds')
    exact maxLevel_ofDirectives_shown_eq hvalue hdistinct

/-- A blank belongs to a target, a value is wanted of any span, a span has the empty name, and the most verbose
directive is replaced by another one about the same. -/
def replacingText : String := "a =info,[\x7bf\x7d]=debug,x[s\x7bg\x7d]=trace,x[s\x7bg\x7d]=error,[]=warn"

def replacingPrint : String := "a =info,[\x7bf\x7d]=debug,x[s\x7bg\x7d]=error,[]=warn,[\x7bf\x7d]=debug"

/-- What is shown is read again, but the greatest level of the directive that was replaced is lost. -/
theorem reread_as_shown_replaced :
    (∀ piece ∈ pieces replacingText, ∀ c ∈ piece.head?, Text.isBlank c = false) ∧
      (∀ piece ∈ pieces replacingText, ∀ d, Directive.read piece = .ok d → d.hasValue = false) ∧
      ∃ f f' : LogFilter, LogSettings.filter { logLevel := replacingText } {} = .ok f ∧ f.print = replacingPrint ∧
        LogSettings.filter { logLevel := replacingPrint } {} = .ok f' ∧ f'.print = replacingPrint ∧
        f.maxLevel = .trace ∧ f'.maxLevel = .debug := by
  have hfirst : ∀ piece ∈ pieces replacingText, ∀ c ∈ piece.head?, Text.isBlank c = false := by
    simp only [← Text.not_any_isBlank_iff]
    decide +kernel
  have hvalue : ∀ piece ∈ pieces replacingText, ∀ d, Directive.read piece = .ok d → d.hasValue = false := by
    have hnone : ∀ piece ∈ pieces replacingText, (Directive.read piece).toOption.all (!·.hasValue) = true := by
      decide +kernel
    intro piece hpiece d hd
    have h := hnone piece hpiece
    rw [hd] at h
    exact Bool.not_eq_true' _ ▸ h
  have hshown : (read replacingText).toOption.map (fun f => (f.print, f.maxLevel,
      greatest (f.statics.entries.map (·.level) ++ f.dynamics.entries.map (·.level)))) =
        some (replacingPrint, .trace, .debug) := by decide +kernel
  cases hread : read replacingText with
  | error fault =>
      rw [hread] at hshown
      cases hshown
  | ok f =>
      rw [hread] at hshown
      obtain ⟨hprint, hmax⟩ := Prod.mk.inj (Option.some.inj hshown)
      obtain ⟨hmax, hgreatest⟩ := Prod.mk.inj hmax
      have htext : InForce (({} : Environment).text? variableName) replacingText replacingText :=
        .logLevel nofun ⟨f, hread⟩
      have hf : LogSettings.filter { logLevel := replacingText } {} = .ok f := by
        obtain ⟨ds, hds, rfl⟩ := read_eq_ok_iff.mp hread
        exact (LogSettings.asksFor_of_logLevel rfl hds).filter_eq
      obtain ⟨f', hagain, -, -, hprint', hmax', -⟩ :=
        reread_as_shown (s := { logLevel := replacingText }) htext hf hfirst hvalue
      rw [hprint] at hagain hprint'
      rw [hgreatest] at hmax'
      exact ⟨hfirst, hvalue, f, f', hf, hprint, hagain _ _ (.inr ⟨rfl, rfl⟩), hprint', hmax, hmax'⟩

end LogFilter

end Menagerie
