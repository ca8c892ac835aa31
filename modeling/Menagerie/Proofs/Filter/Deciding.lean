import Menagerie.Proofs.Filter.Legible
import Menagerie.Proofs.Launch

/-! Which directive of a filter prevails for a target, said without a place in a list: the order of directives
with different targets makes no difference. Settings ask for directives with the text that their filter is
taken from. -/

namespace Menagerie

namespace Filter

theorem length_le_iff {m n : Option Nat} : m ≤ n ↔ m < n ∨ m = n := by
  cases m <;> cases n <;> simp [Nat.le_iff_lt_or_eq]

theorem length_lt_asymm {m n : Option Nat} (h : m < n) : ¬n < m := by
  cases m <;> cases n <;> simp_all
  omega

namespace Directive

/-- Among the directives that cover a target this one has the longest target of its own, and it is the last
one with that target. -/
structure Prevails (d : Directive) (ds : List Directive) (target : String) : Prop where
  covers : d.Covers target
  longest : ∀ e ∈ ds, e.Covers target → targetLength e.target ≤ targetLength d.target
  last : (ds.filter (·.target = d.target)).getLast? = some d

instance (d : Directive) (target : String) : Decidable (d.Covers target) :=
  inferInstanceAs (Decidable (∀ name ∈ d.target, name.toList <+: target.toList))

instance (d : Directive) (ds : List Directive) (target : String) : Decidable (d.Prevails ds target) :=
  decidable_of_iff (d.Covers target ∧
      (∀ e ∈ ds, e.Covers target → compare (targetLength d.target) (targetLength e.target) ≠ .lt) ∧
      (ds.filter (·.target = d.target)).getLast? = some d) <| by
    simp only [compare_length_ne_lt_iff]
    exact ⟨fun h => ⟨h.1, h.2.1, h.2.2⟩, fun h => ⟨h.covers, h.longest, h.last⟩⟩

/-- Directives with the same target come in the same order in both lists, whatever stands between them. -/
def SameByTarget (ds ds' : List Directive) : Prop :=
  ∀ target, ds'.filter (·.target = target) = ds.filter (·.target = target)

variable {d : Directive} {ds ds' : List Directive} {target : String}

theorem decides_iff_prevails : d.Decides ds target ↔ d.Prevails ds target := by
  constructor
  · rintro ⟨hcovers, earlier, later, rfl, hearlier, hlater⟩
    refine ⟨hcovers, fun e he hcover => ?_, ?_⟩
    · rcases List.mem_append.mp he with he | he
      · exact hearlier e he hcover
      · rcases List.mem_cons.mp he with rfl | he
        · exact length_le_iff.mpr (.inr rfl)
        · exact length_le_iff.mpr (.inl (hlater e he hcover))
    · have hnone : later.filter (·.target = d.target) = [] := by
        rw [List.filter_eq_nil_iff]
        intro e he hsame
        have hsame : e.target = d.target := of_decide_eq_true hsame
        have hcover : e.Covers target := fun name hname => hcovers name (hsame ▸ hname)
        have hlt := hlater e he hcover
        rw [hsame] at hlt
        exact length_lt_asymm hlt hlt
      rw [List.filter_append, List.filter_cons, hnone]
      simp
  -- The place of the directive is that of the last one with its target.
  · rintro ⟨hcovers, hlongest, hlast⟩
    obtain ⟨before, hbefore⟩ := List.getLast?_eq_some_iff.mp hlast
    obtain ⟨front, back, rfl, -, hback⟩ := List.filter_eq_append_iff.mp hbefore
    obtain ⟨between, later, rfl, -, -, hnone⟩ := List.filter_eq_cons_iff.mp hback
    refine ⟨hcovers, front ++ between, later, by simp, fun e he hcover => ?_, fun e he hcover => ?_⟩
    · have hmem : e ∈ front ++ (between ++ d :: later) := by
        rw [← List.append_assoc]
        exact List.mem_append_left _ he
      exact hlongest e hmem hcover
    · have hmem : e ∈ front ++ (between ++ d :: later) := by simp [he]
      rcases length_le_iff.mp (hlongest e hmem hcover) with hlt | hlength
      · exact hlt
      · have hsame : e.target = d.target := eq_of_targetLength_eq hcover hcovers hlength
        rw [List.filter_eq_nil_iff] at hnone
        exact absurd (decide_eq_true hsame) (hnone e he)

theorem Prevails.mem (h : d.Prevails ds target) : d ∈ ds :=
  List.mem_of_mem_filter (List.mem_of_getLast? h.last)

theorem Prevails.unique {e : Directive} (h : d.Prevails ds target) (h' : e.Prevails ds target) : d = e := by
  have hlength : targetLength d.target = targetLength e.target := by
    rcases length_le_iff.mp (h.longest e h'.mem h'.covers) with hlt | heq
    · rcases length_le_iff.mp (h'.longest d h.mem h.covers) with hlt' | heq
      · exact absurd hlt' (length_lt_asymm hlt)
      · exact heq
    · exact heq.symm
  have hlast := h.last
  rw [eq_of_targetLength_eq h.covers h'.covers hlength, h'.last] at hlast
  exact (Option.some.inj hlast).symm

/-- One directive prevails for a target that any covers. -/
theorem existsUnique_prevails (h : ∃ d ∈ ds, d.Covers target) : ∃! d, Prevails d ds target := by
  obtain ⟨d, hd, hcovers⟩ := h
  have hfound : ((DirectiveSet.ofList (ds.map toStatic)).entries.find? (·.isAboutEvent target [])).isSome := by
    have hmem : d.toStatic ∈ ds.map toStatic := List.mem_map_of_mem hd
    obtain ⟨s, hs, hkey⟩ := DirectiveSet.exists_mem_ofList hmem
    have habout : d.toStatic.isAboutEvent target [] = true := isAboutEvent_toStatic_iff.mpr hcovers
    exact List.find?_isSome.mpr ⟨s, hs, (StaticDirective.isAboutEvent_congr hkey).trans habout⟩
  obtain ⟨s, hs⟩ := Option.isSome_iff_exists.mp hfound
  obtain ⟨best, hbest, -⟩ := find?_map_toStatic_eq_some_iff.mp hs
  exact ⟨best, decides_iff_prevails.mp hbest, fun e he => he.unique (decides_iff_prevails.mp hbest)⟩

theorem SameByTarget.mem_iff (h : SameByTarget ds ds') {e : Directive} : e ∈ ds' ↔ e ∈ ds := by
  have hmem := congrArg (e ∈ ·) (h e.target)
  simpa using hmem

theorem SameByTarget.prevails_iff (h : SameByTarget ds ds') : d.Prevails ds' target ↔ d.Prevails ds target := by
  constructor
  · rintro ⟨hcovers, hlongest, hlast⟩
    exact ⟨hcovers, fun e he => hlongest e (h.mem_iff.mpr he), h d.target ▸ hlast⟩
  · rintro ⟨hcovers, hlongest, hlast⟩
    exact ⟨hcovers, fun e he => hlongest e (h.mem_iff.mp he), (h d.target).symm ▸ hlast⟩

end Directive

end Filter

/-! ### The filter that settings ask for -/

namespace LogSettings

open Menagerie.Filter LogFilter

/-- The text that the filter is taken from is read as these directives, and the program is not aborted over
another one before. -/
def AsksFor (s : LogSettings) (env : Environment) (ds : List Directive) : Prop :=
  s.filter env ≠ .error (.invalidFilter .offBoundary) ∧
    ∃ text, InForce (env.text? variableName) s.logLevel text ∧
      (pieces text).mapM Directive.read = .ok ds

variable {s : LogSettings} {env : Environment} {ds : List Directive}

theorem AsksFor.filter_eq (h : s.AsksFor env ds) : s.filter env = .ok (ofDirectives ds) := by
  obtain ⟨habort, text, htext, hds⟩ := h
  obtain ⟨f, hchoose, hread⟩ := htext.choose_eq (choose_ne_offBoundary habort)
  obtain ⟨ds', hds', rfl⟩ := read_eq_ok_iff.mp hread
  obtain rfl := Except.ok.inj (hds.symm.trans hds')
  rw [LogSettings.filter, hchoose]

theorem asksFor_of_variable {text : String} (henv : env.text? variableName = some text)
    (hds : (pieces text).mapM Directive.read = .ok ds) : s.AsksFor env ds := by
  have hread : LogFilter.read text = .ok (ofDirectives ds) := read_eq_ok_iff.mpr ⟨ds, hds, rfl⟩
  refine ⟨?_, text, .preferred henv ⟨_, hread⟩, hds⟩
  rw [LogSettings.filter, henv, LogFilter.choose, hread]
  intro h
  cases h

theorem asksFor_of_logLevel (henv : env.text? variableName = none)
    (hds : (pieces s.logLevel).mapM Directive.read = .ok ds) : s.AsksFor env ds := by
  have hread : LogFilter.read s.logLevel = .ok (ofDirectives ds) := read_eq_ok_iff.mpr ⟨ds, hds, rfl⟩
  refine ⟨?_, s.logLevel, .logLevel (by simp [henv]) ⟨_, hread⟩, hds⟩
  rw [LogSettings.filter, henv, LogFilter.choose, hread]
  intro h
  cases h

/-- **The longest target decides.** Every list of plain directives whose targets can be read has a text that asks
for it, be it the variable or the log level. Whatever text settings take their filter from, the filter lets
an event through if the directive that prevails for its target admits its level, and drops it if there is
none or it does not; one prevails for every target that any covers. The threshold on all events never rejects
what the search lets through, and the order of directives with different targets makes no difference. -/
theorem filter_by_longest_target (ds : List Directive) (hplain : ∀ d ∈ ds, d.IsPlain) :
    ((∀ d ∈ ds, ∀ name ∈ d.target, Directive.IsTargetName name.toList) →
      ∃ text, ∀ (s : LogSettings) (env : Environment),
        (env.text? "RUST_LOG" = some text → s.AsksFor env ds) ∧
        (env.text? "RUST_LOG" = none → s.logLevel = text → s.AsksFor env ds)) ∧
    (∀ target, (∃ d ∈ ds, d.Covers target) → ∃! d, Directive.Prevails d ds target) ∧
    ∀ (s : LogSettings) (env : Environment), s.AsksFor env ds → ∃ f, s.filter env = .ok f ∧
      (∀ spans e, f.admits spans e = true ↔
        ∃ d, Directive.Prevails d ds e.target ∧ d.level.admits e.level = true) ∧
      (∀ e, f.admitsByTarget e = true → f.maxLevel.admits e.level = true) ∧
      ∀ ds', Directive.SameByTarget ds ds' → ∀ (s' : LogSettings) (env' : Environment), s'.AsksFor env' ds' →
        ∃ f', s'.filter env' = .ok f' ∧ ∀ spans e, f'.admits spans e = f.admits spans e := by
  refine ⟨fun htarget => ⟨",".intercalate (ds.map Directive.print), fun s env => ⟨fun henv => ?_, ?_⟩⟩,
    fun target hcovered => Directive.existsUnique_prevails hcovered, fun s env h => ?_⟩
  · exact asksFor_of_variable henv (mapM_read_pieces_print hplain htarget)
  · rintro henv hlevel
    exact asksFor_of_logLevel henv (hlevel ▸ mapM_read_pieces_print hplain htarget)
  have hadmits : ∀ {ds' : List Directive}, (∀ d ∈ ds', d.IsPlain) → ∀ spans e,
      (ofDirectives ds').admits spans e = true ↔
        ∃ d, Directive.Prevails d ds' e.target ∧ d.level.admits e.level = true := by
    intro ds' hplain' spans e
    simp only [admits_iff_decides hplain', Directive.decides_iff_prevails]
  refine ⟨_, h.filter_eq, hadmits hplain, fun e he => ?_, fun ds' hsame s' env' h' => ?_⟩
  · rw [ofDirectives_of_plain hplain] at he ⊢
    exact admits_maxLevel_of_admitsByTarget he
  · have hplain' : ∀ d ∈ ds', d.IsPlain := fun d hd => hplain d (hsame.mem_iff.mp hd)
    refine ⟨_, h'.filter_eq, fun spans e => ?_⟩
    rw [Bool.eq_iff_iff, hadmits hplain', hadmits hplain]
    simp only [hsame.prevails_iff]

/-- Directives that overlap: a longer target before a shorter one, and one target twice. -/
def overlapping : List Directive :=
  [{ target := some "petstore_grpc", level := .trace }, { target := some "petstore_grpc::petstore", level := .info },
    { level := .warn }, { target := some "petstore_grpc", level := .off }]

/-- Of two directives with one target the last counts, so that even errors are dropped; a longer target still
goes before it, and what is about no target goes behind all others. -/
theorem filter_by_longest_target_overlapping :
    (∀ d ∈ overlapping, d.IsPlain) ∧
      ∃ f, LogSettings.filter { logLevel :=
          "petstore_grpc=trace,petstore_grpc::petstore=info,warn,petstore_grpc=off" } {} = .ok f ∧
        f.admits [] { level := .error, target := "petstore_grpc::bootstrap", message := "" } = false ∧
        f.admits [] { level := .info, target := "petstore_grpc::petstore", message := "" } = true ∧
        f.admits [] { level := .warn, target := "tonic", message := "" } = true := by
  have hplain : ∀ d ∈ overlapping, d.IsPlain := by
    simp [overlapping, Directive.IsPlain]
  have hask : LogSettings.AsksFor { logLevel :=
      "petstore_grpc=trace,petstore_grpc::petstore=info,warn,petstore_grpc=off" } {} overlapping :=
    asksFor_of_logLevel rfl (by decide +kernel)
  obtain ⟨-, hunique, hfilter⟩ := filter_by_longest_target overlapping hplain
  obtain ⟨f, hf, hadmits, -⟩ := hfilter _ _ hask
  refine ⟨hplain, f, hf, ?_, ?_, ?_⟩
  · rw [Bool.eq_false_iff]
    intro h
    obtain ⟨d, hd, hlevel⟩ := (hadmits _ _).mp h
    have hoff : Directive.Prevails { target := some "petstore_grpc", level := .off } overlapping
        "petstore_grpc::bootstrap" := by decide +kernel
    have hcovered : ∃ d ∈ overlapping, d.Covers "petstore_grpc::bootstrap" :=
      ⟨{ target := some "petstore_grpc", level := .off }, by decide, by decide +kernel⟩
    obtain rfl := (hunique _ hcovered).unique hd hoff
    cases hlevel
  · exact (hadmits _ _).mpr ⟨{ target := some "petstore_grpc::petstore", level := .info }, by decide +kernel,
      by decide⟩
  · exact (hadmits _ _).mpr ⟨{ level := .warn }, by decide +kernel, by decide⟩

end LogSettings

end Menagerie
