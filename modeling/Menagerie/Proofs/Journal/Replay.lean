import Menagerie.Proofs.Launch
import Menagerie.Proofs.Journal.Reading
import Menagerie.Proofs.Store.Steps

/-! The log of a session is a journal of its store. Every request but a refused put writes one line, and the
lines alone tell what the store has in the end: a delete that is refused writes a line like one that is
granted, but then the id is not there to be taken away. -/

namespace Menagerie

/-! ### Filters without dynamic directives -/

namespace Filter.DirectiveSet

variable {α : Type} [Ranked α]

theorem insertEntry_ne_nil (d : α) (es : List α) : insertEntry d es ≠ [] := by
  cases es with
  | nil => exact List.cons_ne_nil _ _
  | cons e es =>
      rw [insertEntry]
      split <;> exact List.cons_ne_nil _ _

theorem eq_nil_of_entries_ofList {ds : List α} (h : (ofList ds).entries = []) : ds = [] := by
  rcases List.eq_nil_or_concat ds with rfl | ⟨ds, d, rfl⟩
  · rfl
  · rw [List.concat_eq_append, ofList_concat] at h
    exact absurd h (insertEntry_ne_nil d _)

end Filter.DirectiveSet

namespace LogFilter

open Menagerie.Filter

/-- A filter without dynamic directives is made of plain ones. -/
theorem isPlain_of_dynamics_eq_nil {ds : List Directive} (h : (ofDirectives ds).dynamics.entries = []) :
    ∀ d ∈ ds, d.IsPlain := by
  have hnone : ds.filter (·.isDynamic) = [] := by
    rw [ofDirectives, List.partition_eq_filter_filter] at h
    exact DirectiveSet.eq_nil_of_entries_ofList h
  intro d hd
  have hd := Bool.eq_false_iff.mpr (List.filter_eq_nil_iff.mp hnone d hd)
  simpa [Directive.isDynamic, Directive.IsPlain] using hd

theorem exists_read_of_choose {preferred : Option String} {logLevel : String} {f : LogFilter}
    (h : choose preferred logLevel = .ok f) : ∃ text, read text = .ok f := by
  cases preferred with
  | none => exact ⟨logLevel, h⟩
  | some s =>
      rw [choose] at h
      split at h
      · next hread =>
          obtain rfl := Except.ok.inj h
          exact ⟨s, hread⟩
      · cases h
      · exact ⟨logLevel, h⟩

variable {ds : List Directive}

/-- A plain filter shows a span exactly if it lets through information with the target of the span. -/
theorem showsSpan_eq_admits (hplain : ∀ d ∈ ds, d.IsPlain) (s : Journal.Span) :
    (ofDirectives ds).showsSpan s =
      (ofDirectives ds).admits [] { level := .info, target := s.target, message := "" } := by
  rw [ofDirectives_of_plain hplain]
  have hnames : Journal.Event.valueNames { level := .info, target := s.target, message := "" } = ["message"] :=
    rfl
  have hall : ∀ d ∈ (DirectiveSet.ofList (ds.map Directive.toStatic)).entries, d.field = none := by
    intro d hd
    obtain ⟨d', -, rfl⟩ := List.mem_map.mp (DirectiveSet.mem_of_mem_ofList hd)
    rfl
  generalize DirectiveSet.ofList (ds.map Directive.toStatic) = statics at hall
  have hfind : statics.entries.find? (·.isAboutSpan s.target) =
      statics.entries.find? (·.isAboutEvent s.target ["message"]) := by
    rw [← List.head?_filter, ← List.head?_filter]
    congr 1
    refine List.filter_congr fun d hd => ?_
    simp [StaticDirective.isAboutSpan, StaticDirective.isAboutEvent, hall d hd]
  simp only [showsSpan, admits, admitsByTarget, about, List.filter_nil, List.isEmpty_nil, Bool.not_true,
    Bool.false_or, hfind, hnames, List.any_nil, Bool.and_false]
  cases statics.entries.find? (·.isAboutEvent s.target ["message"]) <;> rfl

/-- What lets events through at one level lets them through at every graver one. -/
theorem admits_of_graver (hplain : ∀ d ∈ ds, d.IsPlain) {e e' : Journal.Event} (htarget : e'.target = e.target)
    (hlevel : e'.level.rank ≤ e.level.rank) {spans spans' : List Journal.Span}
    (h : (ofDirectives ds).admits spans e = true) : (ofDirectives ds).admits spans' e' = true := by
  obtain ⟨d, hd, hadmits⟩ := (admits_iff_decides hplain spans e).mp h
  refine (admits_iff_decides hplain spans' e').mpr ⟨d, htarget ▸ hd, ?_⟩
  simp only [Threshold.admits, decide_eq_true_eq] at hadmits ⊢
  omega

end LogFilter

/-! ### Requests in a log -/

namespace PetRequest

theorem target_span (r : PetRequest) : r.span.target = Journal.Target.requests := by
  cases r <;> rfl

theorem entries_eq (r : PetRequest) (id : String) : r.entries id = [] ∨ ∃ event,
    r.entries id = [⟨[r.span], event⟩] ∧ event.target = Journal.Target.requests ∧ event.level = .debug := by
  cases r with
  | get r => exact .inr ⟨_, rfl, rfl, rfl⟩
  | delete r => exact .inr ⟨_, rfl, rfl, rfl⟩
  | put r =>
      cases hnamed : r.isNamed with
      | false => exact .inl (by simp [entries, event?, hnamed])
      | true => exact .inr ⟨_, by simp only [entries, event?, hnamed]; rfl, rfl, rfl⟩

end PetRequest

/-- A filter that lets through what is told of requests leaves their entries as they are. -/
theorem LogFilter.pass?_of_mem_entries {ds : List Filter.Directive} (hplain : ∀ d ∈ ds, d.IsPlain)
    {e₀ : Journal.Event} (htarget : e₀.target = Journal.Target.requests) (hlevel : e₀.level = .debug)
    (hadmits : (ofDirectives ds).admits [] e₀ = true) {id : String} {r : PetRequest} {e : Journal.Entry}
    (he : e ∈ r.entries id) : (ofDirectives ds).pass? e = some e := by
  rcases r.entries_eq id with hnone | ⟨event, hone, htarget', hlevel'⟩
  · rw [hnone] at he
    cases he
  · obtain rfl : e = ⟨[r.span], event⟩ := by
      rw [hone] at he
      exact List.mem_singleton.mp he
    have hgraver : Level.info.rank ≤ e₀.level.rank := by
      rw [hlevel]
      decide
    have hspan : (ofDirectives ds).showsSpan r.span = true := by
      rw [showsSpan_eq_admits hplain]
      exact admits_of_graver hplain (r.target_span.trans htarget.symm) hgraver hadmits
    have hevent : ∀ spans, (ofDirectives ds).admits spans event = true := fun spans =>
      admits_of_graver hplain (htarget'.trans htarget.symm) (by rw [hlevel, hlevel']) hadmits
    simp only [pass?, List.filter_cons_of_pos hspan, List.filter_nil, hevent, if_true]

/-- What is told of requests passes such a filter as it is. -/
theorem Logging.passed_requests {l : Logging} {ds : List Filter.Directive}
    (hfilter : l.filter = LogFilter.ofDirectives ds) (hplain : ∀ d ∈ ds, d.IsPlain) {e₀ : Journal.Event}
    (htarget : e₀.target = Journal.Target.requests) (hlevel : e₀.level = .debug)
    (hadmits : l.filter.admits [] e₀ = true) {es : List Journal.Entry}
    (hes : ∀ e ∈ es, ∃ id r, e ∈ PetRequest.entries id r) : l.passed es = es := by
  rw [passed, hfilter]
  refine (List.filterMap_congr fun e he => ?_).trans List.filterMap_some
  obtain ⟨id, r, hmem⟩ := hes e he
  exact LogFilter.pass?_of_mem_entries hplain htarget hlevel (hfilter ▸ hadmits) hmem

/-- Logging begins with one line or none. -/
theorem Logging.passed_announcement (l : Logging) (settings : LogSettings) (es : List Journal.Entry) :
    ∃ announced, l.passed (settings.entry :: es) = announced ++ l.passed es ∧
      ∀ e ∈ announced, e = settings.entry := by
  refine ⟨l.passed [settings.entry], ?_, fun e he => ?_⟩
  · rw [passed, passed, passed, ← List.filterMap_append, List.singleton_append]
  · rw [passed_singleton rfl] at he
    split at he
    · exact List.mem_singleton.mp he
    · cases he

/-! ### What the lines of a request tell -/

/-- No line of a request is silent. -/
theorem PetRequest.ofLine?_ne_none {id time : String} {r : PetRequest} {e : Journal.Entry}
    (he : e ∈ r.entries id) : Operation.ofLine? (e.asJson time) ≠ none := by
  cases r with
  | get r =>
      obtain rfl := List.mem_singleton.mp he
      nofun
  | delete r =>
      obtain rfl := List.mem_singleton.mp he
      nofun
  | put r =>
      cases hnamed : r.isNamed with
      | false => simp [entries, event?, hnamed] at he
      | true =>
          simp only [entries, event?, hnamed] at he
          obtain rfl := List.mem_singleton.mp he
          nofun

/-- The lines of a request tell what was done, as its answer does. -/
theorem Store.filterMap_ofLine?_entries (s : Store) (id time : String) (k : Nat) (r : PetRequest) :
    (r.entries id).filterMap (fun e => Operation.ofLine? (e.asJson time)) =
      (HandleEvent.mk (.request k r) (.ofReply (s.answer id r).1)).operation?.toList := by
  cases r with
  | get r => rfl
  | delete r => rfl
  | put r =>
      cases hnamed : r.isNamed with
      | false => simp [PetRequest.entries, PetRequest.event?, answer, hnamed, HandleEvent.operation?,
          HandleAnswer.ofReply]
      | true =>
          simp only [PetRequest.entries, PetRequest.event?, answer, hnamed, if_true]
          rfl

namespace Handles

variable {ids : Nat → String} {hs after : Handles} {st : HandleStep} {a : HandleAnswer}

/-- All handles lead to the first store. -/
def LeadToFirst (hs : Handles) : Prop := ∀ cell ∈ hs.handles, cell = 0

/-- What a request does to the store, its operation does to the names. -/
theorem names_served {s : Store} (r : PetRequest) (hcell : hs.stores[0]? = some s) (k : Nat) :
    (hs.served ids 0 s r).names =
      ((HandleEvent.mk (.request k r) (.ofReply (s.answer (ids hs.drawn) r).1)).operation?.toList).foldl
        Operation.apply hs.names := by
  funext key
  have hcontents : (hs.served ids 0 s r).contents 0 key = if key = r.subject (ids hs.drawn) then
      (r.effect (ids hs.drawn) (hs.contents 0 key)).2 else hs.contents 0 key := by
    rw [contents_served r hcell]
    simp only [true_and]
  rw [names, hcontents]
  cases r with
  | get r =>
      simp only [PetRequest.effect, ite_self]
      rfl
  -- A delete that is refused had nothing to take away, so that nothing is there after either.
  | delete r =>
      change _ = Function.update hs.names r.id none key
      by_cases hkey : key = r.id
      · simp [hkey, PetRequest.subject, PetRequest.effect]
      · simp [hkey, PetRequest.subject, names]
  | put r =>
      cases hnamed : r.isNamed with
      | false =>
          simp only [Store.answer, PetRequest.effect, hnamed, Bool.false_eq_true, if_false, ite_self]
          rfl
      | true =>
          simp only [Store.answer, PetRequest.effect, hnamed, if_true]
          change _ = Function.update hs.names (ids hs.drawn) (some r.name) key
          by_cases hkey : key = ids hs.drawn
          · simp [hkey, PetRequest.subject, PutPetRequest.pet]
          · simp [hkey, PetRequest.subject, names]

theorem Outcome.leadToFirst (h : Outcome ids hs st a after) (hst : st ≠ .create) (hs0 : hs.LeadToFirst) :
    after.LeadToFirst := by
  cases h with
  | create => exact absurd rfl hst
  | clone hk =>
      intro cell hcell
      rcases List.mem_append.mp hcell with hcell | hcell
      · exact hs0 cell hcell
      · obtain rfl := List.mem_singleton.mp hcell
        exact hs0 _ (List.mem_of_getElem? hk)
  | size _ _ => exact hs0
  | isEmpty _ _ => exact hs0
  | request _ _ _ => exact hs0

/-- Where all handles lead to one store, a step does to its names what its event tells, and so do the lines
that it logs. -/
theorem Outcome.names_eq (h : Outcome ids hs st a after) (hst : st ≠ .create) (hs0 : hs.LeadToFirst)
    (time : String) :
    (st.entries ids hs).filterMap (fun e => Operation.ofLine? (e.asJson time)) =
        (HandleEvent.mk st a).operation?.toList ∧
      after.names = (HandleEvent.mk st a).operation?.toList.foldl Operation.apply hs.names := by
  cases h with
  | create => exact absurd rfl hst
  | clone _ => exact ⟨rfl, rfl⟩
  | size _ _ => exact ⟨rfl, rfl⟩
  | isEmpty _ _ => exact ⟨rfl, rfl⟩
  | @request k cell s r hk hcell =>
      obtain rfl := hs0 cell (List.mem_of_getElem? hk)
      exact ⟨s.filterMap_ofLine?_entries _ time k r, names_served r hcell k⟩

end Handles

/-! ### A whole session -/

namespace Session

variable {ids : Nat → String}

theorem last_cons (s : Session) (r : SessionReport) (reports : List SessionReport) :
    s.last (r :: reports) = r.after.last reports := by
  rw [last, last, List.getLast?_cons]
  cases reports.getLast? <;> rfl

theorem operations_cons (st : HandleStep) (a : HandleAnswer) (entries : List Journal.Entry) (after : Session)
    (steps : List HandleStep) (reports : List SessionReport) :
    operations (st :: steps) (⟨.pets a, entries, after⟩ :: reports) =
      (HandleEvent.mk st a).operation?.toList ++ operations steps reports := by
  have hfirst : SessionReport.operation? ⟨.pets a, entries, after⟩ st = (HandleEvent.mk st a).operation? := rfl
  simp only [operations, List.zip_cons_cons, List.filterMap_cons, hfirst]
  cases (HandleEvent.mk st a).operation? <;> rfl

theorem run_pets_of_none {s : Session} {st : HandleStep} (hstep : s.handles.step ids st = none)
    (steps : List HandleStep) : s.run ids ((st :: steps).map .pets) = [] := by
  simp only [List.map_cons, run, step, hstep, Option.map_none]

theorem run_pets_cons {s : Session} {st : HandleStep} {a : HandleAnswer} {after : Handles}
    (hstep : s.handles.step ids st = some (a, after)) (steps : List HandleStep) :
    s.run ids ((st :: steps).map .pets) =
      ⟨.pets a, st.entries ids s.handles, { s with handles := after }⟩ ::
        run ids { s with handles := after } (steps.map .pets) := by
  simp only [List.map_cons, run, step, hstep, Option.map_some]

/-- What the steps over one store log is told by their answers, and leads to its names. -/
theorem replay_run (ids : Nat → String) (time : String) {steps : List HandleStep} (hone : .create ∉ steps)
    {s : Session} (hs : s.handles.LeadToFirst) :
    ((s.run ids (steps.map .pets)).flatMap (·.entries)).filterMap (fun e => Operation.ofLine? (e.asJson time)) =
        operations steps (s.run ids (steps.map .pets)) ∧
      (s.last (s.run ids (steps.map .pets))).handles.names =
        (operations steps (s.run ids (steps.map .pets))).foldl Operation.apply s.handles.names := by
  induction steps generalizing s with
  | nil => exact ⟨rfl, rfl⟩
  | cons st steps ih =>
      cases hstep : s.handles.step ids st with
      | none =>
          rw [run_pets_of_none hstep]
          exact ⟨rfl, rfl⟩
      | some next =>
          obtain ⟨a, after⟩ := next
          have houtcome := Handles.step_eq_some_iff.mp hstep
          have hst : st ≠ .create := fun h => hone (h ▸ List.mem_cons_self)
          obtain ⟨hlines, hnames⟩ := houtcome.names_eq hst hs time
          obtain ⟨ihlines, ihnames⟩ := ih (List.not_mem_of_not_mem_cons hone)
            (s := { s with handles := after }) (houtcome.leadToFirst hst hs)
          rw [run_pets_cons hstep, List.flatMap_cons, List.filterMap_append, operations_cons, last_cons,
            List.foldl_append, hlines, ihlines, ihnames, hnames]
          exact ⟨rfl, rfl⟩

/-- Nothing but requests is logged by steps over the stores. -/
theorem mem_entries_run {steps : List HandleStep} {s : Session} {e : Journal.Entry}
    (he : e ∈ (s.run ids (steps.map .pets)).flatMap (·.entries)) : ∃ id r, e ∈ PetRequest.entries id r := by
  induction steps generalizing s with
  | nil => cases he
  | cons st steps ih =>
      cases hstep : s.handles.step ids st with
      | none =>
          rw [run_pets_of_none hstep] at he
          cases he
      | some next =>
          rw [run_pets_cons hstep, List.flatMap_cons] at he
          rcases List.mem_append.mp he with he | he
          · cases st with
            | request k r => exact ⟨_, r, he⟩
            | _ => cases he
          · exact ih he

/-! ### The log as a journal -/

/-- Where JSON logs begin, they are records, and their filter is made of directives. -/
theorem exists_directives_of_begin? {settings : LogSettings} {env : Environment} {logging : Logging}
    (hbegin : Logging.begin? none settings env = .ok logging) (hjson : settings.jsonLogs = true) :
    logging.style = .records ∧ ∃ ds, logging.filter = LogFilter.ofDirectives ds := by
  cases hchoose : LogFilter.choose (env.text? LogFilter.variableName) settings.logLevel with
  | error fault => simp [Logging.begin?, Logging.ofSettings, LogSettings.filter, hchoose] at hbegin
  | ok f =>
      obtain ⟨text, hread⟩ := LogFilter.exists_read_of_choose hchoose
      obtain ⟨ds, -, rfl⟩ := LogFilter.read_eq_ok_iff.mp hread
      simp only [Logging.begin?, Logging.ofSettings, LogSettings.filter, hchoose, hjson, if_true,
        Except.ok.injEq] at hbegin
      subst hbegin
      exact ⟨rfl, ds, rfl⟩

/-- **The log of a session is a journal of its store.** For JSON logs whose filter is static and lets through
what is told of requests, and for steps over one store: the log is read line by line; its lines tell in order
what the answers do, so that every granted put stands there with its id and name, every get and every delete
with its id, be it granted or not, and nothing else but the line with which logging begins. Done again from
nothing, what they tell leads to the names in the store. -/
theorem log_is_journal {settings : LogSettings} {env : Environment} {logging : Logging}
    (hbegin : Logging.begin? none settings env = .ok logging) (hjson : settings.jsonLogs = true)
    (hstatic : logging.filter.dynamics.entries = [])
    (hdebug : ∃ e : Journal.Event, e.target = "petstore_grpc::petstore" ∧ e.level = .debug ∧
      logging.filter.admits [] e = true)
    (ids : Nat → String) (time : String) {steps : List HandleStep} (hone : .create ∉ steps) :
    ∃ reports lines, run ids {} (steps.map .pets) = reports ∧
      Text.JsonReader.readLines (logging.write time (settings.entry :: reports.flatMap (·.entries))) =
        some lines ∧
      lines.filterMap Operation.ofLine? = operations steps reports ∧
      (∀ line ∈ lines, Operation.ofLine? line = none →
        line.textAt? ["fields", "message"] = some "Telemetry initialized") ∧
      Operation.replay (lines.filterMap Operation.ofLine?) = (last {} reports).handles.names := by
  obtain ⟨hstyle, ds, hds⟩ := exists_directives_of_begin? hbegin hjson
  have hplain := LogFilter.isPlain_of_dynamics_eq_nil (hds ▸ hstatic)
  obtain ⟨e₀, htarget, hlevel, hadmits⟩ := hdebug
  have hfirst : Handles.LeadToFirst (({} : Session).handles) := fun cell hcell => List.mem_singleton.mp hcell
  obtain ⟨hlines, hnames⟩ := replay_run ids time hone hfirst
  have hrequests : ∀ e ∈ (run ids {} (steps.map .pets)).flatMap (·.entries),
      ∃ id r, e ∈ PetRequest.entries id r := fun e he => mem_entries_run he
  generalize run ids {} (steps.map .pets) = reports at hlines hnames hrequests
  have hpassed := Logging.passed_requests hds hplain htarget hlevel hadmits hrequests
  obtain ⟨announced, hannounced, honly⟩ :=
    logging.passed_announcement settings (reports.flatMap (·.entries))
  have hread := Logging.readLines_write hstyle time (settings.entry :: reports.flatMap (·.entries))
  rw [hannounced, hpassed, List.map_append] at hread
  have hsilent : (announced.map (Journal.Entry.asJson time)).filterMap Operation.ofLine? = [] := by
    rw [List.filterMap_map, List.filterMap_eq_nil_iff]
    intro e he
    rw [honly e he]
    rfl
  have htold : (announced.map (Journal.Entry.asJson time) ++
      (reports.flatMap (·.entries)).map (Journal.Entry.asJson time)).filterMap Operation.ofLine? =
        operations steps reports := by
    rw [List.filterMap_append, hsilent, List.nil_append, List.filterMap_map]
    exact hlines
  refine ⟨reports, _, rfl, hread, htold, fun line hline hnone => ?_, ?_⟩
  · rcases List.mem_append.mp hline with hline | hline
    · obtain ⟨e, he, rfl⟩ := List.mem_map.mp hline
      rw [honly e he]
      rfl
    · obtain ⟨e, he, rfl⟩ := List.mem_map.mp hline
      obtain ⟨id, r, hmem⟩ := hrequests e he
      exact absurd hnone (PetRequest.ofLine?_ne_none hmem)
  · rw [htold, hnames]
    rfl

/-- Two pets are put through two handles, one under a name that ends a line, and one is deleted twice. -/
def deletedTwice : List HandleStep :=
  [.request 0 (.put ⟨1, "Tom"⟩), .request 0 (.put ⟨2, " "⟩), .clone 0, .request 1 (.put ⟨3, "Rex\n"⟩),
    .request 1 (.delete ⟨"a"⟩), .request 0 (.delete ⟨"a"⟩), .request 1 (.get ⟨"b"⟩)]

/-- The put under a blank name is not told, the delete that is refused is, and the name that ends a line is
read back as it was. -/
theorem log_is_journal_deletedTwice :
    ∃ logging reports lines,
      Logging.begin? none { logLevel := "debug", jsonLogs := true } {} = .ok logging ∧
      run (fun n => if n = 0 then "a" else "b") {} (deletedTwice.map .pets) = reports ∧
      Text.JsonReader.readLines (logging.write "noon" (LogSettings.entry
        { logLevel := "debug", jsonLogs := true } :: reports.flatMap (·.entries))) = some lines ∧
      lines.filterMap Operation.ofLine? =
        [.put "a" "Tom", .put "b" "Rex\n", .delete "a", .delete "a", .get "b"] ∧
      Operation.replay (lines.filterMap Operation.ofLine?) = (last {} reports).handles.names ∧
      (last {} reports).handles.names "a" = none ∧ (last {} reports).handles.names "b" = some "Rex\n" := by
  have hbegin : Logging.begin? none { logLevel := "debug", jsonLogs := true } {} =
      .ok ⟨LogFilter.ofDirectives [{ level := .debug }], .records⟩ := by decide +kernel
  have hone : .create ∉ deletedTwice := by decide
  obtain ⟨reports, lines, hreports, hread, htold, -, hreplay⟩ :=
    log_is_journal hbegin rfl rfl
      ⟨{ level := .debug, target := "petstore_grpc::petstore", message := "" }, rfl, rfl, by decide +kernel⟩
      (fun n => if n = 0 then "a" else "b") "noon" hone
  subst hreports
  have hoperations : operations deletedTwice (run (fun n => if n = 0 then "a" else "b") {}
      (deletedTwice.map .pets)) = [.put "a" "Tom", .put "b" "Rex\n", .delete "a", .delete "a", .get "b"] := by
    decide +kernel
  refine ⟨_, _, lines, hbegin, rfl, hread, htold.trans hoperations, hreplay, ?_, ?_⟩
  all_goals decide +kernel

end Session

end Menagerie
