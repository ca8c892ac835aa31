import Mathlib.Data.List.Nodup
import Menagerie.Proofs.CommandLine.Arguments

/-! Where the value of an option comes from: from the line, else from its variable, else from itself. A
line of the two options is read exactly if no option is repeated and the format that is in force has a
name; how the line is written then does not matter, nor does the variable of an option that is on it. -/

namespace Menagerie

namespace LogFormat

theorem ofName?_eq_some_iff {s : String} {f : LogFormat} :
    ofName? s = some f ↔ f.name = s := by
  refine ⟨fun h => by simpa using List.find?_some h, ?_⟩
  rintro rfl
  cases f <;> rfl

theorem isSome_ofName?_iff {s : String} :
    (ofName? s).isSome ↔ s = "pretty" ∨ s = "json" := by
  simp only [Option.isSome_iff_exists, ofName?_eq_some_iff]
  constructor
  · rintro ⟨f, rfl⟩
    cases f
    · exact .inl rfl
    · exact .inr rfl
  · rintro (rfl | rfl)
    · exact ⟨.pretty, rfl⟩
    · exact ⟨.json, rfl⟩

end LogFormat

namespace CommandLine

open Text (Raw)

/-- The value of an option that is in force: the first one on the line, else that of the variable, be it
empty, else its own. -/
def valueInForce (os : List Occurrence) (env : Environment) (c : Choice) : String :=
  ((os.find? (·.choice = c)).map Occurrence.value).getD ((env.text? c.variableName).getD c.fallback)

example : Choice.all.map (fun c => (c.flag, c.variableName, c.fallback)) =
    [("--log-level", "PETSTORE_LOG", "info"), ("--log-format", "PETSTORE_LOG_FORMAT", "pretty")] := by
  decide

/-- The variables of the options that are not on the line are texts, or unset. -/
def IsTextual (os : List Occurrence) (env : Environment) : Prop :=
  ∀ c ∉ os.map Occurrence.choice, ∀ v, env.get? c.variableName = some v → v.text?.isSome

/-! ## Settling the occurrences -/

namespace Progress

theorem settlePending_of_none {p : Progress} (h : p.pending = none) : p.settlePending = (none, p) := by
  cases p
  cases h
  rfl

theorem settlePending_wait (p : Progress) (c : Choice) (v : Raw) (h : p.pending = none) :
    settlePending { p with pending := some (c, some v) } = p.settle c v := by
  cases p
  cases h
  rfl

/-- The occurrence with its value is settled, unless something is wrong with it. -/
def settleNext (p : Progress) (o : Occurrence) : Except Stop Progress :=
  orStop (p.settle o.choice (.text o.value))

end Progress

theorem readLong_value (p : Progress) (c : Choice) (v : Raw) :
    readLong p (.text c.name) (some v) =
      Progress.orStop p.settlePending >>= fun p => Progress.orStop (p.settle c v) := by
  cases c <;> rfl

theorem readLong_bare (p : Progress) (c : Choice) :
    readLong p (.text c.name) none =
      Progress.orStop p.settlePending >>= fun p => .ok { p with pending := some (c, none) } := by
  cases c <;> rfl

theorem readFrom_long {p : Progress} {a name : Raw} {value : Option Raw} (rest : List Raw)
    (ha : Argument.ofRaw a = .long name value) :
    readFrom p false (a :: rest) = readLong p name value >>= fun p => readFrom p false rest := by
  rw [readFrom, if_neg Bool.false_ne_true, ha]
  dsimp only
  cases readLong p name value <;> rfl

theorem readFrom_plain {p : Progress} {a v : Raw} {c : Choice} (rest : List Raw)
    (ha : Argument.ofRaw a = .plain v) (hp : p.pending = some (c, none)) :
    readFrom p false (a :: rest) = readFrom { p with pending := some (c, some v) } false rest := by
  rw [readFrom, if_neg Bool.false_ne_true, ha]
  dsimp only
  rw [hp]

/-- The option is there with its value, settled at once or waiting for what comes next. -/
theorem readFrom_arguments_append (p : Progress) (o : Occurrence) (rest : List Raw) :
    readFrom p false (o.arguments ++ rest) =
      Progress.orStop p.settlePending >>= fun p =>
        if o.joined then p.settleNext o >>= fun p => readFrom p false rest
        else readFrom { p with pending := some (o.choice, some (.text o.value)) } false rest := by
  have hof := o.map_ofRaw_arguments
  unfold Occurrence.arguments at hof ⊢
  cases hjoined : o.joined with
  | true =>
      simp only [hjoined, if_true, List.map_cons, List.map_nil, List.cons.injEq, and_true] at hof ⊢
      rw [List.singleton_append, readFrom_long _ hof, readLong_value, bind_assoc]
      rfl
  | false =>
      simp only [hjoined, Bool.false_eq_true, if_false, List.map_cons, List.map_nil, List.cons.injEq,
        and_true] at hof ⊢
      rw [List.cons_append, List.singleton_append, readFrom_long _ hof.1, readLong_bare, bind_assoc]
      refine bind_congr fun r => ?_
      exact readFrom_plain rest hof.2 rfl

/-- The occurrences are settled one after another, however each is written. -/
theorem readFrom_arguments (os : List Occurrence) (p : Progress) :
    readFrom p false (os.flatMap Occurrence.arguments) =
      Progress.orStop p.settlePending >>= fun p => os.foldlM Progress.settleNext p := by
  induction os generalizing p with
  | nil => exact (bind_pure (Progress.orStop p.settlePending)).symm
  | cons o os ih =>
      rw [List.flatMap_cons, readFrom_arguments_append]
      cases hr : Progress.orStop p.settlePending with
      | error s => rfl
      | ok r =>
          have hpending := (Progress.of_settlePending hr).2
          change (if o.joined then _ else _) = r.settleNext o >>= fun p => os.foldlM Progress.settleNext p
          cases o.joined with
          | true =>
              rw [if_pos rfl]
              cases hq : r.settleNext o with
              | error s => rfl
              | ok q =>
                  have hnone : q.pending = none := (Progress.pending_of_settle hq).trans hpending
                  change readFrom q false _ = os.foldlM Progress.settleNext q
                  rw [ih, Progress.settlePending_of_none hnone]
                  rfl
          | false =>
              rw [if_neg Bool.false_ne_true, ih, Progress.settlePending_wait r _ _ hpending]
              rfl

/-! ## When settling succeeds -/

theorem valueFault?_eq_none_iff {c : Choice} {v : Raw} {s : String} (hv : v.text? = some s) :
    valueFault? c v = none ↔ (c = .logFormat → (LogFormat.ofName? s).isSome) := by
  cases c with
  | logLevel => simp [valueFault?, hv]
  | logFormat =>
      by_cases hs : s = ""
      · subst hs
        simp only [valueFault?, hv]
        decide
      · simp [valueFault?, hv, Option.isSome_iff_ne_none]

namespace Progress

theorem value?_eq_none_iff {p : Progress} {c : Choice} :
    p.value? c = none ↔ c ∉ p.settled.map Prod.fst := by
  simp only [value?, Option.map_eq_none_iff, List.find?_eq_none, List.mem_map, decide_eq_true_eq, not_exists,
    not_and]

theorem settleNext_eq_ok_iff {p q : Progress} {o : Occurrence} :
    p.settleNext o = .ok q ↔
      o.choice ∉ p.settled.map Prod.fst ∧
        (o.choice = .logFormat → (LogFormat.ofName? o.value).isSome) ∧
        q = { p with settled := p.settled ++ [(o.choice, .text o.value)] } := by
  rw [← valueFault?_eq_none_iff (v := .text o.value) rfl, ← value?_eq_none_iff, settleNext, settle]
  cases hvalue : p.value? o.choice with
  | some v => simp [orStop]
  | none =>
      cases hfault : valueFault? o.choice (.text o.value) with
      | some s => simp [orStop]
      | none => simp [orStop, eq_comm]

/-- Occurrences are settled exactly if none repeats another or what was there, and every format among
them has a name. -/
theorem foldlM_settleNext_eq_ok_iff {os : List Occurrence} {p q : Progress}
    (hp : (p.settled.map Prod.fst).Nodup) :
    os.foldlM settleNext p = .ok q ↔
      (p.settled.map Prod.fst ++ os.map Occurrence.choice).Nodup ∧
        (∀ o ∈ os, o.choice = .logFormat → (LogFormat.ofName? o.value).isSome) ∧
        q = { p with settled := p.settled ++ os.map fun o => (o.choice, .text o.value) } := by
  induction os generalizing p with
  | nil =>
      rw [List.foldlM_nil, List.map_nil, List.map_nil, List.append_nil, List.append_nil]
      constructor
      · rintro ⟨⟩
        exact ⟨hp, by simp, rfl⟩
      · rintro ⟨-, -, rfl⟩
        rfl
  | cons o os ih =>
      have hsettled : (p.settled ++ [(o.choice, Raw.text o.value)]).map Prod.fst ++ os.map Occurrence.choice =
          p.settled.map Prod.fst ++ (o :: os).map Occurrence.choice := by
        simp
      have hnext (hnew : o.choice ∉ p.settled.map Prod.fst) :
          ((p.settled ++ [(o.choice, Raw.text o.value)]).map Prod.fst).Nodup := by
        rw [List.map_append]
        exact List.Nodup.append hp (List.nodup_singleton _) (by simpa using hnew)
      rw [List.foldlM_cons, bind_eq_ok_iff]
      constructor
      · rintro ⟨r, hr, hq⟩
        obtain ⟨hnew, hformat, rfl⟩ := settleNext_eq_ok_iff.1 hr
        obtain ⟨hnodup, hformats, rfl⟩ := (ih (hnext hnew)).1 hq
        refine ⟨hsettled ▸ hnodup, List.forall_mem_cons.2 ⟨hformat, hformats⟩, ?_⟩
        rw [List.append_assoc]
        rfl
      · rintro ⟨hnodup, hformats, rfl⟩
        obtain ⟨hformat, hformats⟩ := List.forall_mem_cons.1 hformats
        have hnew : o.choice ∉ p.settled.map Prod.fst := fun hmem =>
          List.disjoint_of_nodup_append hnodup hmem List.mem_cons_self
        refine ⟨_, settleNext_eq_ok_iff.2 ⟨hnew, hformat, rfl⟩, (ih (hnext hnew)).2 ⟨?_, hformats, ?_⟩⟩
        · exact hsettled ▸ hnodup
        · rw [List.append_assoc]
          rfl

end Progress

/-- What is settled when a line of occurrences is read: the occurrences, in order. -/
def settled (os : List Occurrence) : List (Choice × Raw) := os.map fun o => (o.choice, .text o.value)

theorem readFrom_eq_ok_iff {os : List Occurrence} {p : Progress} :
    readFrom {} false (os.flatMap Occurrence.arguments) = .ok p ↔
      (os.map Occurrence.choice).Nodup ∧
        (∀ o ∈ os, o.choice = .logFormat → (LogFormat.ofName? o.value).isSome) ∧
        p = { settled := settled os } := by
  rw [readFrom_arguments]
  exact Progress.foldlM_settleNext_eq_ok_iff List.nodup_nil

/-! ## What is in force -/

theorem value?_settled (os : List Occurrence) (c : Choice) :
    Progress.value? { settled := settled os } c =
      ((os.find? (·.choice = c)).map Occurrence.value).map Raw.text := by
  rw [Progress.value?, settled, List.find?_map, Option.map_map, Option.map_map]
  rfl

/-- An option on the line has its value from there; the value of a variable has to be a format if it is
that of the format. -/
theorem effective_eq_ok_iff {os : List Occurrence} {env : Environment} {c : Choice} {s : String}
    (henv : IsTextual os env) :
    effective { settled := settled os } env c = .ok s ↔
      s = valueInForce os env c ∧
        (c ∉ os.map Occurrence.choice → c = .logFormat →
          (LogFormat.ofName? (valueInForce os env c)).isSome) := by
  rw [effective, value?_settled, valueInForce]
  cases hfind : os.find? (·.choice = c) with
  | some o =>
      have hmem : c ∈ os.map Occurrence.choice :=
        List.mem_map.2 ⟨o, List.mem_of_find?_eq_some hfind, by simpa using List.find?_some hfind⟩
      simp only [Option.map_some, Option.getD_some, Raw.text?, Except.ok.injEq]
      exact ⟨fun h => ⟨h.symm, fun hnot => absurd hmem hnot⟩, fun h => h.1.symm⟩
  | none =>
      have hmem : c ∉ os.map Occurrence.choice := by
        simpa using hfind
      cases hget : env.get? c.variableName with
      | none =>
          have hfallback : c = .logFormat → (LogFormat.ofName? c.fallback).isSome := by
            rintro rfl
            rfl
          simp only [Option.map_none, Option.getD_none, Environment.text?, hget, Option.bind_none,
            Except.ok.injEq]
          exact ⟨fun h => ⟨h.symm, fun _ => hfallback⟩, fun h => h.1.symm⟩
      | some v =>
          obtain ⟨t, ht⟩ := Option.isSome_iff_exists.1 (henv c hmem v hget)
          have hfault := valueFault?_eq_none_iff (c := c) ht
          simp only [Option.map_none, Option.getD_none, Environment.text?, hget, Option.bind_some, ht,
            Option.getD_some]
          cases hv : valueFault? c v with
          | none => exact ⟨fun h => ⟨(Except.ok.inj h).symm, fun _ => hfault.1 hv⟩, fun h => h.1 ▸ rfl⟩
          | some stop =>
              refine ⟨?_, fun h => absurd (hfault.2 (h.2 hmem)) (by simp [hv])⟩
              rintro ⟨⟩

theorem valueInForce_of_not_mem {os : List Occurrence} (env : Environment) {c : Choice}
    (hmem : c ∉ os.map Occurrence.choice) :
    valueInForce os env c = (env.text? c.variableName).getD c.fallback := by
  have hfind : os.find? (·.choice = c) = none := by
    simpa using hmem
  rw [valueInForce, hfind, Option.map_none, Option.getD_none]

theorem valueInForce_of_mem {os : List Occurrence} (env : Environment)
    (hnodup : (os.map Occurrence.choice).Nodup) {o : Occurrence} (ho : o ∈ os) :
    valueInForce os env o.choice = o.value := by
  have hfind : os.find? (·.choice = o.choice) = some o := by
    induction os with
    | nil => cases ho
    | cons head os ih =>
        obtain ⟨hhead, htail⟩ := List.nodup_cons.1 hnodup
        rcases List.mem_cons.1 ho with rfl | hmem
        · simp
        · have hne : head.choice ≠ o.choice := fun heq => hhead (heq ▸ List.mem_map_of_mem hmem)
          rw [List.find?_cons_of_neg (by simpa using hne), ih htail hmem]
  rw [valueInForce, hfind]
  rfl

/-- A line of occurrences is read exactly if no option is repeated and the format in force has a name. -/
theorem read_eq_ok_iff {os : List Occurrence} {env : Environment} {line : CommandLine}
    (henv : IsTextual os env) :
    read (os.flatMap Occurrence.arguments) env = .ok line ↔
      (os.map Occurrence.choice).Nodup ∧
        LogFormat.ofName? (valueInForce os env .logFormat) = some line.logFormat ∧
          line.logLevel = valueInForce os env .logLevel := by
  simp only [read, bind_eq_ok_iff, readFrom_eq_ok_iff]
  constructor
  · rintro ⟨_, ⟨hnodup, hformats, rfl⟩, level, hlevel, format, hformat, ⟨⟩⟩
    obtain ⟨rfl, -⟩ := (effective_eq_ok_iff henv).1 hlevel
    obtain ⟨rfl, hown⟩ := (effective_eq_ok_iff henv).1 hformat
    have hsome : (LogFormat.ofName? (valueInForce os env .logFormat)).isSome := by
      by_cases hmem : Choice.logFormat ∈ os.map Occurrence.choice
      · obtain ⟨o, ho, hchoice⟩ := List.mem_map.1 hmem
        rw [← hchoice, valueInForce_of_mem env hnodup ho]
        exact hformats o ho hchoice
      · exact hown hmem rfl
    obtain ⟨f, hf⟩ := Option.isSome_iff_exists.1 hsome
    exact ⟨hnodup, by rw [hf, Option.getD_some], rfl⟩
  · rintro ⟨hnodup, hformat, hlevel⟩
    have hsome : (LogFormat.ofName? (valueInForce os env .logFormat)).isSome := by
      rw [hformat, Option.isSome_some]
    refine ⟨_, ⟨hnodup, ?_, rfl⟩, _, (effective_eq_ok_iff henv).2 ⟨rfl, ?_⟩, _,
      (effective_eq_ok_iff henv).2 ⟨rfl, fun _ _ => hsome⟩, ?_⟩
    · intro o ho hchoice
      rwa [← valueInForce_of_mem env hnodup ho, hchoice]
    · rintro - ⟨⟩
    · rw [hformat, ← hlevel]
      rfl

theorem map_choice_perm {os os' : List Occurrence}
    (hperm : (os'.map Occurrence.choiceValue).Perm (os.map Occurrence.choiceValue)) :
    (os'.map Occurrence.choice).Perm (os.map Occurrence.choice) := by
  have hfst (os : List Occurrence) : (os.map Occurrence.choiceValue).map Prod.fst = os.map Occurrence.choice := by
    rw [List.map_map]
    rfl
  rw [← hfst, ← hfst]
  exact hperm.map Prod.fst

/-- What is in force depends neither on the order of the occurrences nor on how they are written, nor on
the variable of an option among them. -/
theorem valueInForce_congr {os os' : List Occurrence} {env env' : Environment}
    (hnodup : (os.map Occurrence.choice).Nodup)
    (hperm : (os'.map Occurrence.choiceValue).Perm (os.map Occurrence.choiceValue))
    (henv : ∀ c ∉ os.map Occurrence.choice, env'.get? c.variableName = env.get? c.variableName)
    (c : Choice) : valueInForce os' env' c = valueInForce os env c := by
  have hchoices := map_choice_perm hperm
  by_cases hmem : c ∈ os.map Occurrence.choice
  · obtain ⟨o, ho, rfl⟩ := List.mem_map.1 hmem
    obtain ⟨o', ho', hsame⟩ := List.mem_map.1 (hperm.mem_iff.2 (List.mem_map_of_mem ho))
    obtain ⟨hchoice, hvalue⟩ := Prod.mk.inj hsame
    rw [valueInForce_of_mem env hnodup ho, ← hchoice,
      valueInForce_of_mem env' (hchoices.nodup_iff.2 hnodup) ho', hvalue]
  · have hmem' : c ∉ os'.map Occurrence.choice := fun h => hmem (hchoices.mem_iff.1 h)
    rw [valueInForce_of_not_mem env hmem, valueInForce_of_not_mem env' hmem', Environment.text?, henv c hmem,
      Environment.text?]

theorem IsTextual.congr {os os' : List Occurrence} {env env' : Environment} (h : IsTextual os env)
    (hperm : (os'.map Occurrence.choiceValue).Perm (os.map Occurrence.choiceValue))
    (henv : ∀ c ∉ os.map Occurrence.choice, env'.get? c.variableName = env.get? c.variableName) :
    IsTextual os' env' := by
  intro c hmem v hv
  have hmem' : c ∉ os.map Occurrence.choice := fun hc => hmem ((map_choice_perm hperm).mem_iff.2 hc)
  exact h c hmem' v (henv c hmem' ▸ hv)

/-- The settings of a line that is read, by the format in force. -/
theorem logSettings_eq {line : CommandLine} {level format : String} (hlevel : line.logLevel = level)
    (hformat : LogFormat.ofName? format = some line.logFormat) :
    line.logSettings = { ({} : LogSettings) with
      serviceName := "petstore-server"
      logLevel := level
      jsonLogs := decide (format = "json") } := by
  obtain rfl := LogFormat.ofName?_eq_some_iff.1 hformat
  obtain ⟨_, f⟩ := line
  obtain rfl := hlevel
  cases f <;> rfl

/-- **The line takes precedence over the environment, and the environment over the defaults.** A line on
which the two options occur in any order, written either way, is read exactly if neither occurs twice and
the format in force has a name; the log then has the level in force, word for word, and is JSON exactly if
that is the format. Another order, another way of writing and other values, valid or not, of the variables
of options that occur make no difference, and no line is read that has stray arguments besides. -/
theorem read_takes_precedence (os : List Occurrence) (env : Environment) (henv : IsTextual os env) :
    ((∃ line, read (os.flatMap Occurrence.arguments) env = .ok line) ↔
      (os.map Occurrence.choice).Nodup ∧
        (valueInForce os env .logFormat = "pretty" ∨ valueInForce os env .logFormat = "json")) ∧
    (∀ line, read (os.flatMap Occurrence.arguments) env = .ok line →
      line.logSettings = { ({} : LogSettings) with
        serviceName := "petstore-server"
        logLevel := valueInForce os env .logLevel
        jsonLogs := decide (valueInForce os env .logFormat = "json") } ∧
      ∀ (os' : List Occurrence) (env' : Environment),
        (os'.map Occurrence.choiceValue).Perm (os.map Occurrence.choiceValue) →
        (∀ c ∉ os.map Occurrence.choice, env'.get? c.variableName = env.get? c.variableName) →
        read (os'.flatMap Occurrence.arguments) env' = .ok line) ∧
    ∀ (args strays : List Raw), args.Perm (os.flatMap Occurrence.arguments ++ strays) → strays ≠ [] →
      (∀ a ∈ strays, IsStray a) → ∀ env' line, read args env' ≠ .ok line := by
  refine ⟨?_, ?_, ?_⟩
  · rw [← LogFormat.isSome_ofName?_iff, Option.isSome_iff_exists]
    constructor
    · rintro ⟨line, hread⟩
      obtain ⟨hnodup, hformat, -⟩ := (read_eq_ok_iff henv).1 hread
      exact ⟨hnodup, line.logFormat, hformat⟩
    · rintro ⟨hnodup, f, hformat⟩
      exact ⟨⟨_, f⟩, (read_eq_ok_iff henv).2 ⟨hnodup, hformat, rfl⟩⟩
  · intro line hread
    obtain ⟨hnodup, hformat, hlevel⟩ := (read_eq_ok_iff henv).1 hread
    refine ⟨logSettings_eq hlevel hformat, ?_⟩
    intro os' env' hperm hsame
    have hnodup' := (map_choice_perm hperm).nodup_iff.2 hnodup
    rw [read_eq_ok_iff (henv.congr hperm hsame), valueInForce_congr hnodup hperm hsame,
      valueInForce_congr hnodup hperm hsame]
    exact ⟨hnodup', hformat, hlevel⟩
  · intro args strays hargs hne hstrays env' line hread
    obtain ⟨p, hp, -⟩ := bind_eq_ok_iff.1 hread
    exact readFrom_ne_ok_of_strays hargs hne hstrays hp

/-- The format alone, in one argument. -/
def jsonJoined : List Occurrence := [⟨.logFormat, "json", true, by decide⟩]

/-- The format alone, in two arguments. -/
def jsonApart : List Occurrence := [⟨.logFormat, "json", false, by decide⟩]

/-- The variable of the format is set to what is no format, that of the level is empty. -/
def strangeFormat : Environment :=
  { entries := [("PETSTORE_LOG_FORMAT", .text "xml"), ("PETSTORE_LOG", .text "")] }

/-- The variable of the level is empty, that of the format unset. -/
def emptyLevel : Environment := { entries := [("PETSTORE_LOG", .text "")] }

theorem read_takes_precedence_strangeFormat :
    IsTextual jsonJoined strangeFormat ∧
    (∃ line, read [.text "--log-format=json"] strangeFormat = .ok line ∧
      line.logSettings = { ({} : LogSettings) with
        serviceName := "petstore-server", logLevel := "", jsonLogs := true } ∧
      read [.text "--log-format", .text "json"] emptyLevel = .ok line) ∧
    ∀ env line, read [.text "--port", .text "--log-format=json", .text "8080"] env ≠ .ok line := by
  have henv : IsTextual jsonJoined strangeFormat := by
    intro c hc v hv
    cases c with
    | logLevel =>
        cases hv
        rfl
    | logFormat => exact absurd (List.mem_singleton.2 rfl) hc
  obtain ⟨hread, hline, hstray⟩ := read_takes_precedence jsonJoined strangeFormat henv
  obtain ⟨line, hjson⟩ := hread.2 ⟨by decide, .inr rfl⟩
  obtain ⟨hsettings, hsame⟩ := hline line hjson
  refine ⟨henv, ⟨line, hjson, hsettings, ?_⟩, ?_⟩
  · refine hsame jsonApart emptyLevel (.refl _) fun c hc => ?_
    cases c with
    | logLevel => rfl
    | logFormat => exact absurd (List.mem_singleton.2 rfl) hc
  · refine hstray _ [.text "--port", .text "8080"] ?_ (by simp) ?_
    · exact .swap _ _ _
    · simp only [List.forall_mem_cons]
      exact ⟨.unknown "port" (by decide) (by decide) (by decide), .positional "8080" (by decide), by simp⟩

end CommandLine

end Menagerie
