import Mathlib.Data.List.Duplicate
import Mathlib.Data.List.Induction
import Mathlib.Data.List.Pairwise
import Mathlib.Data.Nat.Find
import Menagerie.Proofs.Descriptor.Size
import Menagerie.Server.Composition

/-! A composition runs a prefix of its registrations. It ends with the first one that fails or adds a
path for the second time, and reports which of the two it was. If there is no such registration, all of
them have run, and the server has the names and the services of all. The registrations of pets, health
and reflection compose unless one of them is repeated. -/

namespace Menagerie

/-- What stops a registration that runs behind others: it fails, or it adds a path that was added before,
by one of them or by itself. -/
inductive Registration.Stops (before : List Registration) : Registration → Obstacle → Prop
  | fails (e : StartupError) : Stops before (.fails e) (.failed e)
  | clash {name : String} {services earlier later : List Service} {s t : Service}
      (hs : services = earlier ++ s :: later)
      (ht : t ∈ before.flatMap Registration.services ++ earlier) (hpath : t.path = s.path) :
      Stops before (.adds name services) .clash

/-- The registration at place `k` of a list is stopped. -/
def Obstructed (rs : List Registration) (k : Nat) (o : Obstacle) : Prop :=
  ∃ r ∈ rs[k]?, r.Stops (rs.take k) o

/-- No registration of a list is stopped. -/
def Clear (rs : List Registration) : Prop := ∀ k o, ¬Obstructed rs k o

/-! ### One registration -/

namespace Routes

theorem add?_eq_none_iff {r : Routes} {s : Service} :
    r.add? s = none ↔ ∃ t ∈ r.services, t.path = s.path := by
  simp [add?]

theorem services_of_add? {r after : Routes} {s : Service} (h : r.add? s = some after) :
    after.services = r.services ++ [s] := by
  unfold add? at h
  split at h
  · cases h
  · obtain rfl := Option.some.inj h
    rfl

theorem services_of_addAll? {r after : Routes} {ss : List Service} (h : r.addAll? ss = some after) :
    after.services = r.services ++ ss := by
  induction ss generalizing r with
  | nil =>
      obtain rfl := Option.some.inj h
      rw [List.append_nil]
  | cons s ss ih =>
      cases hs : r.add? s with
      | none => simp [addAll?, hs] at h
      | some next =>
          simp only [addAll?, hs] at h
          rw [ih h, services_of_add? hs, List.append_assoc, List.singleton_append]

/-- Services cannot be added exactly if one of them has a path that is there or that one before it has. -/
theorem addAll?_eq_none_iff {r : Routes} {ss : List Service} :
    r.addAll? ss = none ↔
      ∃ earlier s later, ss = earlier ++ s :: later ∧ ∃ t ∈ r.services ++ earlier, t.path = s.path := by
  induction ss generalizing r with
  | nil => simp [addAll?]
  | cons s ss ih =>
      cases hs : r.add? s with
      | none =>
          obtain ⟨t, ht, hpath⟩ := add?_eq_none_iff.mp hs
          simp only [addAll?, hs, true_iff]
          exact ⟨[], s, ss, rfl, t, by simpa using ht, hpath⟩
      | some next =>
          have hfree : ¬∃ t ∈ r.services, t.path = s.path := by
            rw [← add?_eq_none_iff, hs]
            nofun
          simp only [addAll?, hs, ih, services_of_add? hs]
          constructor
          · rintro ⟨earlier, s', later, rfl, t, ht, hpath⟩
            exact ⟨s :: earlier, s', later, rfl, t, by simpa using ht, hpath⟩
          · rintro ⟨earlier, s', later, heq, t, ht, hpath⟩
            cases earlier with
            | nil =>
                obtain ⟨rfl, -⟩ := List.cons.inj heq
                exact absurd ⟨t, by simpa using ht, hpath⟩ hfree
            | cons s₀ earlier =>
                obtain ⟨rfl, rfl⟩ := List.cons.inj heq
                exact ⟨earlier, s', later, rfl, t, by simpa using ht, hpath⟩

end Routes

namespace Registration

variable {before : List Registration} {routes : Routes} {r : Registration} {o : Obstacle}

theorem run_eq_error_iff (hroutes : routes.services = before.flatMap services) :
    r.run routes = .error o ↔ r.Stops before o := by
  cases r with
  | fails e =>
      constructor
      · intro h
        obtain rfl := Except.error.inj h
        exact .fails e
      · rintro ⟨⟩
        rfl
  | adds name ss =>
      have hnone : routes.addAll? ss = none ↔ _ := Routes.addAll?_eq_none_iff
      rw [hroutes] at hnone
      constructor
      · intro h
        cases hadd : routes.addAll? ss with
        | none =>
            obtain ⟨earlier, s, later, hs, t, ht, hpath⟩ := hnone.mp hadd
            simp only [run, hadd] at h
            obtain rfl := Except.error.inj h
            exact .clash hs ht hpath
        | some after => simp [run, hadd] at h
      · intro h
        cases h with
        | clash hs ht hpath => simp only [run, hnone.mpr ⟨_, _, _, hs, _, ht, hpath⟩]

/-- A registration that is not stopped answers its name and adds its services. -/
theorem run_of_not_stops (hroutes : routes.services = before.flatMap services)
    (h : ∀ o, ¬r.Stops before o) :
    ∃ name after, r.run routes = .ok (name, after) ∧ r.name? = some name ∧
      after.services = (before ++ [r]).flatMap services := by
  cases hrun : r.run routes with
  | error o => exact absurd ((run_eq_error_iff hroutes).mp hrun) (h o)
  | ok x =>
      obtain ⟨name, after⟩ := x
      cases r with
      | fails e => cases hrun
      | adds name' ss =>
          cases hadd : routes.addAll? ss with
          | none => simp [run, hadd] at hrun
          | some next =>
              simp only [run, hadd] at hrun
              obtain ⟨rfl, rfl⟩ := Prod.mk.inj (Except.ok.inj hrun)
              refine ⟨name', next, rfl, rfl, ?_⟩
              rw [Routes.services_of_addAll? hadd, hroutes, List.flatMap_append]
              simp [services]

end Registration

/-! ### Many registrations -/

theorem Obstructed.append {rs : List Registration} {k : Nat} {o : Obstacle} (h : Obstructed rs k o)
    (rest : List Registration) : Obstructed (rs ++ rest) k o := by
  obtain ⟨r, hr, hstops⟩ := h
  have hk : k < rs.length := (List.getElem?_eq_some_iff.mp hr).1
  refine ⟨r, ?_, ?_⟩
  · rw [List.getElem?_append_left hk]
    exact hr
  · rw [List.take_append_of_le_length (Nat.le_of_lt hk)]
    exact hstops

theorem obstructed_concat {rs : List Registration} {r : Registration} {o : Obstacle} :
    Obstructed (rs ++ [r]) rs.length o ↔ r.Stops rs o := by
  simp [Obstructed]

theorem Clear.of_append {rs rest : List Registration} (h : Clear (rs ++ rest)) : Clear rs :=
  fun k o hk => h k o (hk.append rest)

/-- Behind registrations of which none is stopped, the composition goes on with their names and services. -/
theorem compose_append {rs : List Registration} (h : Clear rs) :
    ∃ names routes, names.map some = rs.map Registration.name? ∧
      routes.services = rs.flatMap Registration.services ∧
      ∀ rest, compose (rs ++ rest) = Composition.advance rs names routes rest := by
  induction rs using List.reverseRecOn with
  | nil => exact ⟨[], {}, rfl, rfl, fun _ => rfl⟩
  | append_singleton rs r ih =>
      obtain ⟨names, routes, hnames, hroutes, hcompose⟩ := ih h.of_append
      have hstops : ∀ o, ¬r.Stops rs o := fun o ho => h rs.length o (obstructed_concat.mpr ho)
      obtain ⟨name, after, hrun, hname, hafter⟩ := Registration.run_of_not_stops hroutes hstops
      refine ⟨names ++ [name], after, ?_, hafter, fun rest => ?_⟩
      · rw [List.map_append, List.map_append, hnames, List.map_singleton, List.map_singleton, hname]
      · rw [List.append_assoc, List.singleton_append, hcompose]
        simp only [Composition.advance, hrun]

theorem compose_of_clear {rs : List Registration} (h : Clear rs) :
    ∃ server, compose rs = ⟨rs, server.names, .ok server⟩ ∧
      server.names.map some = rs.map Registration.name? ∧
      server.routes.services = rs.flatMap Registration.services := by
  obtain ⟨names, routes, hnames, hroutes, hcompose⟩ := compose_append h
  refine ⟨⟨names, routes⟩, ?_, hnames, hroutes⟩
  rw [← List.append_nil rs, hcompose, List.append_nil]
  rfl

/-- The first registration that is stopped ends the composition. -/
theorem compose_of_obstructed {rs : List Registration} {k : Nat} {o : Obstacle}
    (h : Obstructed rs k o) (hfirst : Clear (rs.take k)) :
    ∃ names : List String, names.map some = (rs.take k).map Registration.name? ∧
      compose rs = ⟨rs.take (k + 1), names, .error o⟩ := by
  obtain ⟨r, hr, hstops⟩ := h
  obtain ⟨names, routes, hnames, hroutes, hcompose⟩ := compose_append hfirst
  obtain ⟨hk, rfl⟩ := List.getElem?_eq_some_iff.mp hr
  have hrun := (Registration.run_eq_error_iff hroutes).mpr hstops
  refine ⟨names, hnames, ?_⟩
  calc compose rs = compose (rs.take k ++ rs[k] :: rs.drop (k + 1)) := by
        rw [← List.drop_eq_getElem_cons, List.take_append_drop]
    _ = Composition.advance (rs.take k) names routes (rs[k] :: rs.drop (k + 1)) := hcompose _
    _ = ⟨rs.take k ++ [rs[k]], names, .error o⟩ := by simp only [Composition.advance, hrun]
    _ = ⟨rs.take (k + 1), names, .error o⟩ := by rw [List.take_append_getElem]

theorem obstructed_take_iff {rs : List Registration} {k j : Nat} {o : Obstacle} :
    Obstructed (rs.take k) j o ↔ j < k ∧ Obstructed rs j o := by
  constructor
  · rintro ⟨r, hr, hstops⟩
    have hj : j < (rs.take k).length := (List.getElem?_eq_some_iff.mp hr).1
    have hjk : j < k := Nat.lt_of_lt_of_le hj (List.length_take_le k rs)
    rw [List.getElem?_take_of_lt hjk] at hr
    rw [List.take_take, Nat.min_eq_left (Nat.le_of_lt hjk)] at hstops
    exact ⟨hjk, r, hr, hstops⟩
  · rintro ⟨hjk, r, hr, hstops⟩
    refine ⟨r, ?_, ?_⟩
    · rw [List.getElem?_take_of_lt hjk]
      exact hr
    · rw [List.take_take, Nat.min_eq_left (Nat.le_of_lt hjk)]
      exact hstops

theorem clear_take_iff {rs : List Registration} {k : Nat} :
    Clear (rs.take k) ↔ ∀ j < k, ∀ o, ¬Obstructed rs j o := by
  constructor
  · exact fun h j hj o ho => h j o (obstructed_take_iff.mpr ⟨hj, ho⟩)
  · intro h j o ho
    obtain ⟨hj, ho⟩ := obstructed_take_iff.mp ho
    exact h j hj o ho

theorem exists_first_obstructed {rs : List Registration} (h : ¬Clear rs) :
    ∃ k o, Obstructed rs k o ∧ Clear (rs.take k) := by
  classical
  have hsome : ∃ k o, Obstructed rs k o := by
    by_contra hnone
    exact h fun k o ho => hnone ⟨k, o, ho⟩
  obtain ⟨o, ho⟩ := Nat.find_spec hsome
  refine ⟨Nat.find hsome, o, ho, clear_take_iff.mpr fun j hj o' ho' => ?_⟩
  exact Nat.find_min hsome hj ⟨o', ho'⟩

/-- Registrations compose exactly if none of them is stopped. -/
theorem composes_iff_clear {rs : List Registration} :
    (∃ server, (compose rs).result = .ok server) ↔ Clear rs := by
  constructor
  · rintro ⟨server, hserver⟩
    by_contra hclear
    obtain ⟨k, o, ho, hfirst⟩ := exists_first_obstructed hclear
    obtain ⟨names, -, hcompose⟩ := compose_of_obstructed ho hfirst
    rw [hcompose] at hserver
    cases hserver
  · intro h
    obtain ⟨server, hcompose, -⟩ := compose_of_clear h
    exact ⟨server, by rw [hcompose]⟩

/-! ### Paths -/

/-- The paths that a registration adds. -/
def Registration.paths (r : Registration) : List String := r.services.map (·.path)

theorem map_path_flatMap (rs : List Registration) :
    (rs.flatMap Registration.services).map (·.path) = rs.flatMap Registration.paths :=
  List.map_flatMap

/-- No registration is stopped exactly if none fails and no path occurs twice. -/
theorem clear_iff {rs : List Registration} :
    Clear rs ↔ (∀ r ∈ rs, r.name?.isSome) ∧ (rs.flatMap Registration.paths).Nodup := by
  constructor
  · intro h
    obtain ⟨server, -, hnames, hservices⟩ := compose_of_clear h
    constructor
    · intro r hr
      have hname : r.name? ∈ server.names.map some := hnames ▸ List.mem_map_of_mem hr
      obtain ⟨name, -, hname⟩ := List.mem_map.mp hname
      rw [← hname, Option.isSome_some]
    · rw [← map_path_flatMap, ← hservices]
      exact server.routes.nodup_paths
  · rintro ⟨hnames, hpaths⟩ k o ⟨r, hr, hstops⟩
    obtain ⟨hk, rfl⟩ := List.getElem?_eq_some_iff.mp hr
    have hmem : rs[k] ∈ rs := List.getElem_mem hk
    generalize hx : rs[k] = x at hstops hmem
    cases hstops with
    | fails e => cases hnames _ hmem
    | @clash name services earlier later s t hs ht hpath =>
        have hsplit : rs.flatMap Registration.services =
            ((rs.take k).flatMap Registration.services ++ earlier) ++
              s :: (later ++ (rs.drop (k + 1)).flatMap Registration.services) := by
          conv_lhs => rw [← List.take_append_drop k rs, List.drop_eq_getElem_cons hk, hx]
          simp [Registration.services, hs]
        rw [← map_path_flatMap, hsplit, List.map_append, List.nodup_append] at hpaths
        exact hpaths.2.2 t.path (List.mem_map_of_mem ht) s.path (by simp) hpath

/-- Among registrations that add paths of their own or none at all, no path occurs twice exactly if none
of the former does. -/
theorem nodup_paths_iff {own rs : List Registration} (hown : (own.flatMap Registration.paths).Nodup)
    (hpaths : ∀ r ∈ own, r.paths ≠ []) (hrs : ∀ r ∈ rs, r ∈ own ∨ r.paths = []) :
    (rs.flatMap Registration.paths).Nodup ↔ ∀ r ∈ own, ¬List.Duplicate r rs := by
  obtain ⟨hnodup, hdisjoint⟩ := List.nodup_flatMap.mp hown
  have hsymm : Std.Symm (Function.onFun List.Disjoint Registration.paths) := ⟨fun _ _ h _ ha hb => h hb ha⟩
  simp only [List.nodup_flatMap, List.duplicate_iff_sublist]
  constructor
  · rintro ⟨-, hpairs⟩ r hr hsub
    obtain ⟨path, hpath⟩ := List.exists_mem_of_ne_nil _ (hpaths r hr)
    exact List.pairwise_iff_forall_sublist.mp hpairs hsub hpath hpath
  · intro honce
    constructor
    · intro r hr
      rcases hrs r hr with hr | hr
      · exact hnodup r hr
      · rw [hr]
        exact List.nodup_nil
    · refine List.pairwise_iff_forall_sublist.mpr fun {a b} hsub => ?_
      have ha := hrs a (hsub.subset (by simp))
      have hb := hrs b (hsub.subset (by simp))
      rcases ha with ha | ha
      · rcases hb with hb | hb
        · refine hdisjoint.forall ha hb ?_
          rintro rfl
          exact honce a ha hsub
        · change List.Disjoint a.paths b.paths
          rw [hb]
          exact fun _ _ h => absurd h List.not_mem_nil
      · change List.Disjoint a.paths b.paths
        rw [ha]
        exact fun _ h => absurd h List.not_mem_nil

/-! ### The registrations of pets, health and reflection -/

theorem Descriptor.Catalogue.isOk_ofSets_schema :
    (Catalogue.ofSets [encodeSet [Schema.pets], encodeSet [Schema.health],
      encodeSet [Schema.reflection]]).isOk = true := by
  obtain ⟨c, hc⟩ := exists_foldlM_addSet isFaultless_of_mem_schemas {}
  exact congrArg Except.isOk hc

namespace Registration

theorem reflection_eq : ∃ catalogue, reflection =
    .adds "grpc.reflection.v1.ServerReflection"
      [⟨"grpc.reflection.v1.ServerReflection", .reflection catalogue⟩] := by
  have hname : Schema.serviceName Schema.reflection = "grpc.reflection.v1.ServerReflection" := by
    decide +kernel
  have hsets := Descriptor.Catalogue.isOk_ofSets_schema
  rw [reflection, reflectionOver, hname, List.cons_append, List.cons_append, List.nil_append]
  generalize Descriptor.Catalogue.ofSets _ = catalogue at hsets ⊢
  cases catalogue with
  | error fault => cases hsets
  | ok catalogue => exact ⟨catalogue, rfl⟩

theorem health_eq : health = .adds "grpc.health.v1.Health" [⟨"grpc.health.v1.Health", .health⟩] := by
  have hname : Schema.serviceName Schema.health = "grpc.health.v1.Health" := by decide +kernel
  rw [health, hname]
  rfl

theorem pets_eq : pets = .adds "pet.v1.PetStoreService" [⟨"pet.v1.PetStoreService", .pets⟩] := by
  have hname : Schema.serviceName Schema.pets = "pet.v1.PetStoreService" := by decide +kernel
  rw [pets, hname]
  rfl

theorem map_name?_standard : standard.map name? =
    ["grpc.reflection.v1.ServerReflection", "grpc.health.v1.Health",
      "pet.v1.PetStoreService"].map some := by
  obtain ⟨catalogue, hreflection⟩ := reflection_eq
  rw [standard, hreflection, health_eq, pets_eq]
  rfl

theorem map_paths_standard : standard.map paths =
    [["grpc.reflection.v1.ServerReflection"], ["grpc.health.v1.Health"],
      ["pet.v1.PetStoreService"]] := by
  obtain ⟨catalogue, hreflection⟩ := reflection_eq
  rw [standard, hreflection, health_eq, pets_eq]
  rfl

theorem isSome_name?_of_mem_standard {r : Registration} (hr : r ∈ standard) : r.name?.isSome := by
  have hname : r.name? ∈ standard.map name? := List.mem_map_of_mem hr
  rw [map_name?_standard] at hname
  obtain ⟨name, -, hname⟩ := List.mem_map.mp hname
  rw [← hname, Option.isSome_some]

theorem paths_ne_nil_of_mem_standard {r : Registration} (hr : r ∈ standard) : r.paths ≠ [] := by
  have hpaths : r.paths ∈ standard.map paths := List.mem_map_of_mem hr
  rw [map_paths_standard] at hpaths
  rintro hnil
  rw [hnil] at hpaths
  simp at hpaths

theorem nodup_paths_standard : (standard.flatMap paths).Nodup := by
  rw [List.flatMap, map_paths_standard]
  decide

end Registration

theorem exists_composed_standard : ∃ server, (compose Registration.standard).result = .ok server ∧
    server.names = ["grpc.reflection.v1.ServerReflection", "grpc.health.v1.Health",
      "pet.v1.PetStoreService"] ∧
    server.routes.services = Registration.standard.flatMap Registration.services := by
  have hclear : Clear Registration.standard :=
    clear_iff.mpr ⟨fun _ => Registration.isSome_name?_of_mem_standard, Registration.nodup_paths_standard⟩
  obtain ⟨server, hcompose, hnames, hservices⟩ := compose_of_clear hclear
  rw [Registration.map_name?_standard] at hnames
  have hresult : (compose Registration.standard).result = .ok server := by
    rw [hcompose]
  exact ⟨server, hresult, List.map_injective_iff.mpr (fun _ _ => Option.some.inj) hnames, hservices⟩

/-- **A composition runs up to its first obstacle.** The registrations up to the first one that is stopped
run in order, each once, and none behind it; what stopped it is the outcome. If none is stopped, all
run in order, the server has their names in order, and its routes are the services that they add. Of
the registrations of pets, health and reflection, with others that only have a name, those lists
compose in which none of the three is repeated. -/
theorem compose_first_obstacle (rs : List Registration) :
    (∀ k o, Obstructed rs k o → (∀ j < k, ∀ o', ¬Obstructed rs j o') →
      (compose rs).tried = rs.take (k + 1) ∧ (compose rs).result = .error o ∧
        (compose rs).registered.map some = (rs.take k).map Registration.name?) ∧
    ((∀ k o, ¬Obstructed rs k o) →
      (compose rs).tried = rs ∧ ∃ server, (compose rs).result = .ok server ∧
        server.names.length = rs.length ∧ server.names.map some = rs.map Registration.name? ∧
        server.routes.services = rs.flatMap Registration.services) ∧
    ((∀ r ∈ rs, r ∈ Registration.standard ∨ ∃ name, r = .named name) →
      ((∃ server, (compose rs).result = .ok server) ↔
        ∀ r ∈ Registration.standard, ¬List.Duplicate r rs)) := by
  refine ⟨fun k o ho hfirst => ?_, fun h => ?_, fun hrs => ?_⟩
  · obtain ⟨names, hnames, hcompose⟩ := compose_of_obstructed ho (clear_take_iff.mpr hfirst)
    rw [hcompose]
    exact ⟨rfl, rfl, hnames⟩
  · obtain ⟨server, hcompose, hnames, hservices⟩ := compose_of_clear h
    have hlength := congrArg List.length hnames
    rw [List.length_map, List.length_map] at hlength
    rw [hcompose]
    exact ⟨rfl, server, rfl, hlength, hnames, hservices⟩
  · have hnames : ∀ r ∈ rs, r.name?.isSome := by
      intro r hr
      rcases hrs r hr with hr | ⟨name, rfl⟩
      · exact Registration.isSome_name?_of_mem_standard hr
      · rfl
    have hpaths : ∀ r ∈ rs, r ∈ Registration.standard ∨ r.paths = [] := by
      intro r hr
      rcases hrs r hr with hr | ⟨name, rfl⟩
      · exact .inl hr
      · exact .inr rfl
    rw [composes_iff_clear, clear_iff, and_iff_right hnames]
    exact nodup_paths_iff Registration.nodup_paths_standard
      (fun _ => Registration.paths_ne_nil_of_mem_standard) hpaths

/-- Health twice, with a name between and a failure behind. -/
def repeatedHealth : List Registration :=
  [.health, .named "first", .health, .fails (.invalidPort (-1))]

/-- The second time health is registered, the composition is aborted, before the failure behind it. -/
theorem compose_first_obstacle_repeatedHealth :
    Obstructed repeatedHealth 2 .clash ∧ (∀ j < 2, ∀ o, ¬Obstructed repeatedHealth j o) ∧
      (compose repeatedHealth).tried = [.health, .named "first", .health] ∧
      (compose repeatedHealth).result = .error .clash := by
  have hlast : Obstructed repeatedHealth 2 .clash := by
    refine ⟨.health, rfl, ?_⟩
    rw [Registration.health_eq]
    exact .clash (t := ⟨"grpc.health.v1.Health", .health⟩) (show [_] = [] ++ _ :: [] from rfl)
      (by simp [repeatedHealth, Registration.health_eq, Registration.services]) rfl
  have hfirst : Clear (repeatedHealth.take 2) := by
    have hpaths : (repeatedHealth.take 2).flatMap Registration.paths = ["grpc.health.v1.Health"] := by
      simp [repeatedHealth, Registration.health_eq, Registration.paths, Registration.services,
        Registration.named]
    rw [clear_iff, hpaths]
    refine ⟨?_, by decide⟩
    simp [repeatedHealth, Registration.health_eq, Registration.named, Registration.name?]
  rw [clear_take_iff] at hfirst
  obtain ⟨htried, hresult, -⟩ := (compose_first_obstacle repeatedHealth).1 2 _ hlast hfirst
  exact ⟨hlast, hfirst, htried, hresult⟩

end Menagerie
