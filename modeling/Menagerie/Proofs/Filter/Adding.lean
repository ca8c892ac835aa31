import Menagerie.Proofs.Filter.Specificity

/-! Directives that are added one after the other. After every step a set is sorted, it has one entry for each key
that was added, which is the last directive added with that key, and its greatest level is the greatest one that
was ever added. That says all about a set, so that directives with different keys can be added in any order. The
place of a directive can be found by halving, because the entries are sorted. -/

namespace Menagerie

theorem Threshold.max_eq_or (s t : Threshold) : s.max t = s ∨ s.max t = t := by
  unfold Threshold.max
  split
  · exact .inr rfl
  · exact .inl rfl

namespace Filter

namespace DirectiveSet

open Ranked Std

theorem exists_front {α : Type} {e : α} {es back : List α} {n : Nat} (hdrop : es.drop n = e :: back) :
    ∃ front, es.take n = front ∧ es = front ++ e :: back :=
  ⟨es.take n, rfl, by rw [← hdrop, List.take_append_drop]⟩

variable {α : Type} [Ranked α]

/-! ### The place of a directive -/

/-- Puts a directive in its place by a look at the entry in the middle, and then at that of the half in which the
place must be. -/
def insertByHalving (d : α) (es : List α) : List α :=
  match _hdrop : es.drop (es.length / 2) with
  | [] => [d]
  | e :: back =>
    match order d e with
    | .gt => insertByHalving d (es.take (es.length / 2)) ++ e :: back
    | .eq => es.take (es.length / 2) ++ d :: back
    | .lt => es.take (es.length / 2) ++ e :: insertByHalving d back
  termination_by es.length
  decreasing_by
    all_goals
      have hlength := congrArg List.length _hdrop
      simp only [List.length_drop, List.length_cons, List.length_take] at hlength ⊢
      omega

section

variable {d e : α} {es front back : List α}

/-- What stands behind a less specific entry stays there. -/
theorem insertEntry_append_of_gt (h : order d e = .gt) :
    insertEntry d (front ++ e :: back) = insertEntry d front ++ e :: back := by
  induction front with
  | nil => simp [insertEntry, h]
  | cons first front ih =>
      rw [List.cons_append, insertEntry, insertEntry]
      cases order d first with
      | gt => rfl
      | eq => rfl
      | lt => exact congrArg (first :: ·) ih

/-- More specific entries stay in front. -/
theorem insertEntry_append_of_lt (h : ∀ x ∈ front, order d x = .lt) :
    insertEntry d (front ++ back) = front ++ insertEntry d back := by
  induction front with
  | nil => rfl
  | cons first front ih =>
      rw [List.cons_append, insertEntry, h first List.mem_cons_self]
      exact congrArg (first :: ·) (ih fun x hx => h x (List.mem_cons_of_mem first hx))

variable [TransCmp (order : α → α → Ordering)]

theorem Sorted.order_eq_lt (h : Sorted (front ++ e :: back)) (hle : order d e ≠ .gt) :
    ∀ x ∈ front, order d x = .lt := by
  intro x hx
  have hmore : order x e = .gt := (List.pairwise_append.mp h).2.2 x hx e List.mem_cons_self
  have hless : order e x = .lt := OrientedCmp.gt_iff_lt.mp hmore
  cases horder : order d e with
  | lt => exact TransCmp.lt_trans horder hless
  | eq => rw [TransCmp.congr_left horder, hless]
  | gt => exact absurd horder hle

/-- A directive takes the place of the entry with its key, and no other entry moves. -/
theorem insertEntry_of_eq (h : Sorted (front ++ e :: back)) (horder : order d e = .eq) :
    insertEntry d (front ++ e :: back) = front ++ d :: back := by
  have hfront := h.order_eq_lt (d := d) (by simp [horder])
  rw [insertEntry_append_of_lt hfront, insertEntry, horder]

theorem insertEntry_of_lt (h : Sorted (front ++ e :: back)) (horder : order d e = .lt) :
    insertEntry d (front ++ e :: back) = front ++ e :: insertEntry d back := by
  have hfront := h.order_eq_lt (d := d) (by simp [horder])
  rw [insertEntry_append_of_lt hfront, insertEntry, horder]

/-- Halving finds the place that is found by a look at one entry after the other, if the entries are sorted. -/
theorem insertByHalving_eq (h : Sorted es) (d : α) : insertByHalving d es = insertEntry d es := by
  fun_induction insertByHalving d es with
  | case1 es hdrop =>
      have hlength : es.length ≤ es.length / 2 := List.drop_eq_nil_iff.mp hdrop
      obtain rfl : es = [] := List.eq_nil_of_length_eq_zero (by omega)
      rfl
  | case2 es e back hdrop horder ih =>
      obtain ⟨front, hfront, rfl⟩ := exists_front hdrop
      rw [hfront] at ih ⊢
      rw [ih (List.pairwise_append.mp h).1, insertEntry_append_of_gt horder]
  | case3 es e back hdrop horder =>
      obtain ⟨front, hfront, rfl⟩ := exists_front hdrop
      rw [hfront, insertEntry_of_eq h horder]
  | case4 es e back hdrop horder ih =>
      obtain ⟨front, hfront, rfl⟩ := exists_front hdrop
      have hback : Sorted back := (List.pairwise_cons.mp (List.pairwise_append.mp h).2.1).2
      rw [hfront, ih hback, insertEntry_of_lt h horder]

end

/-! ### What a set keeps -/

/-- What a set keeps of the directives that were added to it, in this order. -/
structure Keeps (s : DirectiveSet α) (added : List α) : Prop where
  /-- Every entry is more specific than those behind it. -/
  sorted : Sorted s.entries
  /-- Halving finds the place of any further directive. -/
  place : ∀ d, insertByHalving d s.entries = insertEntry d s.entries
  /-- Every key that was added has one entry. -/
  one : ∀ d ∈ added, ∃! e, e ∈ s.entries ∧ order e d = .eq
  /-- The entries are the directives that were the last ones added with their keys. -/
  last : ∀ e, e ∈ s.entries ↔ (added.filter (order · e = .eq)).getLast? = some e
  /-- Nothing that was added is more verbose than the greatest level, and so no entry is. -/
  bounds : ∀ d ∈ added, (level d).rank ≤ s.maxLevel.rank
  covers : ∀ e ∈ s.entries, (level e).rank ≤ s.maxLevel.rank
  /-- The greatest level is that of a directive that was added, if there is one. -/
  reaches : s.maxLevel = .off ∨ ∃ d ∈ added, level d = s.maxLevel

namespace Keeps

variable {s s' : DirectiveSet α} {added added' : List α} {d e : α}

/-- The greatest level does not become less by more directives. -/
theorem rank_maxLevel_le (h : s.Keeps added) (h' : s'.Keeps added') (hsub : added ⊆ added') :
    s.maxLevel.rank ≤ s'.maxLevel.rank := by
  rcases h.reaches with hoff | ⟨d, hd, hlevel⟩
  · rw [hoff]
    exact Nat.zero_le _
  · rw [← hlevel]
    exact h'.bounds d (hsub hd)

variable [TransCmp (order : α → α → Ordering)]

theorem filter_congr (h : order d e = .eq) (added : List α) :
    added.filter (order · d = .eq) = added.filter (order · e = .eq) := by
  apply List.filter_congr
  intro x _
  rw [TransCmp.congr_right h]

theorem mem_filter_self (hd : d ∈ added) : d ∈ added.filter (order · d = .eq) :=
  List.mem_filter.mpr ⟨hd, decide_eq_true ReflCmp.compare_self⟩

theorem of_last (hsorted : Sorted s.entries)
    (hlast : ∀ e, e ∈ s.entries ↔ (added.filter (order · e = .eq)).getLast? = some e)
    (hbounds : ∀ d ∈ added, (level d).rank ≤ s.maxLevel.rank)
    (hreaches : s.maxLevel = .off ∨ ∃ d ∈ added, level d = s.maxLevel) : s.Keeps added where
  sorted := hsorted
  place := insertByHalving_eq hsorted
  one := by
    intro d hd
    have hne : added.filter (order · d = .eq) ≠ [] := List.ne_nil_of_mem (mem_filter_self hd)
    obtain ⟨e, he⟩ := Option.isSome_iff_exists.mp (List.getLast?_isSome.mpr hne)
    have hkey : order e d = .eq := of_decide_eq_true (List.mem_filter.mp (List.mem_of_getLast? he)).2
    have hmem : e ∈ s.entries := by
      rw [hlast, filter_congr hkey, he]
    refine ⟨e, ⟨hmem, hkey⟩, ?_⟩
    rintro x ⟨hx, hxkey⟩
    exact hsorted.eq_of_order_eq hx hmem (TransCmp.eq_trans hxkey (OrientedCmp.eq_symm hkey))
  last := hlast
  bounds := hbounds
  covers := fun e he => hbounds e (List.mem_of_mem_filter (List.mem_of_getLast? ((hlast e).mp he)))
  reaches := hreaches

theorem empty : Keeps ({} : DirectiveSet α) [] :=
  of_last List.Pairwise.nil (fun e => by simp) nofun (.inl rfl)

/-- One more directive takes the place of an earlier one with its key, and all other entries stay. -/
theorem add (h : s.Keeps added) (d : α) : (s.add d).Keeps (added ++ [d]) := by
  apply of_last
  · exact sorted_insertEntry h.sorted d
  · intro e
    rw [DirectiveSet.add, mem_insertEntry h.sorted, h.last, List.filter_append]
    by_cases hkey : order d e = .eq
    -- With the key of `e` the new directive is the last one, whatever came before.
    · simp [hkey, eq_comm]
    · have hne : e ≠ d := by
        rintro rfl
        exact hkey ReflCmp.compare_self
      simp [hkey, hne]
  · intro x hx
    rw [DirectiveSet.add, Threshold.rank_max]
    rcases List.mem_append.mp hx with hx | hx
    · exact Nat.le_trans (h.bounds x hx) (Nat.le_max_left ..)
    · obtain rfl := List.mem_singleton.mp hx
      exact Nat.le_max_right ..
  · rw [DirectiveSet.add]
    rcases Threshold.max_eq_or s.maxLevel (level d) with hmax | hmax
    · rw [hmax]
      rcases h.reaches with hoff | ⟨x, hx, hlevel⟩
      · exact .inl hoff
      · exact .inr ⟨x, List.mem_append_left _ hx, hlevel⟩
    · rw [hmax]
      exact .inr ⟨d, List.mem_append_right _ List.mem_cons_self, rfl⟩

theorem ofList (added : List α) : (DirectiveSet.ofList added).Keeps added := by
  induction added using List.reverseRecOn with
  | nil => exact empty
  | append_singleton added d ih =>
      rw [ofList_concat]
      exact ih.add d

/-- Sets are the same if every key was added to both with the same directives in the same order. -/
theorem eq_of_filter_eq (h : s.Keeps added) (h' : s'.Keeps added')
    (hsame : ∀ e, added'.filter (order · e = .eq) = added.filter (order · e = .eq)) : s' = s := by
  have hmem : ∀ d, d ∈ added' ↔ d ∈ added := by
    intro d
    constructor
    · exact fun hd => List.mem_of_mem_filter (hsame d ▸ mem_filter_self hd)
    · exact fun hd => List.mem_of_mem_filter ((hsame d).symm ▸ mem_filter_self hd)
  have hentries : s'.entries = s.entries := by
    apply h'.sorted.eq_of_mem_iff h.sorted
    intro e
    rw [h'.last, h.last, hsame]
  have hlevel : s'.maxLevel = s.maxLevel := by
    apply Threshold.eq_of_rank_eq
    apply Nat.le_antisymm
    · exact h'.rank_maxLevel_le h fun d => (hmem d).mp
    · exact h.rank_maxLevel_le h' fun d => (hmem d).mpr
  cases s
  cases s'
  rw [mk.injEq]
  exact ⟨hentries, hlevel⟩

end Keeps

variable [TransCmp (order : α → α → Ordering)] {ds ds' : List α}

/-- If no two directives have the same key, at most one has a given key. -/
theorem filter_eq_of_perm (hperm : ds'.Perm ds) (hdistinct : ds.Pairwise fun d e => order d e ≠ .eq) (e : α) :
    ds'.filter (order · e = .eq) = ds.filter (order · e = .eq) := by
  have hfilter := hperm.filter (order · e = .eq)
  cases hds : ds.filter (order · e = .eq) with
  | nil =>
      rw [hds] at hfilter
      exact hfilter.eq_nil
  | cons x rest =>
      cases rest with
      | nil =>
          rw [hds] at hfilter
          exact List.perm_singleton.mp hfilter
      | cons y rest =>
          -- Two directives with the key of `e` would have the same key.
          have hpair := hdistinct.filter (order · e = .eq)
          have hkey : ∀ z ∈ x :: y :: rest, order z e = .eq := by
            intro z hz
            rw [← hds] at hz
            exact of_decide_eq_true (List.mem_filter.mp hz).2
          rw [hds] at hpair
          have hxy := TransCmp.eq_trans (hkey x (by simp)) (OrientedCmp.eq_symm (hkey y (by simp)))
          exact absurd hxy ((List.pairwise_cons.mp hpair).1 y List.mem_cons_self)

theorem ofList_eq_of_perm (hperm : ds'.Perm ds) (hdistinct : ds.Pairwise fun d e => order d e ≠ .eq) :
    ofList ds' = ofList ds :=
  (Keeps.ofList ds).eq_of_filter_eq (Keeps.ofList ds') (filter_eq_of_perm hperm hdistinct)

end DirectiveSet

end Filter

namespace LogFilter

open Menagerie.Filter

variable {ds ds' : List Directive}

/-! ### The sets of a filter -/

theorem isSome_field_of_static? {d : Directive} {s : StaticDirective} (h : d.static? = some s) :
    s.field.isSome = d.isDynamic := by
  unfold Directive.static? at h
  split at h
  · cases h
  · next hnone =>
      obtain rfl := Option.some.inj h
      obtain ⟨hspan, -⟩ := Bool.or_eq_false_iff.mp (Bool.eq_false_iff.mpr hnone)
      rw [Directive.isDynamic, hspan, Option.isSome_map, Bool.false_or]

/-- A key is that of dynamic directives only, or that of none. -/
theorem isDynamic_of_order_eq {d : Directive} {s x : StaticDirective} (hs : d.static? = some s)
    (hkey : Ranked.order s x = .eq) : d.isDynamic = x.field.isSome := by
  rw [← isSome_field_of_static? hs, (StaticDirective.order_eq_eq_iff.mp hkey).2]

/-- Directives that are left out make no difference for a key if none of them can have it. -/
theorem filter_filterMap_static? {p : Directive → Bool} {x : StaticDirective}
    (hp : ∀ d, d.isDynamic = x.field.isSome → p d = true) :
    ((ds.filter p).filterMap Directive.static?).filter (Ranked.order · x = .eq) =
      (ds.filterMap Directive.static?).filter (Ranked.order · x = .eq) := by
  rw [List.filter_filterMap, List.filterMap_filter, List.filter_filterMap]
  apply List.filterMap_congr
  intro d _
  by_cases hd : p d = true
  · rw [if_pos hd]
  · rw [if_neg hd, eq_comm, Option.filter_eq_none_iff]
    intro s hs hkey
    exact hd (hp d (isDynamic_of_order_eq hs (of_decide_eq_true hkey)))

theorem filter_filterMap_static?_eq_nil {p : Directive → Bool} {x : StaticDirective}
    (hp : ∀ d, p d = true → d.isDynamic ≠ x.field.isSome) :
    ((ds.filter p).filterMap Directive.static?).filter (Ranked.order · x = .eq) = [] := by
  rw [List.filter_eq_nil_iff]
  intro s hs hkey
  obtain ⟨d, hd, hs⟩ := List.mem_filterMap.mp hs
  exact hp d (List.mem_filter.mp hd).2 (isDynamic_of_order_eq hs (of_decide_eq_true hkey))

/-- Whether the static directives of dynamic ones are added last or in their places makes no difference for a key. -/
theorem filter_staticsOf (ds : List Directive) (x : StaticDirective) :
    (staticsOf ds).filter (Ranked.order · x = .eq) =
      (ds.filterMap Directive.static?).filter (Ranked.order · x = .eq) := by
  rw [staticsOf, List.filter_append]
  cases hx : x.field.isSome with
  | false =>
      rw [filter_filterMap_static?, filter_filterMap_static?_eq_nil, List.append_nil]
      · simp [hx]
      · simp [hx]
  | true =>
      rw [filter_filterMap_static?_eq_nil, filter_filterMap_static?, List.nil_append]
      · simp [hx]
      · simp [hx]

/-- Both sets are as if the directives were added one after the other. -/
theorem ofDirectives_eq (ds : List Directive) :
    ofDirectives ds = ⟨.ofList (ds.filterMap Directive.static?), .ofList (ds.filter (·.isDynamic))⟩ := by
  have hstatics : DirectiveSet.ofList (staticsOf ds) = .ofList (ds.filterMap Directive.static?) :=
    (DirectiveSet.Keeps.ofList _).eq_of_filter_eq (DirectiveSet.Keeps.ofList _) (filter_staticsOf ds)
  rw [← hstatics, ← statics_ofDirectives, ← dynamics_ofDirectives]

theorem keeps_statics (ds : List Directive) : (ofDirectives ds).statics.Keeps (ds.filterMap Directive.static?) := by
  rw [ofDirectives_eq]
  exact .ofList _

theorem keeps_dynamics (ds : List Directive) : (ofDirectives ds).dynamics.Keeps (ds.filter (·.isDynamic)) := by
  rw [ofDirectives_eq]
  exact .ofList _

section

variable (hvalue : ∀ d ∈ ds, d.hasValue = false)
include hvalue

theorem static?_order_eq_iff {d e : Directive} {s x : StaticDirective} (hd : d ∈ ds) (he : e ∈ ds)
    (hs : d.static? = some s) (hx : e.static? = some x) : Ranked.order s x = .eq ↔ d.SameKey e := by
  rw [StaticDirective.order_eq_iff_sameKey, (Directive.static?_eq_some_iff (hvalue d hd)).mp hs,
    (Directive.static?_eq_some_iff (hvalue e he)).mp hx]

theorem ofDirectives_eq_of_perm (hdistinct : ds.Pairwise fun d e => ¬d.SameKey e) (hperm : ds'.Perm ds) :
    ofDirectives ds' = ofDirectives ds := by
  rw [ofDirectives_eq, ofDirectives_eq, mk.injEq]
  constructor
  · apply DirectiveSet.ofList_eq_of_perm (hperm.filterMap _)
    rw [List.pairwise_filterMap]
    apply hdistinct.imp_of_mem
    intro d e hd he hne s hs x hx hkey
    exact hne ((static?_order_eq_iff hvalue hd he hs hx).mp hkey)
  · apply DirectiveSet.ofList_eq_of_perm (hperm.filter _)
    apply List.Pairwise.filter
    apply hdistinct.imp_of_mem
    intro d e hd he hne hkey
    exact hne ((Directive.order_eq_eq_iff (hvalue d hd) (hvalue e he)).mp hkey)

end

/-- **A filter keeps the last directive of each key.** Whatever is added to a set, one directive after the other, the
set keeps it. So do both sets of a filter that is read as directives without values, with each initial part of
them: the static one keeps what they say about events in any span, the dynamic one those that speak of spans or
fields, and no greatest level ever becomes less. The directives that compare as equal are those with the same target,
span and field. If there are no such two, their order makes no difference. -/
theorem sets_keep_last (ds : List Directive) (hvalue : ∀ d ∈ ds, d.hasValue = false) :
    (∀ added : List StaticDirective, (DirectiveSet.ofList added).Keeps added) ∧
    (∀ added : List Directive, (DirectiveSet.ofList added).Keeps added) ∧
    (∀ text, (pieces text).mapM Directive.read = .ok ds → read text = .ok (ofDirectives ds)) ∧
    (∀ earlier, earlier <+: ds →
      (ofDirectives earlier).statics.Keeps (earlier.filterMap Directive.static?) ∧
      (ofDirectives earlier).dynamics.Keeps (earlier.filter (·.isDynamic)) ∧
      (ofDirectives earlier).statics.maxLevel.rank ≤ (ofDirectives ds).statics.maxLevel.rank ∧
      (ofDirectives earlier).dynamics.maxLevel.rank ≤ (ofDirectives ds).dynamics.maxLevel.rank) ∧
    (∀ d ∈ ds, ∀ e ∈ ds, (Ranked.order d e = .eq ↔ d.SameKey e) ∧
      ∀ s ∈ d.static?, ∀ x ∈ e.static?, Ranked.order s x = .eq ↔ d.SameKey e) ∧
    (ds.Pairwise (fun d e => ¬d.SameKey e) → ∀ ds', ds'.Perm ds → ofDirectives ds' = ofDirectives ds) := by
  refine ⟨.ofList, .ofList, fun text hread => read_eq_ok_iff.mpr ⟨ds, hread, rfl⟩,
    fun earlier hearlier => ⟨keeps_statics earlier, keeps_dynamics earlier, ?_, ?_⟩,
    fun d hd e he => ⟨Directive.order_eq_eq_iff (hvalue d hd) (hvalue e he), fun s hs x hx => ?_⟩, ?_⟩
  · exact (keeps_statics earlier).rank_maxLevel_le (keeps_statics ds) (hearlier.filterMap _).subset
  · exact (keeps_dynamics earlier).rank_maxLevel_le (keeps_dynamics ds) (hearlier.filter _).subset
  · exact static?_order_eq_iff hvalue hd he hs hx
  · exact fun hdistinct ds' hperm => ofDirectives_eq_of_perm hvalue hdistinct hperm

/-- A field of any span, a span of a target, and all events of that target twice. -/
def repeating : List Directive :=
  [{ target := some "tonic", level := .trace }, { field := some { name := "pet_id" }, level := .debug },
    { target := some "tonic", span := some "run", level := .info }, { target := some "tonic", level := .error }]

/-- Of the two directives about the target the last one stays, and the level of the first one is remembered. What is
wanted of any span is in both sets. Without the last directive all keys are different, and the order is free. -/
theorem sets_keep_last_repeating :
    (∀ d ∈ repeating, d.hasValue = false) ∧
      read "tonic=trace,[\x7bpet_id\x7d]=debug,tonic[run]=info,tonic=error" = .ok (ofDirectives repeating) ∧
      { target := some "tonic", level := .error } ∈ (ofDirectives repeating).statics.entries ∧
      { target := some "tonic", level := .trace } ∉ (ofDirectives repeating).statics.entries ∧
      { field := some "pet_id", level := .debug } ∈ (ofDirectives repeating).statics.entries ∧
      { field := some { name := "pet_id" }, level := .debug } ∈ (ofDirectives repeating).dynamics.entries ∧
      Threshold.trace.rank ≤ (ofDirectives repeating).statics.maxLevel.rank ∧
      (ofDirectives (repeating.take 3)).dynamics.maxLevel.rank ≤ (ofDirectives repeating).dynamics.maxLevel.rank ∧
      (repeating.take 3).Pairwise (fun d e => ¬d.SameKey e) ∧
      ofDirectives (repeating.take 3).reverse = ofDirectives (repeating.take 3) := by
  have hvalue : ∀ d ∈ repeating, d.hasValue = false := by decide
  have hdistinct : (repeating.take 3).Pairwise fun d e => ¬d.SameKey e := by decide
  obtain ⟨-, -, hread, hstages, -, -⟩ := sets_keep_last repeating hvalue
  obtain ⟨hstatics, hdynamics, -, -⟩ := hstages repeating (List.prefix_refl _)
  obtain ⟨-, -, -, hless⟩ := hstages (repeating.take 3) (List.take_prefix 3 _)
  obtain ⟨-, -, -, -, -, hperm⟩ := sets_keep_last (repeating.take 3) fun d hd => hvalue d (List.mem_of_mem_take hd)
  refine ⟨hvalue, hread _ (by decide +kernel), (hstatics.last _).mpr (by decide +kernel), ?_,
    (hstatics.last _).mpr (by decide +kernel), (hdynamics.last _).mpr (by decide +kernel), ?_, hless, hdistinct,
    hperm hdistinct _ (List.reverse_perm _)⟩
  · rw [hstatics.last]
    decide +kernel
  · exact hstatics.bounds { target := some "tonic", level := .trace } (by decide)

end LogFilter

end Menagerie
