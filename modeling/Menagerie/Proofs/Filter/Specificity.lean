import Mathlib.Data.List.Sort
import Menagerie.Proofs.Filter.Plain

/-! The order of dynamic directives, and what a filter shows of itself. A static directive that wants a value is
also a dynamic one, so that it is shown twice; both sets keep the same one of several with its key. Adding what is
shown to empty sets gives the same sets again, but not always the same greatest level: a directive that another
one has replaced is not shown any more. -/

namespace Menagerie

theorem Threshold.eq_of_rank_eq {s t : Threshold} (h : s.rank = t.rank) : s = t := by
  revert h
  cases s <;> cases t <;> decide

namespace Filter

/-! ### The order of dynamic directives -/

namespace WantedValue

/-- Where a truth value or a number stands among those of its kind. -/
def numberKey : WantedValue → Int
  | flag b => b.toNat
  | fraction x => x.place
  | unsigned n => n.toNat
  | signed n => n.toInt
  | notANumber | pattern _ => 0

/-- Where a pattern stands among the patterns. -/
def textKey : WantedValue → String
  | pattern s => s
  | _ => ""

theorem compare_natCast (m n : Nat) : compare (m : Int) n = compare m n := by
  simp only [compare, compareOfLessAndEq, Int.ofNat_lt, Int.ofNat_inj]

theorem order_eq_compareLex : order =
    compareLex (compareOn kindRank) (compareLex (compareOn numberKey) (compareOn textKey)) := by
  funext v w
  cases v <;> cases w <;>
    simp [order, compareLex, compareOn, kindRank, numberKey, textKey, compare_natCast] <;> rfl

instance : Ord WantedValue := ⟨order⟩

instance : Std.TransOrd WantedValue := by
  have h : Std.TransCmp order := by
    rw [order_eq_compareLex]
    infer_instance
  exact h

end WantedValue

namespace FieldMatch

theorem orderValues_eq_compare : orderValues = compare := by
  funext v w
  cases v <;> cases w <;> rfl

theorem order_eq_compareLex : order =
    compareLex (compareOn fun m : FieldMatch => m.value.isSome.toNat)
      (compareLex (compareOn (·.name)) (compareOn (·.value))) := by
  funext m n
  simp only [order, orderValues_eq_compare, compareLex, compareOn]

instance : Ord FieldMatch := ⟨order⟩

instance : Std.TransOrd FieldMatch := by
  have h : Std.TransCmp order := by
    rw [order_eq_compareLex]
    infer_instance
  exact h

/-- Without values only the names count. -/
theorem order_eq_eq_iff {m n : FieldMatch} (hm : m.value = none) (hn : n.value = none) :
    order m n = .eq ↔ m = n := by
  obtain ⟨name, value⟩ := m
  obtain ⟨name', value'⟩ := n
  obtain rfl : value = none := hm
  obtain rfl : value' = none := hn
  simp [order, orderValues]

end FieldMatch

namespace Directive

theorem order_eq_compareLex : order =
    compareLex (compareOn fun d : Directive => targetLength d.target)
      (compareLex (compareOn fun d => d.span.isSome.toNat)
        (compareLex (compareOn fun d => d.field.isSome.toNat)
          (compareLex (compareOn (·.target)) (compareLex (compareOn (·.span)) (compareOn (·.field)))))) := by
  have hfield : orderOption FieldMatch.order = compare := orderOption_compare
  funext d e
  simp only [order, orderOption_compare, hfield, compareLex, compareOn]

instance : Std.TransCmp order := by
  rw [order_eq_compareLex]
  infer_instance

instance : Std.TransCmp (Ranked.order : Directive → Directive → Ordering) :=
  inferInstanceAs (Std.TransCmp order)

/-- Two directives speak of the same target, span and field. -/
def SameKey (d e : Directive) : Prop := d.target = e.target ∧ d.span = e.span ∧ d.field = e.field

instance (d e : Directive) : Decidable (SameKey d e) :=
  inferInstanceAs (Decidable (_ ∧ _ ∧ _))

theorem value_eq_none {d : Directive} (h : d.hasValue = false) : ∀ m ∈ d.field, m.value = none := by
  intro m hm
  rw [hasValue, Option.mem_def.mp hm] at h
  exact Option.not_isSome_iff_eq_none.mp (Bool.eq_false_iff.mp h)

/-- Without values only target, span and field count. -/
theorem order_eq_eq_iff {d e : Directive} (hd : d.hasValue = false) (he : e.hasValue = false) :
    Ranked.order d e = .eq ↔ SameKey d e := by
  have hfield : orderOption FieldMatch.order d.field e.field = .eq ↔ d.field = e.field := by
    have hd := value_eq_none hd
    have he := value_eq_none he
    cases hm : d.field with
    | none => cases e.field <;> simp [orderOption]
    | some m =>
        cases hn : e.field with
        | none => simp [orderOption]
        | some n =>
            rw [Option.some.injEq]
            exact FieldMatch.order_eq_eq_iff (hd m hm) (he n hn)
  show order d e = .eq ↔ _
  simp only [order, orderOption_compare, Ordering.then_eq_eq, Std.LawfulEqOrd.compare_eq_iff_eq, hfield, SameKey]
  constructor
  · exact fun h => h.2.2.2
  · rintro ⟨htarget, hspan, hfield⟩
    rw [htarget, hspan, hfield]
    exact ⟨rfl, rfl, rfl, rfl, rfl, rfl⟩

end Directive

/-! ### Sets with the same entries -/

namespace DirectiveSet

open Ranked Std

variable {α : Type} [Ranked α]

theorem rank_maxLevel_ofList_le_iff {ds : List α} {n : Nat} :
    (ofList ds).maxLevel.rank ≤ n ↔ ∀ d ∈ ds, (level d).rank ≤ n := by
  induction ds using List.reverseRecOn with
  | nil => exact iff_of_true (Nat.zero_le n) nofun
  | append_singleton ds last ih =>
      rw [ofList_concat, add, Threshold.rank_max, Nat.max_le, ih, List.forall_mem_append, List.forall_mem_singleton]

variable [TransCmp (order : α → α → Ordering)]

/-- The order of entries leaves no choice. -/
theorem Sorted.eq_of_mem_iff {es es' : List α} (h : Sorted es) (h' : Sorted es') (hmem : ∀ e, e ∈ es ↔ e ∈ es') :
    es = es' := by
  have hirrefl : Std.Irrefl fun d e : α => order d e = .gt := by
    refine ⟨fun d h => ?_⟩
    have hself : order d d = .eq := ReflCmp.compare_self
    rw [hself] at h
    cases h
  have hantisymm : Std.Antisymm fun d e : α => order d e = .gt :=
    ⟨fun d e h h' => absurd h' (OrientedCmp.not_gt_of_gt h)⟩
  exact List.Pairwise.eq_of_mem_iff h h' hmem

/-- Directives that are the entries of a set, in any order and any number, are its entries again when they are
added to an empty one. -/
theorem entries_ofList_eq {ds es : List α} (hsorted : Sorted es) (hmem : ∀ e, e ∈ ds ↔ e ∈ es) :
    (ofList ds).entries = es := by
  apply (sorted_ofList ds).eq_of_mem_iff hsorted
  intro e
  constructor
  · exact fun he => (hmem e).mp (mem_of_mem_ofList he)
  · intro he
    obtain ⟨kept, hkept, hkey⟩ := exists_mem_ofList ((hmem e).mpr he)
    rwa [← hsorted.eq_of_order_eq ((hmem kept).mp (mem_of_mem_ofList hkept)) he hkey]

end DirectiveSet

/-! ### Static directives as directives -/

/-- A directive that says the same about events, in any span. -/
def StaticDirective.toDirective (s : StaticDirective) : Directive where
  target := s.target
  field := s.field.map fun name => { name }
  level := s.level

variable {s : StaticDirective} {d e : Directive}

theorem StaticDirective.hasValue_toDirective (s : StaticDirective) : s.toDirective.hasValue = false := by
  unfold toDirective Directive.hasValue
  cases s.field <;> rfl

theorem StaticDirective.order_eq_iff_sameKey {s x : StaticDirective} :
    Ranked.order s x = .eq ↔ s.toDirective.SameKey x.toDirective := by
  have hfield : (s.field.map fun name => ({ name } : FieldMatch)) = x.field.map (fun name => { name }) ↔
      s.field = x.field :=
    Option.map_inj_right fun _ _ h => (FieldMatch.mk.inj h).1
  show order s x = .eq ↔ _
  rw [order_eq_eq_iff, Directive.SameKey]
  unfold toDirective
  rw [hfield]
  exact and_congr_right fun _ => (and_iff_right rfl).symm

namespace Directive

/-- Without a value, a directive about events in any span is the one that its static directive stands for. -/
theorem static?_eq_some_iff (h : d.hasValue = false) : d.static? = some s ↔ s.toDirective = d := by
  constructor
  · intro hs
    unfold static? at hs
    split at hs
    · cases hs
    · next hspan =>
        obtain rfl := Option.some.inj hs
        have hvalue := value_eq_none h
        obtain ⟨target, span, field, level⟩ := d
        obtain rfl : span = none := by simpa [h] using hspan
        cases field with
        | none => rfl
        | some m =>
            have hm : m = { name := m.name } := by rw [← hvalue m rfl]
            exact congrArg (fun m => (⟨target, none, some m, level⟩ : Directive)) hm.symm
  · rintro rfl
    obtain ⟨target, field, level⟩ := s
    cases field <;> rfl

/-- A directive that is not dynamic has a static one. -/
theorem exists_toDirective_eq (h : d.isDynamic = false) : ∃ s : StaticDirective, s.toDirective = d := by
  obtain ⟨target, span, field, level⟩ := d
  obtain ⟨rfl, rfl⟩ : span = none ∧ field = none := by simpa [isDynamic] using h
  exact ⟨⟨target, none, level⟩, rfl⟩

end Directive

end Filter

namespace LogFilter

open Menagerie.Filter

/-! ### What a filter shows -/

/-- The directives that a filter shows, in the order of its text. -/
def shown (f : LogFilter) : List Directive := f.statics.entries.map (·.toDirective) ++ f.dynamics.entries

/-- The greatest of some levels. -/
def greatest (levels : List Threshold) : Threshold := levels.foldl Threshold.max .off

theorem rank_foldl_max_le_iff {levels : List Threshold} {t : Threshold} {n : Nat} :
    (levels.foldl Threshold.max t).rank ≤ n ↔ t.rank ≤ n ∧ ∀ level ∈ levels, level.rank ≤ n := by
  induction levels generalizing t with
  | nil => simp
  | cons first levels ih => rw [List.foldl_cons, ih, Threshold.rank_max, Nat.max_le, List.forall_mem_cons, and_assoc]

theorem rank_greatest_le_iff {levels : List Threshold} {n : Nat} :
    (greatest levels).rank ≤ n ↔ ∀ level ∈ levels, level.rank ≤ n := by
  rw [greatest, rank_foldl_max_le_iff]
  exact and_iff_right (Nat.zero_le n)

variable {ds : List Directive} {s : StaticDirective} {d : Directive}

/-- The static directives that directives add. -/
def staticsOf (ds : List Directive) : List StaticDirective :=
  (ds.filter (!·.isDynamic)).filterMap Directive.static? ++ (ds.filter (·.isDynamic)).filterMap Directive.static?

theorem statics_ofDirectives (ds : List Directive) : (ofDirectives ds).statics = .ofList (staticsOf ds) := by
  simp only [ofDirectives, List.partition_eq_filter_filter]
  rfl

theorem dynamics_ofDirectives (ds : List Directive) :
    (ofDirectives ds).dynamics = .ofList (ds.filter (·.isDynamic)) := by
  simp only [ofDirectives, List.partition_eq_filter_filter]

theorem mem_staticsOf : s ∈ staticsOf ds ↔ ∃ d ∈ ds, d.static? = some s := by
  simp only [staticsOf, List.mem_append, List.mem_filterMap, List.mem_filter]
  constructor
  · rintro (⟨d, ⟨hd, -⟩, hs⟩ | ⟨d, ⟨hd, -⟩, hs⟩) <;> exact ⟨d, hd, hs⟩
  · rintro ⟨d, hd, hs⟩
    cases hdynamic : d.isDynamic with
    | false => exact .inl ⟨d, ⟨hd, by rw [hdynamic]; rfl⟩, hs⟩
    | true => exact .inr ⟨d, ⟨hd, hdynamic⟩, hs⟩

theorem isDynamic_of_mem_dynamics (h : d ∈ (ofDirectives ds).dynamics.entries) : d.isDynamic = true := by
  rw [dynamics_ofDirectives] at h
  exact List.of_mem_filter (DirectiveSet.mem_of_mem_ofList h)

section

variable (hds : ∀ d ∈ ds, d.hasValue = false)
include hds

theorem toDirective_mem (h : s ∈ staticsOf ds) : s.toDirective ∈ ds := by
  obtain ⟨d, hd, hs⟩ := mem_staticsOf.mp h
  rwa [(Directive.static?_eq_some_iff (hds d hd)).mp hs]

theorem shown_subset : ∀ d ∈ (ofDirectives ds).shown, d ∈ ds := by
  intro d hd
  rw [shown, statics_ofDirectives, dynamics_ofDirectives] at hd
  rcases List.mem_append.mp hd with hd | hd
  · obtain ⟨s, hs, rfl⟩ := List.mem_map.mp hd
    exact toDirective_mem hds (DirectiveSet.mem_of_mem_ofList hs)
  · exact List.mem_of_mem_filter (DirectiveSet.mem_of_mem_ofList hd)

theorem hasValue_of_mem_dynamics (h : d ∈ ds.filter (·.isDynamic)) : d.hasValue = false :=
  hds d (List.mem_of_mem_filter h)

/-- What a dynamic directive says about events in any span is kept if the directive is. -/
theorem mem_statics_of_toDirective_mem_dynamics (h : s.toDirective ∈ (ofDirectives ds).dynamics.entries) :
    s ∈ (ofDirectives ds).statics.entries := by
  rw [dynamics_ofDirectives] at h
  rw [statics_ofDirectives]
  obtain ⟨earlier, later, hsplit, hlater⟩ := DirectiveSet.mem_ofList.mp h
  have hstatic : s.toDirective.static? = some s :=
    (Directive.static?_eq_some_iff s.hasValue_toDirective).mpr rfl
  refine DirectiveSet.mem_ofList.mpr ⟨(ds.filter (!·.isDynamic)).filterMap Directive.static? ++
    earlier.filterMap Directive.static?, later.filterMap Directive.static?, ?_, fun x hx hkey => ?_⟩
  · rw [staticsOf, hsplit, List.filterMap_append, List.filterMap_cons_some hstatic, List.append_assoc]
  · obtain ⟨d, hd, hx⟩ := List.mem_filterMap.mp hx
    have hmem : d ∈ ds.filter (·.isDynamic) := by
      rw [hsplit]
      exact List.mem_append_right _ (List.mem_cons_of_mem _ hd)
    have hvalue := hasValue_of_mem_dynamics hds hmem
    obtain rfl := (Directive.static?_eq_some_iff hvalue).mp hx
    apply hlater _ hd
    rw [Directive.order_eq_eq_iff hvalue s.hasValue_toDirective, ← StaticDirective.order_eq_iff_sameKey]
    exact hkey

/-- A static directive that wants a value is shown as a dynamic one too. -/
theorem toDirective_mem_dynamics (hs : s ∈ (ofDirectives ds).statics.entries)
    (hdynamic : s.toDirective.isDynamic = true) : s.toDirective ∈ (ofDirectives ds).dynamics.entries := by
  have hsorted := DirectiveSet.sorted_ofList (staticsOf ds)
  rw [← statics_ofDirectives] at hsorted
  have hmem : s.toDirective ∈ ds.filter (·.isDynamic) := by
    rw [statics_ofDirectives] at hs
    exact List.mem_filter.mpr ⟨toDirective_mem hds (DirectiveSet.mem_of_mem_ofList hs), hdynamic⟩
  obtain ⟨kept, hkept, hkey⟩ := DirectiveSet.exists_mem_ofList hmem
  have hvalue := hasValue_of_mem_dynamics hds (DirectiveSet.mem_of_mem_ofList hkept)
  rw [Directive.order_eq_eq_iff hvalue s.hasValue_toDirective] at hkey
  -- The one that is kept with this key stands for a static one with the key of `s`, which is `s` itself.
  obtain ⟨x, rfl⟩ : ∃ x : StaticDirective, x.toDirective = kept := by
    refine ⟨⟨kept.target, kept.field.map (·.name), kept.level⟩, ?_⟩
    rw [← Directive.static?_eq_some_iff hvalue, Directive.static?, hvalue, hkey.2.1]
    rfl
  rw [← dynamics_ofDirectives] at hkept
  have hx := mem_statics_of_toDirective_mem_dynamics hds hkept
  rwa [← hsorted.eq_of_order_eq hx hs (StaticDirective.order_eq_iff_sameKey.mpr hkey)]

theorem mem_filter_shown_iff :
    d ∈ (ofDirectives ds).shown.filter (·.isDynamic) ↔ d ∈ (ofDirectives ds).dynamics.entries := by
  rw [List.mem_filter, shown, List.mem_append]
  constructor
  · rintro ⟨hd | hd, hdynamic⟩
    · obtain ⟨s, hs, rfl⟩ := List.mem_map.mp hd
      exact toDirective_mem_dynamics hds hs hdynamic
    · exact hd
  · intro hd
    exact ⟨.inr hd, isDynamic_of_mem_dynamics hd⟩

theorem mem_staticsOf_shown_iff : s ∈ staticsOf (ofDirectives ds).shown ↔ s ∈ (ofDirectives ds).statics.entries := by
  rw [mem_staticsOf]
  constructor
  · rintro ⟨d, hd, hs⟩
    obtain rfl := (Directive.static?_eq_some_iff (hds d (shown_subset hds d hd))).mp hs
    rcases List.mem_append.mp hd with hd | hd
    · obtain ⟨x, hx, heq⟩ := List.mem_map.mp hd
      have hstatic : x.toDirective.static? = some x :=
        (Directive.static?_eq_some_iff x.hasValue_toDirective).mpr rfl
      rw [heq, hs] at hstatic
      exact Option.some.inj hstatic ▸ hx
    · exact mem_statics_of_toDirective_mem_dynamics hds hd
  · intro hs
    exact ⟨s.toDirective, List.mem_append_left _ (List.mem_map_of_mem hs),
      (Directive.static?_eq_some_iff s.hasValue_toDirective).mpr rfl⟩

/-- What a filter shows makes both sets again. -/
theorem entries_ofDirectives_shown :
    (ofDirectives (ofDirectives ds).shown).statics.entries = (ofDirectives ds).statics.entries ∧
      (ofDirectives (ofDirectives ds).shown).dynamics.entries = (ofDirectives ds).dynamics.entries := by
  constructor
  · rw [statics_ofDirectives (ofDirectives ds).shown]
    apply DirectiveSet.entries_ofList_eq
    · rw [statics_ofDirectives]
      exact DirectiveSet.sorted_ofList _
    · exact fun s => mem_staticsOf_shown_iff hds
  · rw [dynamics_ofDirectives (ofDirectives ds).shown]
    apply DirectiveSet.entries_ofList_eq
    · rw [dynamics_ofDirectives]
      exact DirectiveSet.sorted_ofList _
    · exact fun d => mem_filter_shown_iff hds

/-! ### The greatest level -/

theorem rank_maxLevel_ofDirectives_le_iff {n : Nat} :
    (ofDirectives ds).maxLevel.rank ≤ n ↔ ∀ d ∈ ds, d.level.rank ≤ n := by
  have hnone : ((ofDirectives ds).dynamics.entries.any (·.hasValue)) = false := by
    rw [List.any_eq_false]
    intro d hd
    rw [dynamics_ofDirectives] at hd
    exact Bool.eq_false_iff.mp (hasValue_of_mem_dynamics hds (DirectiveSet.mem_of_mem_ofList hd))
  rw [maxLevel, hnone, if_neg Bool.false_ne_true, Threshold.rank_max, Nat.max_le, statics_ofDirectives,
    dynamics_ofDirectives, DirectiveSet.rank_maxLevel_ofList_le_iff, DirectiveSet.rank_maxLevel_ofList_le_iff]
  constructor
  · rintro ⟨hstatics, hdynamics⟩ d hd
    cases hdynamic : d.isDynamic with
    | true => exact hdynamics d (List.mem_filter.mpr ⟨hd, hdynamic⟩)
    | false =>
        obtain ⟨s, rfl⟩ := Directive.exists_toDirective_eq hdynamic
        have hs := (Directive.static?_eq_some_iff s.hasValue_toDirective).mpr rfl
        exact hstatics s (mem_staticsOf.mpr ⟨_, hd, hs⟩)
  · intro h
    exact ⟨fun s hs => h _ (toDirective_mem hds hs), fun d hd => h d (List.mem_of_mem_filter hd)⟩

theorem hasValue_of_mem_shown : ∀ d ∈ (ofDirectives ds).shown, d.hasValue = false :=
  fun d hd => hds d (shown_subset hds d hd)

/-- What a filter shows makes a filter of the greatest level that is shown. -/
theorem maxLevel_ofDirectives_shown :
    (ofDirectives (ofDirectives ds).shown).maxLevel = greatest ((ofDirectives ds).shown.map (·.level)) := by
  apply Threshold.eq_of_rank_eq
  apply eq_of_forall_ge_iff
  intro n
  rw [rank_maxLevel_ofDirectives_le_iff (hasValue_of_mem_shown hds), rank_greatest_le_iff, List.forall_mem_map]

theorem maxLevel_ofDirectives_shown_le :
    (ofDirectives (ofDirectives ds).shown).maxLevel.rank ≤ (ofDirectives ds).maxLevel.rank := by
  rw [rank_maxLevel_ofDirectives_le_iff (hasValue_of_mem_shown hds)]
  intro d hd
  exact (rank_maxLevel_ofDirectives_le_iff hds).mp (Nat.le_refl _) d (shown_subset hds d hd)

/-- If no two directives speak of the same, all of them are shown. -/
theorem subset_shown (hdistinct : ds.Pairwise fun d e => ¬d.SameKey e) : ∀ d ∈ ds, d ∈ (ofDirectives ds).shown := by
  have hsymm : Std.Symm fun d e : Directive => ¬d.SameKey e :=
    ⟨fun d e h hkey => h ⟨hkey.1.symm, hkey.2.1.symm, hkey.2.2.symm⟩⟩
  have heq : ∀ d ∈ ds, ∀ e ∈ ds, d.SameKey e → d = e := by
    intro d hd e he hkey
    by_contra hne
    exact hdistinct.forall hd he hne hkey
  intro d hd
  rw [shown, List.mem_append]
  cases hdynamic : d.isDynamic with
  | true =>
      have hmem : d ∈ ds.filter (·.isDynamic) := List.mem_filter.mpr ⟨hd, hdynamic⟩
      obtain ⟨kept, hkept, hkey⟩ := DirectiveSet.exists_mem_ofList hmem
      have hkept' := DirectiveSet.mem_of_mem_ofList hkept
      rw [Directive.order_eq_eq_iff (hasValue_of_mem_dynamics hds hkept') (hds d hd)] at hkey
      rw [heq kept (List.mem_of_mem_filter hkept') d hd hkey, ← dynamics_ofDirectives] at hkept
      exact .inr hkept
  | false =>
      obtain ⟨s, rfl⟩ := Directive.exists_toDirective_eq hdynamic
      have hs := (Directive.static?_eq_some_iff s.hasValue_toDirective).mpr rfl
      obtain ⟨kept, hkept, hkey⟩ := DirectiveSet.exists_mem_ofList (mem_staticsOf.mpr ⟨_, hd, hs⟩)
      have hkept' := toDirective_mem hds (DirectiveSet.mem_of_mem_ofList hkept)
      rw [StaticDirective.order_eq_iff_sameKey] at hkey
      rw [← heq _ hkept' _ hd hkey]
      rw [← statics_ofDirectives] at hkept
      exact .inl (List.mem_map_of_mem hkept)

theorem maxLevel_ofDirectives_shown_eq (hdistinct : ds.Pairwise fun d e => ¬d.SameKey e) :
    (ofDirectives (ofDirectives ds).shown).maxLevel = (ofDirectives ds).maxLevel := by
  apply Threshold.eq_of_rank_eq
  apply eq_of_forall_ge_iff
  intro n
  rw [rank_maxLevel_ofDirectives_le_iff (hasValue_of_mem_shown hds), rank_maxLevel_ofDirectives_le_iff hds]
  constructor
  · exact fun h d hd => h d (subset_shown hds hdistinct d hd)
  · exact fun h d hd => h d (shown_subset hds d hd)

end

end LogFilter

end Menagerie
