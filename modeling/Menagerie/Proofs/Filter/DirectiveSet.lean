import Mathlib.Data.List.Induction
import Mathlib.Data.List.Pairwise
import Menagerie.Filter.DirectiveSet

/-! A set of directives is sorted, the most specific one first. It has an entry for every key that was
added, and that entry is the last one added with the key. The first entry with a property that only
depends on the key is therefore the most specific one that was added with it, and of those the last. -/

namespace Menagerie

theorem Threshold.rank_max (s t : Threshold) : (s.max t).rank = Max.max s.rank t.rank := by
  unfold Threshold.max
  split <;> omega

namespace Filter

/-! ### The order of static directives -/

theorem orderOption_compare {α : Type} [Ord α] :
    orderOption (compare : α → α → Ordering) = compare := by
  funext a b
  cases a <;> cases b <;> rfl

namespace StaticDirective

theorem order_eq_compareLex : order =
    compareLex (compareOn fun d : StaticDirective => targetLength d.target)
      (compareLex (compareOn fun d => d.field.isSome.toNat)
        (compareLex (compareOn (·.target)) (compareOn (·.field)))) := by
  funext d e
  simp only [order, orderOption_compare, compareLex, compareOn]

instance : Std.TransCmp order := by
  rw [order_eq_compareLex]
  infer_instance

theorem order_eq_eq_iff {d e : StaticDirective} :
    order d e = .eq ↔ d.target = e.target ∧ d.field = e.field := by
  simp only [order, orderOption_compare, Ordering.then_eq_eq, Std.LawfulEqOrd.compare_eq_iff_eq]
  constructor
  · exact fun h => h.2.2
  · rintro ⟨htarget, hfield⟩
    rw [htarget, hfield]
    exact ⟨rfl, rfl, rfl, rfl⟩

instance : Std.TransCmp (Ranked.order : StaticDirective → StaticDirective → Ordering) :=
  inferInstanceAs (Std.TransCmp order)

end StaticDirective

namespace DirectiveSet

open Ranked Std

variable {α : Type} [Ranked α]

/-- Every entry is more specific than those behind it. -/
def Sorted (es : List α) : Prop := es.Pairwise fun d e => order d e = .gt

theorem ofList_concat (ds : List α) (d : α) : ofList (ds ++ [d]) = (ofList ds).add d := by
  rw [ofList, ofList, List.foldl_append, List.foldl_cons, List.foldl_nil]

theorem level_le_maxLevel_ofList {ds : List α} {d : α} (hd : d ∈ ds) :
    (level d).rank ≤ (ofList ds).maxLevel.rank := by
  induction ds using List.reverseRecOn with
  | nil => cases hd
  | append_singleton ds last ih =>
      rw [ofList_concat, add, Threshold.rank_max]
      rcases List.mem_append.mp hd with hd | hd
      · exact Nat.le_trans (ih hd) (Nat.le_max_left ..)
      · obtain rfl := List.mem_singleton.mp hd
        exact Nat.le_max_right ..

variable [TransCmp (order : α → α → Ordering)]

theorem mem_insertEntry {es : List α} (h : Sorted es) {d e : α} :
    e ∈ insertEntry d es ↔ e = d ∨ e ∈ es ∧ order d e ≠ .eq := by
  induction es with
  | nil => simp [insertEntry]
  | cons first rest ih =>
      obtain ⟨hfirst, hrest⟩ := List.pairwise_cons.mp h
      cases horder : order d first with
      -- Behind the place of the directive all is less specific, so that nothing there has its key.
      | gt =>
          have hall : ∀ x ∈ first :: rest, order d x ≠ .eq := by
            intro x hx
            rcases List.mem_cons.mp hx with rfl | hx
            · rw [horder]
              nofun
            · rw [TransCmp.gt_trans horder (hfirst x hx)]
              nofun
          simp only [insertEntry, horder]
          rw [List.mem_cons]
          exact or_congr_right ⟨fun he => ⟨he, hall e he⟩, fun he => he.1⟩
      | eq =>
          have hall : ∀ x ∈ rest, order d x ≠ .eq := by
            intro x hx
            rw [TransCmp.congr_left horder, hfirst x hx]
            nofun
          simp only [insertEntry, horder, List.mem_cons]
          refine or_congr_right ⟨fun he => ⟨.inr he, hall e he⟩, ?_⟩
          rintro ⟨rfl | he, hne⟩
          · exact absurd horder hne
          · exact he
      | lt =>
          have hne : order d first ≠ .eq := by
            rw [horder]
            nofun
          simp only [insertEntry, horder, List.mem_cons, ih hrest]
          constructor
          · rintro (rfl | rfl | ⟨he, hne'⟩)
            · exact .inr ⟨.inl rfl, hne⟩
            · exact .inl rfl
            · exact .inr ⟨.inr he, hne'⟩
          · rintro (rfl | ⟨rfl | he, hne'⟩)
            · exact .inr (.inl rfl)
            · exact .inl rfl
            · exact .inr (.inr ⟨he, hne'⟩)

theorem sorted_insertEntry {es : List α} (h : Sorted es) (d : α) : Sorted (insertEntry d es) := by
  induction es with
  | nil => exact List.pairwise_singleton _ d
  | cons first rest ih =>
      obtain ⟨hfirst, hrest⟩ := List.pairwise_cons.mp h
      cases horder : order d first with
      | gt =>
          simp only [insertEntry, horder]
          refine List.pairwise_cons.mpr ⟨fun x hx => ?_, h⟩
          rcases List.mem_cons.mp hx with rfl | hx
          · exact horder
          · exact TransCmp.gt_trans horder (hfirst x hx)
      | eq =>
          simp only [insertEntry, horder]
          refine List.pairwise_cons.mpr ⟨fun x hx => ?_, hrest⟩
          rw [TransCmp.congr_left horder, hfirst x hx]
      | lt =>
          simp only [insertEntry, horder]
          refine List.pairwise_cons.mpr ⟨fun x hx => ?_, ih hrest⟩
          rcases (mem_insertEntry hrest).mp hx with rfl | ⟨hx, -⟩
          · exact OrientedCmp.gt_iff_lt.mpr horder
          · exact hfirst x hx

theorem sorted_ofList (ds : List α) : Sorted (ofList ds).entries := by
  induction ds using List.reverseRecOn with
  | nil => exact List.Pairwise.nil
  | append_singleton ds d ih =>
      rw [ofList_concat]
      exact sorted_insertEntry ih d

/-- The entries of a set are the directives behind which none with the same key was added. -/
theorem mem_ofList {ds : List α} {e : α} :
    e ∈ (ofList ds).entries ↔
      ∃ earlier later, ds = earlier ++ e :: later ∧ ∀ d ∈ later, order d e ≠ .eq := by
  induction ds using List.reverseRecOn with
  | nil =>
      constructor
      · exact fun h => absurd h List.not_mem_nil
      · rintro ⟨earlier, later, h, -⟩
        simp at h
  | append_singleton ds last ih =>
      rw [ofList_concat, add, mem_insertEntry (sorted_ofList ds), ih]
      constructor
      · rintro (rfl | ⟨⟨earlier, later, rfl, hlater⟩, hlast⟩)
        · exact ⟨ds, [], rfl, fun d hd => absurd hd List.not_mem_nil⟩
        · refine ⟨earlier, later ++ [last], by simp, fun d hd => ?_⟩
          rcases List.mem_append.mp hd with hd | hd
          · exact hlater d hd
          · obtain rfl := List.mem_singleton.mp hd
            exact hlast
      · rintro ⟨earlier, later, h, hlater⟩
        rcases List.eq_nil_or_concat later with rfl | ⟨later, x, rfl⟩
        · obtain ⟨rfl, hlast⟩ := List.append_inj' h rfl
          obtain rfl := List.singleton_inj.mp hlast
          exact .inl rfl
        · rw [List.concat_eq_append, ← List.cons_append, ← List.append_assoc] at h
          obtain ⟨rfl, hlast⟩ := List.append_inj' h rfl
          obtain rfl := List.singleton_inj.mp hlast
          refine .inr ⟨⟨earlier, later, rfl, fun d hd => hlater d ?_⟩, hlater last ?_⟩
          · simp [hd]
          · simp

theorem mem_of_mem_ofList {ds : List α} {e : α} (he : e ∈ (ofList ds).entries) : e ∈ ds := by
  obtain ⟨earlier, later, rfl, -⟩ := mem_ofList.mp he
  exact List.mem_append_right earlier List.mem_cons_self

/-- A key that was added stays, with the directive that was added last. -/
theorem exists_mem_ofList {ds : List α} {d : α} (hd : d ∈ ds) :
    ∃ e ∈ (ofList ds).entries, order e d = .eq := by
  induction ds using List.reverseRecOn with
  | nil => cases hd
  | append_singleton ds last ih =>
      simp only [ofList_concat, add, mem_insertEntry (sorted_ofList ds)]
      by_cases hlast : order last d = .eq
      · exact ⟨last, .inl rfl, hlast⟩
      · have hmem : d ∈ ds := by
          rcases List.mem_append.mp hd with hd | hd
          · exact hd
          · obtain rfl := List.mem_singleton.mp hd
            exact absurd ReflCmp.compare_self hlast
        obtain ⟨e, he, heq⟩ := ih hmem
        refine ⟨e, .inr ⟨he, fun hkey => hlast ?_⟩, heq⟩
        exact TransCmp.eq_trans hkey heq

/-- No key has two entries. -/
theorem Sorted.eq_of_order_eq {es : List α} (h : Sorted es) {d e : α} (hd : d ∈ es) (he : e ∈ es)
    (hkey : order d e = .eq) : d = e := by
  induction es with
  | nil => cases hd
  | cons first rest ih =>
      obtain ⟨hfirst, hrest⟩ := List.pairwise_cons.mp h
      rcases List.mem_cons.mp hd with rfl | hd' <;> rcases List.mem_cons.mp he with rfl | he'
      · rfl
      · rw [hfirst e he'] at hkey
        cases hkey
      · rw [OrientedCmp.eq_comm, hfirst d hd'] at hkey
        cases hkey
      · exact ih hrest hd' he'

/-- In front of the first entry with a property there is none, so that it is the most specific one. -/
theorem Sorted.find?_eq_some_iff {es : List α} (h : Sorted es) {p : α → Bool} {d : α} :
    es.find? p = some d ↔ d ∈ es ∧ p d ∧ ∀ e ∈ es, p e → e = d ∨ order d e = .gt := by
  induction es with
  | nil => simp
  | cons first rest ih =>
      obtain ⟨hfirst, hrest⟩ := List.pairwise_cons.mp h
      cases hp : p first with
      | true =>
          rw [List.find?_cons_of_pos hp, Option.some.injEq]
          constructor
          · rintro rfl
            refine ⟨List.mem_cons_self, hp, fun e he _ => ?_⟩
            rcases List.mem_cons.mp he with rfl | he
            · exact .inl rfl
            · exact .inr (hfirst e he)
          · rintro ⟨hd, -, hmost⟩
            rcases hmost first List.mem_cons_self hp with heq | hgt
            · exact heq
            · rcases List.mem_cons.mp hd with rfl | hd
              · rfl
              · exact absurd (hfirst d hd) (OrientedCmp.not_gt_of_gt hgt)
      | false =>
          have hne : ∀ e, p e = true → e ≠ first := by
            rintro e he rfl
            exact absurd he (Bool.eq_false_iff.mp hp)
          rw [List.find?_cons_of_neg (Bool.eq_false_iff.mp hp), ih hrest]
          constructor
          · rintro ⟨hd, hpd, hmost⟩
            refine ⟨List.mem_cons_of_mem first hd, hpd, fun e he hpe => ?_⟩
            exact hmost e (List.mem_of_ne_of_mem (hne e hpe) he) hpe
          · rintro ⟨hd, hpd, hmost⟩
            refine ⟨List.mem_of_ne_of_mem (hne d hpd) hd, hpd, fun e he => ?_⟩
            exact hmost e (List.mem_cons_of_mem first he)

/-- What is found for a property of the key is the most specific directive that was added with the
property, and of equally specific ones the last. -/
theorem find?_ofList_eq_some_iff {ds : List α} {p : α → Bool}
    (hp : ∀ d e, order d e = .eq → p d = p e) {d : α} :
    (ofList ds).entries.find? p = some d ↔
      p d ∧ ∃ earlier later, ds = earlier ++ d :: later ∧
        (∀ e ∈ earlier, p e → order d e ≠ .lt) ∧ ∀ e ∈ later, p e → order d e = .gt := by
  rw [(sorted_ofList ds).find?_eq_some_iff, mem_ofList]
  constructor
  · rintro ⟨⟨earlier, later, rfl, hlater⟩, hpd, hmost⟩
    have hbeats : ∀ e ∈ earlier ++ d :: later, p e → order d e = .eq ∨ order d e = .gt := by
      intro e he hpe
      obtain ⟨kept, hkept, hkey⟩ := exists_mem_ofList he
      rw [← TransCmp.congr_right hkey]
      rcases hmost kept hkept (hp kept e hkey ▸ hpe) with rfl | hgt
      · exact .inl ReflCmp.compare_self
      · exact .inr hgt
    refine ⟨hpd, earlier, later, rfl, fun e he hpe => ?_, fun e he hpe => ?_⟩
    · rcases hbeats e (by simp [he]) hpe with h | h <;> rw [h] <;> nofun
    · rcases hbeats e (by simp [he]) hpe with h | h
      · exact absurd (OrientedCmp.eq_symm h) (hlater e he)
      · exact h
  · rintro ⟨hpd, earlier, later, rfl, hearlier, hlater⟩
    -- One with the same key has the property too, and would not be less specific.
    have hkept : ∀ e ∈ later, order e d ≠ .eq := by
      intro e he hkey
      have hgt := hlater e he (hp e d hkey ▸ hpd)
      rw [OrientedCmp.eq_symm hkey] at hgt
      cases hgt
    refine ⟨⟨earlier, later, rfl, hkept⟩, hpd, fun e he hpe => ?_⟩
    have hd : d ∈ (ofList (earlier ++ d :: later)).entries :=
      mem_ofList.mpr ⟨earlier, later, rfl, hkept⟩
    rcases List.mem_append.mp (mem_of_mem_ofList he) with hmem | hmem
    · cases horder : order d e with
      | lt => exact absurd horder (hearlier e hmem hpe)
      | eq => exact .inl ((sorted_ofList _).eq_of_order_eq hd he horder).symm
      | gt => exact .inr rfl
    · rcases List.mem_cons.mp hmem with heq | hmem
      · exact .inl heq
      · exact .inr (hlater e hmem hpe)

end DirectiveSet

end Filter

end Menagerie
