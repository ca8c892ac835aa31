import Mathlib.Data.List.Basic
import Mathlib.Data.List.Forall2
import Menagerie.Filter
import Menagerie.Proofs.Filter.DirectiveSet

/-! Filters that speak of targets and levels only. Such a filter decides about an event by the longest of
its targets that the target of the event begins with, and by the last of its directives with that
target. Every text without an opening bracket is such a filter, if it can be read. -/

namespace Menagerie

namespace Filter

namespace Directive

/-- A directive that speaks of a target and a level only. -/
def IsPlain (d : Directive) : Prop := d.span = none ∧ d.field = none

/-- A text begins with the target of a directive, if it has one. -/
def Covers (d : Directive) (target : String) : Prop := ∀ name ∈ d.target, name.toList <+: target.toList

/-- Among `ds` this directive decides about a target: of those that cover it, it has the longest target of
its own, and none with the same one is behind it. No target is shorter than all others. -/
def Decides (ds : List Directive) (target : String) (d : Directive) : Prop :=
  d.Covers target ∧ ∃ earlier later, ds = earlier ++ d :: later ∧
    (∀ e ∈ earlier, e.Covers target → targetLength e.target ≤ targetLength d.target) ∧
    ∀ e ∈ later, e.Covers target → targetLength e.target < targetLength d.target

end Directive

/-! ### Targets that cover the same text -/

theorem compare_length_ne_lt_iff {m n : Option Nat} : compare m n ≠ .lt ↔ n ≤ m := by
  cases m with
  | none => cases n <;> simp [compare]
  | some m =>
      cases n with
      | none => simp [compare]
      | some n => exact Nat.compare_ne_lt.trans Option.some_le_some.symm

theorem compare_length_eq_gt_iff {m n : Option Nat} : compare m n = .gt ↔ n < m := by
  cases m with
  | none => cases n <;> simp [compare]
  | some m =>
      cases n with
      | none => simp [compare]
      | some n => exact Nat.compare_eq_gt.trans Option.some_lt_some.symm

theorem eq_of_prefix_of_utf8ByteSize_eq {s t u : String} (hs : s.toList <+: u.toList)
    (ht : t.toList <+: u.toList) (hsize : s.utf8ByteSize = t.utf8ByteSize) : s = t := by
  have key : ∀ {a b : String}, a.toList <+: b.toList → a.utf8ByteSize = b.utf8ByteSize → a = b := by
    rintro a b ⟨rest, hrest⟩ hsame
    have hb : b = a ++ String.ofList rest := by
      rw [← String.toList_inj, String.toList_append, String.toList_ofList, hrest]
    rw [hb, String.utf8ByteSize_append] at hsame
    have hempty : String.ofList rest = "" := String.utf8ByteSize_eq_zero_iff.mp (by omega)
    rw [hb, hempty, String.append_empty]
  rcases List.prefix_or_prefix_of_prefix hs ht with h | h
  · exact key h hsize
  · exact (key h hsize.symm).symm

section

variable {s t : Option String} {target : String} (hs : ∀ name ∈ s, name.toList <+: target.toList)
  (ht : ∀ name ∈ t, name.toList <+: target.toList)
include hs ht

/-- Targets of one length that a text begins with are the same. -/
theorem eq_of_targetLength_eq (hlength : targetLength s = targetLength t) : s = t := by
  cases s with
  | none =>
      cases t with
      | none => rfl
      | some t => cases hlength
  | some s =>
      cases t with
      | none => cases hlength
      | some t =>
          exact congrArg some (eq_of_prefix_of_utf8ByteSize_eq (hs s rfl) (ht t rfl)
            (Option.some.inj hlength))

/-- Of two targets that a text begins with, the longer one is the more specific one. -/
theorem StaticDirective.order_of_covers {k l : Threshold} :
    order ⟨s, none, k⟩ ⟨t, none, l⟩ = compare (targetLength s) (targetLength t) := by
  simp only [order, orderOption_compare]
  cases hcompare : compare (targetLength s) (targetLength t) with
  | lt => rfl
  | gt => rfl
  | eq =>
      rw [eq_of_targetLength_eq hs ht (Std.LawfulEqOrd.eq_of_compare hcompare)]
      simp

end

/-- What a directive says about the events of its target. -/
def Directive.toStatic (d : Directive) : StaticDirective := ⟨d.target, none, d.level⟩

theorem Directive.IsPlain.static?_eq {d : Directive} (h : d.IsPlain) : d.static? = some d.toStatic := by
  simp [static?, hasValue, toStatic, h.1, h.2]

theorem Directive.isAboutEvent_toStatic_iff {d : Directive} {target : String} {names : List String} :
    d.toStatic.isAboutEvent target names = true ↔ d.Covers target := by
  simp [StaticDirective.isAboutEvent, toStatic, Covers, Option.all_eq_true]

theorem StaticDirective.isAboutEvent_congr {s t : StaticDirective} (h : Ranked.order s t = .eq)
    {target : String} {names : List String} :
    s.isAboutEvent target names = t.isAboutEvent target names := by
  obtain ⟨htarget, hfield⟩ := order_eq_eq_iff.mp h
  rw [isAboutEvent, isAboutEvent, htarget, hfield]

section

variable {d e : Directive} {target : String}

theorem Directive.Covers.order_ne_lt_iff (hd : d.Covers target) (he : e.Covers target) :
    Ranked.order d.toStatic e.toStatic ≠ .lt ↔ targetLength e.target ≤ targetLength d.target := by
  rw [← compare_length_ne_lt_iff, ← StaticDirective.order_of_covers hd he]
  rfl

theorem Directive.Covers.order_eq_gt_iff (hd : d.Covers target) (he : e.Covers target) :
    Ranked.order d.toStatic e.toStatic = .gt ↔ targetLength e.target < targetLength d.target := by
  rw [← compare_length_eq_gt_iff, ← StaticDirective.order_of_covers hd he]
  rfl

end

/-- Among plain directives, the one that is found for a target is the one that decides about it. -/
theorem find?_map_toStatic_eq_some_iff {ds : List Directive} {target : String} {names : List String}
    {s : StaticDirective} :
    (DirectiveSet.ofList (ds.map Directive.toStatic)).entries.find? (·.isAboutEvent target names) =
        some s ↔
      ∃ d : Directive, d.Decides ds target ∧ d.toStatic = s := by
  rw [DirectiveSet.find?_ofList_eq_some_iff fun _ _ h => StaticDirective.isAboutEvent_congr h]
  constructor
  · rintro ⟨hs, earlier', later', hsplit, hearlier, hlater⟩
    obtain ⟨earlier, rest, rfl, rfl, hrest⟩ := List.map_eq_append_iff.mp hsplit
    obtain ⟨d, later, rfl, rfl, rfl⟩ := List.map_eq_cons_iff.mp hrest
    simp only [List.forall_mem_map, Directive.isAboutEvent_toStatic_iff] at hs hearlier hlater
    refine ⟨d, ⟨hs, earlier, later, rfl, fun e he hcovers => ?_, fun e he hcovers => ?_⟩, rfl⟩
    · exact (hs.order_ne_lt_iff hcovers).mp (hearlier e he hcovers)
    · exact (hs.order_eq_gt_iff hcovers).mp (hlater e he hcovers)
  · rintro ⟨d, ⟨hd, earlier, later, rfl, hearlier, hlater⟩, rfl⟩
    refine ⟨Directive.isAboutEvent_toStatic_iff.mpr hd, earlier.map Directive.toStatic,
      later.map Directive.toStatic, by simp, ?_, ?_⟩
    all_goals simp only [List.forall_mem_map, Directive.isAboutEvent_toStatic_iff]
    · exact fun e he hcovers => (hd.order_ne_lt_iff hcovers).mpr (hearlier e he hcovers)
    · exact fun e he hcovers => (hd.order_eq_gt_iff hcovers).mpr (hlater e he hcovers)

end Filter

namespace LogFilter

open Menagerie.Filter

theorem ofDirectives_of_plain {ds : List Directive} (h : ∀ d ∈ ds, d.IsPlain) :
    ofDirectives ds = { statics := .ofList (ds.map Directive.toStatic) } := by
  have hdynamic : ∀ d ∈ ds, d.isDynamic = false := by
    intro d hd
    simp [Directive.isDynamic, (h d hd).1, (h d hd).2]
  have hnone : ds.filter (·.isDynamic) = [] := by
    rw [List.filter_eq_nil_iff]
    exact fun d hd => Bool.eq_false_iff.mp (hdynamic d hd)
  have hall : ds.filter (not ∘ (·.isDynamic)) = ds := by
    rw [List.filter_eq_self]
    intro d hd
    rw [Function.comp_apply, hdynamic d hd]
    rfl
  have hstatics : ds.filterMap Directive.static? = ds.map Directive.toStatic := by
    rw [List.filterMap_eq_map_iff_forall_eq_some]
    exact fun d hd => (h d hd).static?_eq
  simp only [ofDirectives, List.partition_eq_filter_filter, hnone, hall, hstatics,
    List.filterMap_nil, List.append_nil]
  rfl

/-- The threshold on all events never rejects one that the directives let through. -/
theorem admits_maxLevel_of_admitsByTarget {ds : List StaticDirective} {e : Journal.Event}
    (h : ({ statics := .ofList ds } : LogFilter).admitsByTarget e = true) :
    ({ statics := .ofList ds } : LogFilter).maxLevel.admits e.level = true := by
  unfold admitsByTarget at h
  split at h
  · next d hfound =>
      have hmem := DirectiveSet.mem_of_mem_ofList (List.mem_of_find?_eq_some hfound)
      have hlevel : d.level.rank ≤ _ := DirectiveSet.level_le_maxLevel_ofList hmem
      simp only [Threshold.admits, decide_eq_true_eq] at h ⊢
      have hmax : ({ statics := .ofList ds } : LogFilter).maxLevel.rank =
          Max.max (DirectiveSet.ofList ds).maxLevel.rank Threshold.off.rank := Threshold.rank_max _ _
      omega
  · cases h

/-- **Plain filters decide by the longest target.** An event is let through if the directive that decides
about its target admits its level, and dropped if there is none or it does not. -/
theorem admits_iff_decides {ds : List Directive} (h : ∀ d ∈ ds, d.IsPlain)
    (spans : List Journal.Span) (e : Journal.Event) :
    (ofDirectives ds).admits spans e = true ↔
      ∃ d : Directive, d.Decides ds e.target ∧ d.level.admits e.level = true := by
  rw [ofDirectives_of_plain h]
  have hoff : Threshold.off.admits e.level = false := by
    cases e.level <;> rfl
  have htarget : ({ statics := .ofList (ds.map Directive.toStatic) } : LogFilter).admits spans e = true ↔
      ({ statics := .ofList (ds.map Directive.toStatic) } : LogFilter).admitsByTarget e = true := by
    simp only [admits, hoff, Bool.false_and, Bool.false_or, Bool.and_eq_true]
    exact ⟨fun hboth => hboth.2, fun hadmits => ⟨admits_maxLevel_of_admitsByTarget hadmits, hadmits⟩⟩
  rw [htarget, admitsByTarget]
  constructor
  · intro hadmits
    split at hadmits
    · next s hfound =>
        obtain ⟨d, hd, rfl⟩ := find?_map_toStatic_eq_some_iff.mp hfound
        exact ⟨d, hd, hadmits⟩
    · cases hadmits
  · rintro ⟨d, hd, hadmits⟩
    rw [find?_map_toStatic_eq_some_iff.mpr ⟨d, hd, rfl⟩]
    exact hadmits

end LogFilter

/-! ### Texts without an opening bracket -/

theorem Text.mem_of_mem_trim {c : Char} {cs : List Char} (h : c ∈ trim cs) : c ∈ cs := by
  have hleft : ∀ {ds : List Char}, c ∈ trimLeft ds → c ∈ ds := fun hc => List.dropWhile_subset isBlank hc
  rw [trim, trimRight, List.mem_reverse] at h
  exact hleft (List.mem_reverse.mp (hleft h))

namespace Filter

/-- How far a directive is read in which no bracket was opened. -/
def DirectiveState.IsPlain : DirectiveState → Prop
  | .start | .levelOrTarget | .level _ => True
  | .span _ | .field _ | .fields | .target => False

namespace Directive

variable {text : List Char} {d d' : Directive} {state state' : DirectiveState}

/-- Without an opening bracket the reader never comes to spans or fields. -/
theorem IsPlain.step {i : Nat} {c : Char} (hd : d.IsPlain) (hstate : state.IsPlain) (hc : c ≠ '[')
    (h : step text i c d state = .ok (d', state')) : d'.IsPlain ∧ state'.IsPlain := by
  have hne : (c == '[') = false := beq_eq_false_iff_ne.mpr hc
  cases state with
  | start =>
      simp only [Directive.step, hne, Bool.false_eq_true, if_false] at h
      split at h
      · obtain ⟨rfl, rfl⟩ := Prod.mk.inj (Except.ok.inj h)
        exact ⟨hd, trivial⟩
      · cases h
  | levelOrTarget =>
      simp only [Directive.step, hne, Bool.false_eq_true, if_false] at h
      split at h
      · cases hcut : cut text 0 i with
        | error f =>
            rw [hcut] at h
            cases h
        | ok name =>
            rw [hcut] at h
            obtain ⟨rfl, rfl⟩ := Prod.mk.inj (Except.ok.inj h)
            exact ⟨hd, trivial⟩
      · obtain ⟨rfl, rfl⟩ := Prod.mk.inj (Except.ok.inj h)
        exact ⟨hd, trivial⟩
  | level start =>
      obtain ⟨rfl, rfl⟩ := Prod.mk.inj (Except.ok.inj h)
      exact ⟨hd, trivial⟩
  | span | field | fields | target => exact hstate.elim

theorem IsPlain.steps {i : Nat} {rest : List Char} (hd : d.IsPlain) (hstate : state.IsPlain)
    (hrest : '[' ∉ rest) (h : steps text i d state rest = .ok (d', state')) :
    d'.IsPlain ∧ state'.IsPlain := by
  induction rest generalizing i d state with
  | nil =>
      obtain ⟨rfl, rfl⟩ := Prod.mk.inj (Except.ok.inj h)
      exact ⟨hd, hstate⟩
  | cons c rest ih =>
      have hc : c ≠ '[' := (List.ne_of_not_mem_cons hrest).symm
      cases hstep : Directive.step text i c d state with
      | error f => simp [Directive.steps, hstep] at h
      | ok next =>
          obtain ⟨hd, hstate⟩ := hd.step hstate hc hstep
          simp only [Directive.steps, hstep] at h
          exact ih hd hstate (List.not_mem_of_not_mem_cons hrest) h

theorem IsPlain.finish (hd : d.IsPlain) (hstate : state.IsPlain)
    (h : finish text d state = .ok d') : d'.IsPlain := by
  cases state with
  | start => cases h
  | levelOrTarget =>
      simp only [Directive.finish] at h
      split at h <;> obtain rfl := Except.ok.inj h <;> exact hd
  | level start =>
      simp only [Directive.finish] at h
      split at h
      · cases h
      · obtain rfl := Except.ok.inj h
        exact hd
      · split at h
        · obtain rfl := Except.ok.inj h
          exact hd
        · cases h
  | span | field | fields | target => exact hstate.elim

end Directive

end Filter

namespace LogFilter

open Menagerie.Filter

theorem mapM_eq_ok_iff_forall₂ {α β ε : Type} {f : α → Except ε β} {as : List α} {bs : List β} :
    as.mapM f = .ok bs ↔ List.Forall₂ (fun a b => f a = .ok b) as bs := by
  induction as generalizing bs with
  | nil =>
      rw [List.forall₂_nil_left_iff]
      exact ⟨fun h => (Except.ok.inj h).symm, fun h => h ▸ rfl⟩
  | cons a as ih =>
      rw [List.mapM_cons, List.forall₂_cons_left_iff]
      simp only [← ih]
      constructor
      · intro h
        cases ha : f a with
        | error e =>
            rw [ha] at h
            cases h
        | ok b =>
            cases has : as.mapM f with
            | error e =>
                rw [ha, has] at h
                cases h
            | ok bs =>
                rw [ha, has] at h
                exact ⟨b, bs, rfl, rfl, (Except.ok.inj h).symm⟩
      · rintro ⟨b, bs, hb, hbs, rfl⟩
        rw [hb, hbs]
        rfl

theorem exists_mem_of_mapM_eq_ok {α β ε : Type} {f : α → Except ε β} {as : List α} {bs : List β}
    (h : as.mapM f = .ok bs) {b : β} (hb : b ∈ bs) : ∃ a ∈ as, f a = .ok b := by
  have hall := mapM_eq_ok_iff_forall₂.mp h
  clear h
  induction hall with
  | nil => cases hb
  | @cons a first as bs ha _ ih =>
      rcases List.mem_cons.mp hb with rfl | hb
      · exact ⟨a, List.mem_cons_self, ha⟩
      · obtain ⟨x, hx, hfx⟩ := ih hb
        exact ⟨x, List.mem_cons_of_mem a hx, hfx⟩

/-- A filter is read exactly if its pieces are, and then it is made of them. -/
theorem read_eq_ok_iff {text : String} {f : LogFilter} :
    read text = .ok f ↔ ∃ ds, (pieces text).mapM Directive.read = .ok ds ∧ ofDirectives ds = f := by
  unfold read
  cases (pieces text).mapM Directive.read with
  | error fault => simp
  | ok ds => simp

end LogFilter

end Menagerie
