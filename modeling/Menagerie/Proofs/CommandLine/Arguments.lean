import Mathlib.Data.List.Basic
import Menagerie.CommandLine.Reader
import Menagerie.Proofs.Text.Octets

/-! Arguments as they are written: an option with its value in one argument or in two, and what has no
place on a command line. A line that is read has no option that is not known, and has as many arguments
that stand alone as options that wait for one. -/

namespace Menagerie.CommandLine

open Text (Raw)

/-- An option of the line with its value, `joined` in one argument or in two. A hyphen would make the
value an argument of its own. -/
structure Occurrence where
  choice : Choice
  value : String
  joined : Bool
  head_ne : joined = false → value.toList.head? ≠ some '-'

namespace Occurrence

def arguments (o : Occurrence) : List Raw :=
  if o.joined then [.text (o.choice.flag ++ "=" ++ o.value)] else [.text o.choice.flag, .text o.value]

/-- The option with its value, however it is written. -/
def choiceValue (o : Occurrence) : Choice × String := (o.choice, o.value)

end Occurrence

/-- An argument that no line can have: the name of an option that is not known, with or without a
value, or a text that is no option and no value of one. -/
inductive IsStray : Raw → Prop where
  | unknown (name : String) (hname : '=' ∉ name.toList) (hne : name ≠ "")
      (hunknown : name ∉ LongOption.all.map LongOption.name) : IsStray (.text ("--" ++ name))
  | unknownValued (name : String) (hname : '=' ∉ name.toList)
      (hunknown : name ∉ LongOption.all.map LongOption.name) (value : String) :
      IsStray (.text ("--" ++ name ++ "=" ++ value))
  | positional (s : String) (hs : s.toList.head? ≠ some '-') : IsStray (.text s)

/-! ## Arguments and their octets -/

theorem Argument.ofRaw_of_head_ne {s : String} (hs : s.toList.head? ≠ some '-') :
    Argument.ofRaw (.text s) = .plain (.text s) := by
  have hoctets : (Text.octets s).head? ≠ some 0x2d := fun h => hs (Text.head?_toList_of_octets (by decide) h)
  rw [Argument.ofRaw, Raw.octets]
  split
  · simp_all
  · simp_all
  · simp_all
  · rfl

theorem octets_ne_nil {name : String} (hne : name ≠ "") : Text.octets name ≠ [] := by
  intro h
  have htext := Text.text?_octets name
  rw [h] at htext
  exact hne (Option.some.inj htext).symm

theorem octets_hyphens (s : String) : Text.octets ("--" ++ s) = 0x2d :: 0x2d :: Text.octets s := by
  rw [Text.octets_append]
  rfl

theorem ofOctets_octets (s : String) : Raw.ofOctets (Text.octets s) = .text s := by
  rw [Raw.ofOctets, Text.text?_octets]

/-- Two hyphens are followed by a name up to an equals sign, and a value behind it. -/
theorem Argument.ofRaw_hyphens {s name : String} {rest : List UInt8}
    (hs : Text.octets s = 0x2d :: 0x2d :: (Text.octets name ++ rest))
    (hne : Text.octets name ++ rest ≠ []) (hname : '=' ∉ name.toList)
    (hrest : ∀ b ∈ rest.head?, b = equalsSign) :
    Argument.ofRaw (.text s) = .long (.text name) (rest.tail?.map Raw.ofOctets) := by
  have hinside : ∀ b ∈ Text.octets name, (b != equalsSign) = true := by
    intro b hb
    refine bne_iff_ne.2 ?_
    rintro rfl
    exact hname (Text.mem_toList_of_mem_octets (by decide) hb)
  have htake : (Text.octets name ++ rest).takeWhile (· != equalsSign) = Text.octets name := by
    rw [List.takeWhile_append_of_pos hinside]
    cases rest with
    | nil => rw [List.takeWhile_nil, List.append_nil]
    | cons b value =>
        obtain rfl := hrest b rfl
        rw [List.takeWhile_cons_of_neg (by decide), List.append_nil]
  rw [Argument.ofRaw, Raw.octets, hs]
  split
  next heq => exact absurd (List.cons.inj (List.cons.inj heq).2).2 hne
  next heq =>
      obtain rfl := (List.cons.inj (List.cons.inj heq).2).2
      dsimp only
      rw [htake, List.drop_left, ofOctets_octets]
      cases rest <;> rfl
  next hbody heq => exact absurd (List.cons.inj (List.cons.inj heq).2).1 (by simp_all)
  next hbody _ => exact absurd rfl (hbody _)

theorem Argument.ofRaw_long {name : String} (hname : '=' ∉ name.toList) (hne : name ≠ "") :
    Argument.ofRaw (.text ("--" ++ name)) = .long (.text name) none := by
  have hoctets : Text.octets ("--" ++ name) = 0x2d :: 0x2d :: (Text.octets name ++ []) := by
    rw [octets_hyphens, List.append_nil]
  exact Argument.ofRaw_hyphens hoctets (by simpa using octets_ne_nil hne) hname (by simp)

theorem Argument.ofRaw_long_value {name : String} (hname : '=' ∉ name.toList) (value : String) :
    Argument.ofRaw (.text ("--" ++ name ++ "=" ++ value)) = .long (.text name) (some (.text value)) := by
  have hoctets : Text.octets ("--" ++ name ++ "=" ++ value) =
      0x2d :: 0x2d :: (Text.octets name ++ equalsSign :: Text.octets value) := by
    rw [Text.octets_append, Text.octets_append, octets_hyphens, List.append_assoc]
    rfl
  rw [Argument.ofRaw_hyphens hoctets (by simp) hname (by simp), List.tail?_cons, Option.map_some,
    ofOctets_octets]

theorem equals_not_mem_name (c : Choice) : '=' ∉ c.name.toList := by
  cases c <;> decide

/-- An option in one argument has its value with it; in two, it waits for the one that stands alone. -/
theorem Occurrence.map_ofRaw_arguments (o : Occurrence) :
    o.arguments.map Argument.ofRaw =
      if o.joined then [.long (.text o.choice.name) (some (.text o.value))]
      else [.long (.text o.choice.name) none, .plain (.text o.value)] := by
  have hname := equals_not_mem_name o.choice
  unfold Occurrence.arguments Choice.flag
  cases hjoined : o.joined with
  | true => simp only [if_true, List.map_cons, List.map_nil, Argument.ofRaw_long_value hname]
  | false =>
      have hne : o.choice.name ≠ "" := by cases o.choice <;> decide
      simp only [Bool.false_eq_true, if_false, List.map_cons, List.map_nil,
        Argument.ofRaw_long hname hne, Argument.ofRaw_of_head_ne (o.head_ne hjoined)]

theorem LongOption.ofName?_eq_none_iff {name : String} :
    LongOption.ofName? name = none ↔ name ∉ LongOption.all.map LongOption.name := by
  simp only [LongOption.ofName?, List.find?_eq_none, List.mem_map, decide_eq_true_eq, not_exists, not_and]

/-! ## What a line that is read consists of -/

/-- An argument that stands alone. -/
def Argument.isPlain : Argument → Bool
  | .plain _ => true
  | _ => false

/-- An option without its value. -/
def Argument.isBare : Argument → Bool
  | .long _ none => true
  | _ => false

/-- One if an option waits for its value. -/
def Progress.waiting (p : Progress) : Nat :=
  match p.pending with
  | some (_, none) => 1
  | _ => 0

theorem Progress.pending_of_settle {p q : Progress} {c : Choice} {v : Raw}
    (h : Progress.orStop (p.settle c v) = .ok q) : q.pending = p.pending := by
  unfold Progress.settle at h
  split at h
  · cases h
  · cases hfault : valueFault? c v with
    | none =>
        rw [hfault] at h
        cases h
        rfl
    | some s =>
        rw [hfault] at h
        cases h

theorem Progress.of_settlePending {p q : Progress} (h : Progress.orStop p.settlePending = .ok q) :
    p.waiting = 0 ∧ q.pending = none := by
  unfold Progress.settlePending at h
  unfold Progress.waiting
  rcases hp : p.pending with _ | ⟨c, _ | v⟩ <;> simp only [hp] at h ⊢
  · cases h
    exact ⟨trivial, rfl⟩
  · cases h
  · exact ⟨trivial, Progress.pending_of_settle h⟩

theorem bind_eq_ok_iff {ε α β : Type} {x : Except ε α} {f : α → Except ε β} {b : β} :
    (x >>= f) = .ok b ↔ ∃ a, x = .ok a ∧ f a = .ok b := by
  cases x <;> simp [bind, Except.bind]

/-- A long option that is read is known, follows no option that waits, and waits itself if it has no
value. -/
theorem of_readLong {p q : Progress} {name : Raw} {value : Option Raw} (h : readLong p name value = .ok q) :
    (name.text?.bind LongOption.ofName?).isSome ∧ p.waiting = 0 ∧
      q.waiting = if value.isNone then 1 else 0 := by
  unfold readLong at h
  split at h
  next => cases h
  next c v hname =>
      obtain ⟨r, hr, hq⟩ := bind_eq_ok_iff.1 h
      obtain ⟨hwaiting, hpending⟩ := Progress.of_settlePending hr
      refine ⟨by rw [hname, Option.isSome_some], hwaiting, ?_⟩
      rw [Progress.waiting, Progress.pending_of_settle hq, hpending]
      rfl
  next c hname =>
      obtain ⟨r, hr, hq⟩ := bind_eq_ok_iff.1 h
      cases hq
      exact ⟨by rw [hname, Option.isSome_some], (Progress.of_settlePending hr).1, rfl⟩
  next => cases h
  next i hname =>
      obtain ⟨r, hr, hq⟩ := bind_eq_ok_iff.1 h
      cases i <;> cases hq

theorem readLetters_ne_ok {p q : Progress} {bs : List UInt8} : readLetters p bs ≠ .ok q := by
  intro h
  unfold readLetters at h
  dsimp only at h
  split at h
  · obtain ⟨r, hr, hq⟩ := bind_eq_ok_iff.1 h
    cases hq
  · cases h

/-- Every long option of a line that is read is known, and its arguments that stand alone are as many as
its options without a value. -/
theorem of_readFrom {p q : Progress} {trailing : Bool} {args : List Raw}
    (h : readFrom p trailing args = .ok q) :
    (∀ a ∈ args, ∀ name value, Argument.ofRaw a = .long name value →
      (name.text?.bind LongOption.ofName?).isSome) ∧
    (args.map Argument.ofRaw).countP Argument.isPlain =
      (args.map Argument.ofRaw).countP Argument.isBare + p.waiting := by
  induction args generalizing p trailing with
  | nil => exact ⟨fun a ha => absurd ha List.not_mem_nil, by rw [(Progress.of_settlePending h).1]; rfl⟩
  | cons a rest ih =>
      cases trailing with
      | true => cases h
      | false =>
          rw [readFrom, if_neg Bool.false_ne_true] at h
          simp only [List.forall_mem_cons, List.map_cons, List.countP_cons]
          cases ha : Argument.ofRaw a with
          | hyphens =>
              rw [ha] at h
              obtain ⟨hknown, hcount⟩ := ih h
              refine ⟨⟨?_, hknown⟩, ?_⟩
              · rintro name value ⟨⟩
              · simpa [Argument.isPlain, Argument.isBare] using hcount
          | long name value =>
              rw [ha] at h
              cases hread : readLong p name value with
              | error s => simp [hread] at h
              | ok r =>
                  simp only [hread] at h
                  obtain ⟨hknown, hcount⟩ := ih h
                  obtain ⟨hname, hwaiting, hvalue⟩ := of_readLong hread
                  refine ⟨⟨?_, hknown⟩, ?_⟩
                  · rintro name value ⟨⟩
                    exact hname
                  · rw [hcount, hwaiting, hvalue]
                    cases value <;> simp [Argument.isPlain, Argument.isBare]
          | letters bs =>
              rw [ha] at h
              cases hread : readLetters p bs with
              | error s => simp [hread] at h
              | ok r => exact absurd hread readLetters_ne_ok
          | plain v =>
              rw [ha] at h
              dsimp only at h
              split at h
              next c hpending =>
                  obtain ⟨hknown, hcount⟩ := ih h
                  refine ⟨⟨?_, hknown⟩, ?_⟩
                  · rintro name value ⟨⟩
                  · rw [hcount]
                    simp [Progress.waiting, hpending, Argument.isPlain, Argument.isBare]
              next => cases h

theorem Occurrence.countP_arguments (os : List Occurrence) :
    ((os.flatMap Occurrence.arguments).map Argument.ofRaw).countP Argument.isPlain =
      ((os.flatMap Occurrence.arguments).map Argument.ofRaw).countP Argument.isBare := by
  induction os with
  | nil => rfl
  | cons o os ih =>
      rw [List.flatMap_cons, List.map_append, List.countP_append, List.countP_append, ih,
        Occurrence.map_ofRaw_arguments]
      cases o.joined <;> rfl

/-- A stray argument stands alone if it is no option that is unknown. -/
theorem IsStray.ofRaw_eq {a : Raw} (ha : IsStray a)
    (hknown : ∀ name value, Argument.ofRaw a = .long name value →
      (name.text?.bind LongOption.ofName?).isSome) :
    Argument.ofRaw a = .plain a := by
  cases ha with
  | unknown name hname hne hunknown =>
      have hlong := hknown _ _ (Argument.ofRaw_long hname hne)
      rw [Raw.text?, Option.bind_some, LongOption.ofName?_eq_none_iff.2 hunknown] at hlong
      cases hlong
  | unknownValued name hname hunknown value =>
      have hlong := hknown _ _ (Argument.ofRaw_long_value hname value)
      rw [Raw.text?, Option.bind_some, LongOption.ofName?_eq_none_iff.2 hunknown] at hlong
      cases hlong
  | positional s hs => exact Argument.ofRaw_of_head_ne hs

/-- No line is read that has stray arguments besides occurrences of options, wherever they stand. -/
theorem readFrom_ne_ok_of_strays {os : List Occurrence} {strays args : List Raw}
    (hargs : args.Perm (os.flatMap Occurrence.arguments ++ strays)) (hne : strays ≠ [])
    (hstrays : ∀ a ∈ strays, IsStray a) {q : Progress} : readFrom {} false args ≠ .ok q := by
  intro h
  obtain ⟨hknown, hcount⟩ := of_readFrom h
  have halone : ∀ a ∈ strays, Argument.ofRaw a = .plain a := fun a ha =>
    (hstrays a ha).ofRaw_eq (hknown a (hargs.mem_iff.2 (List.mem_append_right _ ha)))
  have hplain : (strays.map Argument.ofRaw).countP Argument.isPlain = strays.length := by
    rw [List.map_congr_left halone, List.countP_map]
    exact List.countP_eq_length.2 fun a _ => rfl
  have hbare : (strays.map Argument.ofRaw).countP Argument.isBare = 0 := by
    rw [List.map_congr_left halone, List.countP_map]
    exact List.countP_eq_zero.2 fun a _ => Bool.false_ne_true
  -- The occurrences are balanced among themselves, so nothing waits for the strays.
  have hbalanced := Occurrence.countP_arguments os
  have hpos := List.length_pos_of_ne_nil hne
  rw [(hargs.map Argument.ofRaw).countP_eq, (hargs.map Argument.ofRaw).countP_eq, List.map_append,
    List.countP_append, List.countP_append, hplain, hbare, hbalanced] at hcount
  change _ = _ + 0 at hcount
  omega

end Menagerie.CommandLine
