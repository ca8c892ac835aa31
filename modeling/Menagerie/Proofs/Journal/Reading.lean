import Menagerie.Journal.Replay
import Menagerie.Proofs.Text.JsonReader

/-! A log of records is read back: every entry that passes is one line, and the line says what the entry
says, whatever characters are in it. -/

namespace Menagerie

open Text Text.JsonReader

theorem isWord_nat (n : Nat) : IsWord (toString n) where
  ne_empty h := Nat.toDigits_ne_nil (String.ofList_eq_empty_iff.mp h)
  plain c hc := by
    have hdigits : (toString n).toList = Nat.toDigits 10 n := String.toList_ofList
    rw [hdigits] at hc
    have hdigit := Nat.isDigit_of_mem_toDigits (by decide) (by decide) hc
    exact .inl (by simp [Char.isAlphanum, hdigit])

theorem isWord_int (n : Int) : IsWord (toString n) := by
  cases n with
  | ofNat n => exact isWord_nat n
  | negSucc n =>
      have hsign : toString (Int.negSucc n) = "-" ++ toString (n + 1) := rfl
      have hminus : "-".toList = ['-'] := rfl
      rw [hsign]
      refine ⟨by simp, fun c hc => ?_⟩
      rw [String.toList_append, hminus, List.singleton_append] at hc
      rcases List.mem_cons.mp hc with rfl | hc
      · exact .inr rfl
      · exact (isWord_nat (n + 1)).plain c hc

theorem isWord_bool (b : Bool) : IsWord (toString b) := by
  have hletters : (toString b).toList.all Char.isAlphanum = true := by
    cases b <;> decide
  refine ⟨?_, fun c hc => .inl (List.all_eq_true.mp hletters c hc)⟩
  cases b <;> decide

namespace Journal

variable {depth : Nat}

theorem Value.reads_json (v : Value) : Reads (readValue (depth + 1)) v.json v.asJson := by
  cases v with
  | quoted s => exact reads_text s
  | bare s => exact reads_text s
  | number n => exact reads_word (isWord_int n)
  | flag b => exact reads_word (isWord_bool b)

/-- The members of an object are read by themselves, under the names that they are written with. -/
def ReadsMember (depth : Nat) (f : String × String) (m : String × Json) : Prop :=
  f.1 = m.1 ∧ Reads (readValue depth) f.2 m.2

theorem Values.reads_json (vs : Values) :
    List.Forall₂ (ReadsMember (depth + 1)) (Values.json vs) (Values.asJson vs) := by
  rw [Values.json, Values.asJson, List.forall₂_map_left_iff, List.forall₂_map_right_iff]
  exact List.forall₂_same.mpr fun v _ => ⟨rfl, v.2.reads_json⟩

theorem Span.reads_json (s : Span) : Reads (readValue (depth + 2)) s.json s.asJson :=
  reads_object (List.rel_append (Values.reads_json s.values) (.cons ⟨rfl, reads_text s.name⟩ .nil))

theorem Entry.reads_record (time : String) (e : Entry) :
    Reads (readValue (depth + 4)) (JsonText.object (("timestamp", JsonText.text time) :: e.recordFields))
      (e.asJson time) := by
  have hfields : Reads (readValue (depth + 3))
      (JsonText.object (("message", JsonText.text e.event.message) :: e.event.values.json))
      (.object (("message", .text e.event.message) :: Values.asJson e.event.values)) :=
    reads_object (.cons ⟨rfl, reads_text _⟩ (Values.reads_json e.event.values))
  refine reads_object (.cons ⟨rfl, reads_text time⟩ (List.rel_append
    (.cons ⟨rfl, reads_text _⟩ (.cons ⟨rfl, hfields⟩ (.cons ⟨rfl, reads_text _⟩ .nil))) ?_))
  cases e.spans.getLast? with
  | none => exact .nil
  | some s =>
      have hspans : List.Forall₂ (Reads (readValue (depth + 2))) (e.spans.map Span.json)
          (e.spans.map Span.asJson) := by
        rw [List.forall₂_map_left_iff, List.forall₂_map_right_iff]
        exact List.forall₂_same.mpr fun s _ => s.reads_json
      exact .cons ⟨rfl, s.reads_json⟩ (.cons ⟨rfl, reads_list hspans⟩ .nil)

end Journal

/-- **A log of records says what happened.** Every entry that passes the filter is one line, read as the
record of the entry. -/
theorem Logging.readLines_write {l : Logging} (hstyle : l.style = .records) (time : String)
    (es : List Journal.Entry) :
    readLines (l.write time es) = some ((l.passed es).map (Journal.Entry.asJson time)) := by
  have hreads : List.Forall₂ (Reads (readValue nestingLimit))
      ((l.passed es).map fun e => JsonText.object (("timestamp", JsonText.text time) :: e.recordFields))
      ((l.passed es).map (Journal.Entry.asJson time)) := by
    rw [List.forall₂_map_left_iff, List.forall₂_map_right_iff]
    exact List.forall₂_same.mpr fun e _ => e.reads_record time
  have hread := readLines_join hreads
  rw [List.map_map] at hread
  rw [write, hstyle]
  exact hread

end Menagerie
