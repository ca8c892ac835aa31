import Menagerie.Proofs.Text.Percent
import Menagerie.Server.Calls

/-! What a caller finds in a reply. A call that is refused has its status in the headers of the reply, and
nothing behind them; one that is answered has one message in the body, and the status that says so in the
trailers. A message of a call is read from its frame, unless the frame is too long. -/

namespace Menagerie.Rpc

/-! ### Frames -/

/-- A payload as it stands in a frame. -/
def framed (codec : Option Codec) (payload : List UInt8) : List UInt8 :=
  codec.elim payload fun c => c.pack payload

/-- These octets are one frame with a payload: a flag that says whether it is packed, the length of what
stands there in four octets, the highest first, and that. -/
def IsFrame (codec : Option Codec) (payload bs : List UInt8) : Prop :=
  ∃ a b c d : UInt8, bs = (if codec.isSome then 1 else 0) :: a :: b :: c :: d :: framed codec payload ∧
    ((a.toNat * 256 + b.toNat) * 256 + c.toNat) * 256 + d.toNat = (framed codec payload).length

theorem writeMessage_eq (codec : Option Codec) (payload : List UInt8) :
    writeMessage codec payload = writeFrame (if codec.isSome then 1 else 0) (framed codec payload) := by
  cases codec <;> rfl

theorem isFrame_writeMessage {codec : Option Codec} {payload : List UInt8}
    (h : (framed codec payload).length < UInt32.size) :
    IsFrame codec payload (writeMessage codec payload) := by
  refine ⟨_, _, _, _, ?_, readLength_writeLength h⟩
  rw [writeMessage_eq]
  rfl

/-! ### Refusals and deliveries -/

/-- A caller finds that the call was refused with a status and a message. -/
structure Reply.Refuses (codecs : Coding → Codec) (r : Reply) (status : Nat) (message : String) :
    Prop where
  headers : ∃ text, Text.percentDecode? text = some message ∧
    r.headers = [("content-type", "application/grpc"), ("grpc-status", toString status),
      ("grpc-message", text)]
  body : r.body codecs = []
  trailers : r.trailers = none
  ends : r.ends = true
  failure : r.failure?.isSome = true

/-- A caller finds one message with a payload, packed in the coding that the headers name, and that the call
succeeded. -/
structure Reply.Delivers (codecs : Coding → Codec) (r : Reply) (coding : Option Coding)
    (payload : List UInt8) : Prop where
  headers : r.headers =
    ("content-type", "application/grpc") :: (coding.map fun c => ("grpc-encoding", c.name)).toList
  messages : r.messages = [payload]
  body : IsFrame (coding.map codecs) payload (r.body codecs)
  trailers : r.trailers = some [("grpc-status", "0")]
  ends : r.ends = true
  failure : r.failure? = none

theorem Reply.refuses_refused {codecs : Coding → Codec} {f : Failure} (hmessage : f.message ≠ "")
    (hheaders : f.headers = []) : (refused f).Refuses codecs f.code.number f.message where
  headers := by
    refine ⟨Text.percentEncode f.message, Text.percentDecode?_percentEncode f.message, ?_⟩
    rw [headers, Failure.allHeaders, statusHeaders, if_neg hmessage, hheaders, contentType]
    rfl
  body := rfl
  trailers := rfl
  ends := rfl
  failure := rfl

theorem Reply.delivers_answered {codecs : Coding → Codec} {coding : Option Coding} {payload : List UInt8}
    (h : (framed (coding.map codecs) payload).length < UInt32.size) :
    (answered coding [payload] .complete).Delivers codecs coding payload where
  headers := by cases coding <;> rfl
  messages := rfl
  body := by
    rw [body, List.flatMap_singleton]
    exact isFrame_writeMessage h
  trailers := rfl
  ends := rfl
  failure := rfl

theorem Reply.succeeds_ofResult (coding : Option Coding) (result : Except Failure (List UInt8)) :
    decide ((ofResult coding .complete result).trailers = some [("grpc-status", "0")]) = result.isOk := by
  cases result <;> rfl

/-! ### Failures have messages -/

theorem append_ne_empty {s : String} (h : s ≠ "") (t : String) : s ++ t ≠ "" := by
  rw [ne_eq, String.append_eq_empty_iff]
  exact fun hboth => h hboth.1

theorem Failure.message_undecodable_ne (fault : Wire.Fault) : (undecodable fault).message ≠ "" := by
  have hstem : "failed to decode Protobuf message: " ≠ "" := by decide +kernel
  exact append_ne_empty (append_ne_empty hstem _) _

theorem Failure.message_tooLong (length : Nat) :
    (tooLong length).message = "Error, decoded message length too large: found " ++ toString length ++
      " bytes, the limit is: 4194304 bytes" := by
  have hlimit : " bytes, " ++ ("the limit is: " ++ toString lengthLimit ++ " bytes") =
      " bytes, the limit is: 4194304 bytes" := by decide +kernel
  rw [← hlimit, ← String.append_assoc]
  rfl

theorem Failure.message_tooLong_ne (length : Nat) : (tooLong length).message ≠ "" := by
  have hstem : "Error, decoded message length too large: found " ≠ "" := by decide +kernel
  exact append_ne_empty (append_ne_empty (append_ne_empty hstem _) _) _

theorem Failure.message_refused_ne (r : Refusal) : (refused r).message ≠ "" := by
  have hstem : "Pet not found: " ≠ "" := by decide +kernel
  cases r with
  | notFound id => exact append_ne_empty hstem id
  | blankName => exact (by decide +kernel : "Pet name must not be empty" ≠ "")

/-! ### The message of a call -/

/-- The headers of a call say in which coding its messages may be packed; those that name none, or name
that of messages as they are, say in none. -/
inductive Announces (headers : Headers) : Option Coding → Prop
  | absent (h : headers.find? "grpc-encoding" = none) : Announces headers none
  | identity (h : headers.find? "grpc-encoding" = some "identity") : Announces headers none
  | coding {c : Coding} (h : headers.find? "grpc-encoding" = some c.name) : Announces headers (some c)

theorem Announces.announced_eq {headers : Headers} {coding : Option Coding} (h : Announces headers coding) :
    Coding.announced Coding.all headers = .ok coding := by
  cases h with
  | absent h => rw [Coding.announced, Coding.header, h]
  | identity h =>
      rw [Coding.announced, Coding.header, h]
      rfl
  | @coding c h =>
      rw [Coding.announced, Coding.header, h]
      cases c <;> rfl

section

variable {codecs : Coding → Codec} {coding packing : Option Coding} {payload body : List UInt8}

/-- A frame that is packed in the coding of a call, or not packed, can be unpacked. -/
theorem exists_unpacker (codecs : Coding → Codec) (hpacking : packing = none ∨ packing = coding)
    (payload : List UInt8) :
    ∃ unpack, unpacker (coding.map codecs) (if (packing.map codecs).isSome then 1 else 0) = .ok unpack ∧
      unpack (framed (packing.map codecs) payload) = .ok payload := by
  rcases hpacking with rfl | rfl
  · exact ⟨.ok, rfl, rfl⟩
  · cases packing with
    | none => exact ⟨.ok, rfl, rfl⟩
    | some c =>
        refine ⟨_, rfl, ?_⟩
        exact congrArg (Except.mapError Failure.unpacking) ((codecs c).unpack_pack payload)

theorem readMessages_of_isFrame (hpacking : packing = none ∨ packing = coding)
    (hbody : IsFrame (packing.map codecs) payload body) :
    readMessages (coding.map codecs) body =
      if lengthLimit < (framed (packing.map codecs) payload).length then
        ⟨[], some (.tooLong (framed (packing.map codecs) payload).length)⟩
      else ⟨[payload], none⟩ := by
  obtain ⟨unpack, hflag, hunpack⟩ := exists_unpacker codecs hpacking payload
  obtain ⟨a, b, c, d, rfl, hlength⟩ := hbody
  have hlength : readLength a b c d = (framed (packing.map codecs) payload).length := hlength
  rw [readMessages, hflag]
  simp only [hlength]
  by_cases hlong : lengthLimit < (framed (packing.map codecs) payload).length
  · rw [if_pos hlong, if_pos hlong]
  · rw [if_neg hlong, if_neg hlong, if_neg (Nat.lt_irrefl _), List.take_length, hunpack, List.drop_length,
      readMessages]

theorem Messages.single_mapError {α : Type} (read : List UInt8 → Except Wire.Fault α)
    (content : List UInt8) :
    Messages.single read ⟨[content], none⟩ = (read content).mapError .undecodable := by
  simp only [single, decode, decodeFrom]
  cases read content <;> rfl

/-- A call whose body is one frame is read as what the payload is read as, unless the frame is too long. -/
theorem Call.single_of_isFrame {α : Type} (read : List UInt8 → Except Wire.Fault α) {c : Call}
    (hcoding : Announces c.headers coding) (hpacking : packing = none ∨ packing = coding)
    (hbody : IsFrame (packing.map codecs) payload c.body) :
    c.single codecs Coding.all read =
      if lengthLimit < (framed (packing.map codecs) payload).length then
        .error (.tooLong (framed (packing.map codecs) payload).length)
      else (read payload).mapError .undecodable := by
  simp only [single, received, hcoding.announced_eq, readMessages_of_isFrame hpacking hbody]
  by_cases hlong : lengthLimit < (framed (packing.map codecs) payload).length
  · rw [if_pos hlong, if_pos hlong]
    rfl
  · rw [if_neg hlong, if_neg hlong]
    exact Messages.single_mapError read payload

end

theorem Messages.exists_of_single {α : Type} {read : List UInt8 → Except Wire.Fault α} {ms : Messages}
    {a : α} (h : ms.single read = .ok a) : ∃ content, read content = .ok a := by
  obtain ⟨contents, failure⟩ := ms
  rw [single, decode] at h
  cases contents with
  | nil => cases failure <;> cases h
  | cons content rest =>
      refine ⟨content, ?_⟩
      simp only [decodeFrom] at h
      cases hread : read content with
      | error f =>
          rw [hread] at h
          cases h
      | ok a' =>
          simp only [hread] at h
          split at h
          · cases h
          · next heq =>
              cases heq
          · next heq =>
              obtain ⟨hlist, -⟩ := Prod.mk.inj heq
              obtain ⟨rfl, -⟩ := List.cons.inj hlist
              exact congrArg Except.ok (Except.ok.inj h)

theorem Call.exists_of_single {α : Type} {codecs : Coding → Codec} {known : List Coding}
    {read : List UInt8 → Except Wire.Fault α} {c : Call} {a : α} (h : c.single codecs known read = .ok a) :
    ∃ content, read content = .ok a := by
  rw [single] at h
  split at h
  · cases h
  · exact Messages.exists_of_single h

end Menagerie.Rpc
