import Menagerie.Proofs.Pet.Calls
import Menagerie.Proofs.Rpc.Reply
import Menagerie.Proofs.Server.Composition
import Menagerie.Rpc.Gzip

/-! A server with the three services answers a call about pets with what its pets answer the request that the
call stands for. A call that stands for none, or whose frame is too long, changes nothing and is refused.
What holds of the pets of a server therefore holds after any calls, whatever their octets. -/

namespace Menagerie

/-! ### Paths -/

/-- The path of a method about pets. -/
def PetMethod.path : PetMethod → String
  | get => "/pet.v1.PetStoreService/GetPet"
  | put => "/pet.v1.PetStoreService/PutPet"
  | delete => "/pet.v1.PetStoreService/DeletePet"

theorem PetMethod.path_eq (m : PetMethod) : m.path = "/pet.v1.PetStoreService/" ++ m.name := by
  cases m <;> decide +kernel

theorem PetMethod.path_inj {m m' : PetMethod} : m.path = m'.path ↔ m = m' := by
  cases m <;> cases m' <;> decide +kernel

theorem PetMethod.ofName?_name (m : PetMethod) : ofName? m.name = some m := by
  cases m <;> decide +kernel

theorem PetMethod.name_of_ofName? {name : String} {m : PetMethod} (h : ofName? name = some m) :
    m.name = name := by
  have hfound := List.find?_some h
  exact of_decide_eq_true hfound

theorem Service.method?_append (s : Service) (name : String) :
    s.method? ("/" ++ s.path ++ "/" ++ name) = some name := by
  have happend : ("/" ++ s.path ++ "/" ++ name).toList = ("/" ++ s.path ++ "/").toList ++ name.toList :=
    String.toList_append
  have hprefix : ("/" ++ s.path ++ "/").toList.isPrefixOf
      (("/" ++ s.path ++ "/").toList ++ name.toList) = true :=
    List.isPrefixOf_iff_prefix.mpr (List.prefix_append _ _)
  rw [method?, happend, if_pos hprefix, List.drop_left, String.ofList_toList]

theorem Service.eq_of_method? {s : Service} {path name : String} (h : s.method? path = some name) :
    path = "/" ++ s.path ++ "/" ++ name := by
  rw [method?] at h
  split at h
  · next hprefix =>
      obtain ⟨rest, hrest⟩ := List.isPrefixOf_iff_prefix.mp hprefix
      obtain rfl := Option.some.inj h
      rw [← String.toList_inj, String.toList_append, ← hrest, List.drop_left, String.toList_ofList]
  · cases h

/-- The services of a server that was composed of pets, health and reflection. -/
def Routes.Standard (r : Routes) : Prop :=
  r.services = Registration.standard.flatMap Registration.services

theorem Routes.Standard.services_eq {r : Routes} (h : r.Standard) : ∃ catalogue,
    r.services = [⟨"grpc.reflection.v1.ServerReflection", .reflection catalogue⟩,
      ⟨"grpc.health.v1.Health", .health⟩, ⟨"pet.v1.PetStoreService", .pets⟩] := by
  obtain ⟨catalogue, hreflection⟩ := Registration.reflection_eq
  rw [Standard, Registration.standard, hreflection, Registration.health_eq, Registration.pets_eq] at h
  exact ⟨catalogue, h⟩

/-- The path of a method about pets leads to the pets. -/
theorem Routes.Standard.locate?_path {r : Routes} (h : r.Standard) (m : PetMethod) :
    r.locate? m.path = some (⟨"pet.v1.PetStoreService", .pets⟩, m.name) := by
  obtain ⟨catalogue, hservices⟩ := h.services_eq
  have hstem : "/" ++ "pet.v1.PetStoreService" ++ "/" = "/pet.v1.PetStoreService/" := by decide +kernel
  have hpets := Service.method?_append ⟨"pet.v1.PetStoreService", .pets⟩ m.name
  rw [hstem] at hpets
  have hother : ∀ path ∈ ["grpc.reflection.v1.ServerReflection", "grpc.health.v1.Health"],
      ("/" ++ path ++ "/").toList.isPrefixOf ("/pet.v1.PetStoreService/" ++ m.name).toList = false := by
    cases m <;> decide +kernel
  have hhealth : Service.method? ⟨"grpc.health.v1.Health", .health⟩
      ("/pet.v1.PetStoreService/" ++ m.name) = none := by
    rw [Service.method?, hother _ (by simp)]
    rfl
  have hreflect : Service.method? ⟨"grpc.reflection.v1.ServerReflection", .reflection catalogue⟩
      ("/pet.v1.PetStoreService/" ++ m.name) = none := by
    rw [Service.method?, hother _ (by simp)]
    rfl
  rw [locate?, hservices, m.path_eq]
  simp only [List.findSome?_cons, hreflect, hhealth, hpets, Option.map_none, Option.map_some]

/-- A path that leads to the pets is that of what it names there. -/
theorem Routes.Standard.eq_of_locate? {r : Routes} (h : r.Standard) {path name : String} {s : Service}
    (hlocate : r.locate? path = some (s, name)) (hpets : s.endpoint = .pets) :
    path = "/pet.v1.PetStoreService/" ++ name := by
  obtain ⟨catalogue, hservices⟩ := h.services_eq
  obtain ⟨s', hmem, hmethod⟩ := List.exists_of_findSome?_eq_some hlocate
  obtain ⟨name', hname, heq⟩ := Option.map_eq_some_iff.mp hmethod
  obtain ⟨rfl, rfl⟩ := Prod.mk.inj heq
  have hpath := Service.eq_of_method? hname
  rw [hservices] at hmem
  simp only [List.mem_cons, List.not_mem_nil, or_false] at hmem
  rcases hmem with rfl | rfl | rfl
  · cases hpets
  · cases hpets
  · have hstem : "/" ++ "pet.v1.PetStoreService" ++ "/" = "/pet.v1.PetStoreService/" := by decide +kernel
    rw [hpath, hstem]

/-! ### One call -/

namespace ServerState

variable {ids : Nat → String} {codecs : Rpc.Coding → Rpc.Codec} {state : ServerState} {c : Rpc.Call}

/-- A call of a method about pets is answered with what the pets answer what is read as its request. -/
theorem answer_of_target (hroutes : state.routes.Standard) {m : PetMethod} (htarget : c.target = m.path)
    {request : Except Rpc.Failure PetRequest}
    (hrequest : (c.single codecs Rpc.Coding.all fun payload => m.read payload) = request) :
    state.answer ids codecs c =
      (.ofResult (Rpc.Coding.accepted Rpc.Coding.all c.headers) .complete (state.pets.reply ids request).1,
        { state with pets := (state.pets.reply ids request).2 }) := by
  simp only [answer, htarget, hroutes.locate?_path, Endpoint.codings, PetMethod.ofName?_name,
    PetService.replyTo, hrequest]

/-- Other calls leave a server as it is. -/
theorem answer_of_ne (hroutes : state.routes.Standard) (h : ∀ m, c.target ≠ PetMethod.path m) :
    (state.answer ids codecs c).2 = state := by
  cases hlocate : state.routes.locate? c.target with
  | none => simp only [answer, hlocate]
  | some found =>
      obtain ⟨service, name⟩ := found
      cases hendpoint : service.endpoint with
      | health => simp only [answer, hlocate, hendpoint]
      | reflection catalogue => simp only [answer, hlocate, hendpoint]
      | pets =>
          cases hname : PetMethod.ofName? name with
          | none => simp only [answer, hlocate, hendpoint, hname]
          | some m =>
              refine absurd ?_ (h m)
              rw [hroutes.eq_of_locate? hlocate hendpoint, m.path_eq, PetMethod.name_of_ofName? hname]

theorem routes_answer (hroutes : state.routes.Standard) :
    (state.answer ids codecs c).2.routes = state.routes := by
  by_cases hpets : ∃ m, c.target = PetMethod.path m
  · obtain ⟨m, htarget⟩ := hpets
    rw [answer_of_target hroutes htarget rfl]
  · rw [answer_of_ne hroutes (not_exists.mp hpets)]

/-- Whether a call was one of a method, and the caller finds that it succeeded. -/
def grants (m : PetMethod) (c : Rpc.Call) (reply : Rpc.Reply) : Bool :=
  c.target = m.path && reply.trailers = some [("grpc-status", "0")]

/-- A call does to the pets what the method does by which it succeeded. -/
theorem exists_called (hroutes : state.routes.Standard) (ids : Nat → String)
    (codecs : Rpc.Coding → Rpc.Codec) (c : Rpc.Call) :
    ∃ granted, state.pets.Called ids granted (state.answer ids codecs c).2.pets ∧
      ∀ m, grants m c (state.answer ids codecs c).1 = decide (granted = some m) := by
  by_cases hpets : ∃ m, c.target = PetMethod.path m
  · obtain ⟨m, htarget⟩ := hpets
    generalize hrequest : (c.single codecs Rpc.Coding.all fun payload => m.read payload) = request
    have hmethod : ∀ r, request = .ok r → r.method = m := by
      rintro r rfl
      obtain ⟨payload, hread⟩ := Rpc.Call.exists_of_single hrequest
      exact PetMethod.method_of_read hread
    rw [answer_of_target hroutes htarget hrequest]
    refine ⟨_, PetService.called_reply ids state.pets hmethod, fun m' => ?_⟩
    rw [grants, htarget, Rpc.Reply.succeeds_ofResult]
    cases (state.pets.reply ids request).1.isOk with
    | false => simp
    | true => simp [PetMethod.path_inj]
  · rw [answer_of_ne hroutes (not_exists.mp hpets)]
    refine ⟨none, .failed, fun m => ?_⟩
    rw [grants, decide_eq_false (not_exists.mp hpets m)]
    rfl

/-! ### Many calls -/

/-- How many calls of a method succeeded. -/
def granted (m : PetMethod) (calls : List Rpc.Call) (replies : List Rpc.Reply) : Nat :=
  (calls.zip replies).countP fun e => grants m e.1 e.2

theorem granted_cons (m : PetMethod) (c : Rpc.Call) (calls : List Rpc.Call) (reply : Rpc.Reply)
    (replies : List Rpc.Reply) :
    granted m (c :: calls) (reply :: replies) =
      granted m calls replies + if grants m c reply then 1 else 0 := List.countP_cons

theorem drawn_le_after (hroutes : state.routes.Standard) (ids : Nat → String)
    (codecs : Rpc.Coding → Rpc.Codec) (calls : List Rpc.Call) :
    state.pets.drawn ≤ (state.after ids codecs calls).pets.drawn := by
  induction calls generalizing state with
  | nil => exact Nat.le_refl _
  | cons c rest ih =>
      obtain ⟨_, hcalled, -⟩ := exists_called hroutes ids codecs c
      exact Nat.le_trans hcalled.drawn_le (ih (routes_answer hroutes ▸ hroutes))

theorem routes_after (hroutes : state.routes.Standard) (calls : List Rpc.Call) :
    (state.after ids codecs calls).routes = state.routes := by
  induction calls generalizing state with
  | nil => rfl
  | cons c rest ih => exact (ih (routes_answer hroutes ▸ hroutes)).trans (routes_answer hroutes)

theorem sound_after (hroutes : state.routes.Standard) (h : state.pets.Sound) (calls : List Rpc.Call) :
    (state.after ids codecs calls).pets.Sound := by
  induction calls generalizing state with
  | nil => exact h
  | cons c rest ih =>
      obtain ⟨_, hcalled, -⟩ := exists_called hroutes ids codecs c
      exact ih (routes_answer hroutes ▸ hroutes) (hcalled.sound h)

/-- If the ids drawn in calls are new, a server has afterwards the pets it had, and those that were put and
not deleted. -/
theorem size_after (hroutes : state.routes.Standard) {calls : List Rpc.Call}
    (hids : Set.InjOn ids (Set.Ico state.pets.drawn (state.after ids codecs calls).pets.drawn))
    (hfresh : ∀ n ∈ Set.Ico state.pets.drawn (state.after ids codecs calls).pets.drawn,
      state.pets.store.get? (ids n) = none) :
    (state.after ids codecs calls).pets.store.size +
        granted .delete calls (state.answerAll ids codecs calls) =
      state.pets.store.size + granted .put calls (state.answerAll ids codecs calls) := by
  -- What the first call does to the size is added to what the others do, which start with newer ids.
  induction calls generalizing state with
  | nil => rfl
  | cons c rest ih =>
      have hnext : (state.answer ids codecs c).2.routes.Standard := routes_answer hroutes ▸ hroutes
      obtain ⟨method, hcalled, hgrants⟩ := exists_called hroutes ids codecs c
      have hlast := drawn_le_after hnext ids codecs rest
      have hstep := hcalled.size fun hdrawn =>
        hfresh state.pets.drawn ⟨Nat.le_refl _, Nat.lt_of_lt_of_le hdrawn hlast⟩
      have hrest := ih hnext (hids.mono (Set.Ico_subset_Ico_left hcalled.drawn_le))
        (hcalled.fresh hids hfresh hlast)
      have hsize : (state.after ids codecs (c :: rest)).pets.store.size =
          ((state.answer ids codecs c).2.after ids codecs rest).pets.store.size := rfl
      rw [answerAll_cons, granted_cons, granted_cons, hgrants, hgrants, hsize]
      simp only [decide_eq_true_eq]
      omega

end ServerState

/-! ### Calls with octets -/

/-- A call is one of a method, and its body one frame of this size with a payload, packed in the coding that
the headers name or not packed. -/
structure PetMethod.Sends (codecs : Rpc.Coding → Rpc.Codec) (m : PetMethod) (payload : List UInt8)
    (size : Nat) (c : Rpc.Call) : Prop where
  target : c.target = m.path
  body : ∃ coding packing, Rpc.Announces c.headers coding ∧ (packing = none ∨ packing = coding) ∧
    Rpc.IsFrame (packing.map codecs) payload c.body ∧
    (Rpc.framed (packing.map codecs) payload).length = size

/-- What comes of a call that sends a payload in a frame of a size and accepts a packed response: a reply,
and the service `after`. -/
structure PetService.Served (ids : Nat → String) (codecs : Rpc.Coding → Rpc.Codec) (s : PetService)
    (m : PetMethod) (payload : List UInt8) (size : Nat) (accepted : Option Rpc.Coding) (reply : Rpc.Reply)
    (after : PetService) : Prop where
  /-- A frame that is too long is not looked at. -/
  tooLong : 4194304 < size →
    after = s ∧
      reply.Refuses codecs 11 ("Error, decoded message length too large: found " ++ toString size ++
        " bytes, the limit is: 4194304 bytes")
  undecodable : size ≤ 4194304 → ∀ fault, m.read payload = .error fault →
    after = s ∧ reply.Refuses codecs 13 fault.message
  /-- Any other has the effect of the request and its status; if it succeeds, the octets delivered are read
  as the response. -/
  decoded : size ≤ 4194304 → ∀ r, m.read payload = .ok r →
    r.method = m ∧ ∀ result store, s.store.answer (ids s.drawn) r = (result, store) →
      after = ⟨store, if r.drawsId then s.drawn + 1 else s.drawn⟩ ∧
      (∀ id, result = .error (.notFound id) → reply.Refuses codecs 5 ("Pet not found: " ++ id)) ∧
      (result = .error .blankName → reply.Refuses codecs 3 "Pet name must not be empty") ∧
      (∀ response, result = .ok response →
        ((Rpc.framed (accepted.map codecs) response.encode).length < UInt32.size →
          reply.Delivers codecs accepted response.encode) ∧
        (response.encode.length < UInt64.size → m.readResponse response.encode = .ok response))

namespace PetService

variable {ids : Nat → String} {codecs : Rpc.Coding → Rpc.Codec} {s : PetService} {m : PetMethod}
  {payload : List UInt8} {size : Nat} {accepted : Option Rpc.Coding}

/-- The reply to what was read as a request. -/
abbrev replied (ids : Nat → String) (s : PetService) (accepted : Option Rpc.Coding)
    (request : Except Rpc.Failure PetRequest) : Rpc.Reply :=
  .ofResult accepted .complete (s.reply ids request).1

theorem refuses_of_refused {r : PetRequest} {f : Refusal} {store : Store}
    (h : s.store.answer (ids s.drawn) r = (.error f, store)) :
    (s.replied ids accepted (.ok r)).Refuses codecs (Rpc.Failure.refused f).code.number f.message := by
  rw [replied, reply_of_refused h]
  exact Rpc.Reply.refuses_refused (Rpc.Failure.message_refused_ne f) rfl

theorem served_tooLong (h : Rpc.lengthLimit < size) :
    s.Served ids codecs m payload size accepted (s.replied ids accepted (.error (.tooLong size)))
      (s.reply ids (.error (.tooLong size))).2 where
  tooLong _ := by
    rw [← Rpc.Failure.message_tooLong]
    exact ⟨rfl, Rpc.Reply.refuses_refused (Rpc.Failure.message_tooLong_ne size) rfl⟩
  undecodable hsize := absurd h (Nat.not_lt.mpr hsize)
  decoded hsize := absurd h (Nat.not_lt.mpr hsize)

theorem served_of_le (h : size ≤ Rpc.lengthLimit) :
    s.Served ids codecs m payload size accepted
      (s.replied ids accepted ((m.read payload).mapError .undecodable))
      (s.reply ids ((m.read payload).mapError .undecodable)).2 where
  tooLong hsize := absurd hsize (Nat.not_lt.mpr h)
  undecodable _ fault hread := by
    rw [hread]
    exact ⟨rfl, Rpc.Reply.refuses_refused (Rpc.Failure.message_undecodable_ne fault) rfl⟩
  decoded _ r hread := by
    obtain rfl := PetMethod.method_of_read hread
    rw [hread]
    refine ⟨rfl, fun result store hanswer => ⟨?_, ?_, ?_, ?_⟩⟩
    · cases result with
      | error f => exact congrArg Prod.snd (reply_of_refused hanswer)
      | ok response => exact congrArg Prod.snd (reply_of_ok hanswer)
    · rintro id rfl
      exact refuses_of_refused hanswer
    · rintro rfl
      exact refuses_of_refused hanswer
    · rintro response rfl
      refine ⟨fun hlength => ?_, (Store.Answered.of_eq hanswer).readResponse_encode⟩
      change (s.replied ids accepted (.ok r)).Delivers codecs accepted response.encode
      rw [replied, reply_of_ok hanswer]
      exact Rpc.Reply.delivers_answered hlength

end PetService

theorem ComposedServer.answer_sends {server : ComposedServer} (hroutes : server.routes.Standard)
    (ids : Nat → String) (s : PetService) {codecs : Rpc.Coding → Rpc.Codec} {m : PetMethod}
    {payload : List UInt8} {size : Nat} {c : Rpc.Call} (h : m.Sends codecs payload size c) :
    ∃ reply after, (server.keeping s).answer ids codecs c = (reply, server.keeping after) ∧
      s.Served ids codecs m payload size (Rpc.Coding.accepted Rpc.Coding.all c.headers) reply after := by
  obtain ⟨coding, packing, hcoding, hpacking, hbody, rfl⟩ := h.body
  have hsingle := Rpc.Call.single_of_isFrame (fun payload => m.read payload) hcoding hpacking hbody
  refine ⟨_, _, ServerState.answer_of_target hroutes h.target hsingle, ?_⟩
  by_cases hlong : Rpc.lengthLimit < (Rpc.framed (packing.map codecs) payload).length
  · rw [if_pos hlong]
    exact PetService.served_tooLong hlong
  · rw [if_neg hlong]
    exact PetService.served_of_le (Nat.not_lt.mp hlong)

/-- A call of a method with a payload that is not packed. -/
def PetMethod.call (m : PetMethod) (payload : List UInt8) : Rpc.Call :=
  ⟨m.path, [], Rpc.writeMessage none payload⟩

theorem PetMethod.target_path (m : PetMethod) :
    String.ofList (m.path.toList.takeWhile (· ≠ '?')) = m.path := by
  cases m <;> decide +kernel

theorem PetMethod.sends_call (codecs : Rpc.Coding → Rpc.Codec) (m : PetMethod) {payload : List UInt8}
    (h : payload.length < UInt32.size) : m.Sends codecs payload payload.length (m.call payload) where
  target := m.target_path
  body := ⟨none, none, .absent rfl, .inl rfl, Rpc.isFrame_writeMessage h, rfl⟩

theorem ServerState.eq_keeping {server : ComposedServer} {state : ServerState}
    (h : state.routes = server.routes) : state = server.keeping state.pets := by
  rw [ComposedServer.keeping, ← h]

/-- **Calls with octets agree with requests.** Every request has octets that stand for it, provided that a
machine can count them. A server with the three services answers a call that sends them in a frame, packed
or not, as its pets answer the request: it changes what the request changes, and is refused as the request
is, with the status in the headers; if it succeeds, one message is delivered, of octets that are read as
the response. Octets that stand for no request of the method fail with an internal error, and nothing
changes; nor does it in a frame that is too long, whatever stands in it. Whatever calls come, pets therefore
stand under their ids with names that show, and if the ids drawn are new, there are as many as were put and
not deleted. -/
theorem calls_with_octets :
    (∀ r : PetRequest, r.encode.length < UInt64.size → PetMethod.read r.encode r.method = .ok r) ∧
    (∀ codecs (m : PetMethod) payload, payload.length < UInt32.size →
      m.Sends codecs payload payload.length (m.call payload)) ∧
    ∃ server, (compose Registration.standard).result = .ok server ∧
      ∀ (ids : Nat → String) (codecs : Rpc.Coding → Rpc.Codec) (s : PetService),
        (∀ (m : PetMethod) payload size c, m.Sends codecs payload size c →
          ∃ reply after, (server.keeping s).answer ids codecs c = (reply, server.keeping after) ∧
            s.Served ids codecs m payload size (Rpc.Coding.accepted Rpc.Coding.all c.headers) reply after) ∧
        (∀ calls, ∃ after, (server.keeping s).after ids codecs calls = server.keeping after ∧
          (∀ more, (server.keeping s).answerAll ids codecs (calls ++ more) =
            (server.keeping s).answerAll ids codecs calls ++
              (server.keeping after).answerAll ids codecs more) ∧
          (s.Sound → after.Sound) ∧
          (Set.InjOn ids (Set.Ico s.drawn after.drawn) →
            (∀ n ∈ Set.Ico s.drawn after.drawn, s.store.get? (ids n) = none) →
            after.store.size +
                ServerState.granted .delete calls ((server.keeping s).answerAll ids codecs calls) =
              s.store.size +
                ServerState.granted .put calls ((server.keeping s).answerAll ids codecs calls))) := by
  obtain ⟨server, hserver, -, hroutes⟩ := exists_composed_standard
  refine ⟨PetRequest.read_encode, fun codecs m payload => m.sends_call codecs, server, hserver,
    fun ids codecs s => ⟨fun m payload size c => ComposedServer.answer_sends hroutes ids s, fun calls => ?_⟩⟩
  have hstandard : (server.keeping s).routes.Standard := hroutes
  have hafter : (server.keeping s).after ids codecs calls =
      server.keeping ((server.keeping s).after ids codecs calls).pets :=
    ServerState.eq_keeping (ServerState.routes_after hstandard calls)
  refine ⟨_, hafter, fun more => ?_, fun hs => ServerState.sound_after hstandard hs calls,
    ServerState.size_after hstandard⟩
  rw [← hafter]
  exact ServerState.answerAll_append ids codecs _ calls more

/-- A put with a field that nobody knows. -/
def strayPayload : List UInt8 := [8, 2, 18, 3, 82, 101, 120, 152, 6, 1]

theorem read_strayPayload : PetMethod.read strayPayload .put = .ok (.put ⟨2, "Rex"⟩) := by
  decide +kernel

/-- The put in the gzip format. -/
def strayPut : Rpc.Call :=
  ⟨PetMethod.put.path, [("grpc-encoding", "gzip")], Rpc.writeMessage (some .stored) strayPayload⟩

theorem sends_strayPut : PetMethod.put.Sends (fun _ => .stored) strayPayload 33 strayPut where
  target := PetMethod.put.target_path
  body := by
    have hlength : (Rpc.framed (some .stored) strayPayload).length = 33 := by decide +kernel
    refine ⟨some .gzip, some .gzip, .coding rfl, .inr rfl, Rpc.isFrame_writeMessage ?_, hlength⟩
    exact hlength.trans_lt (by decide)

/-- More octets than a frame may have. -/
def longOctets : List UInt8 := List.replicate 4194305 0

theorem length_longOctets : longOctets.length = 4194305 := List.length_replicate

theorem length_longOctets_lt : longOctets.length < UInt32.size := by
  rw [length_longOctets]
  decide

/-- The put, a get that is cut short, a delete of a pet that is not there, a put with a blank name, and a get
that is too long. -/
def strayCalls : List Rpc.Call :=
  [strayPut, PetMethod.get.call [10], PetMethod.delete.call [10, 1, 98], PetMethod.put.call [18, 1, 32],
    PetMethod.get.call longOctets]

theorem granted_strayCalls {put get delete blank long : Rpc.Reply}
    (hput : put.trailers = some [("grpc-status", "0")]) (hget : get.trailers = none)
    (hdelete : delete.trailers = none) (hblank : blank.trailers = none) (hlong : long.trailers = none)
    (m : PetMethod) :
    ServerState.granted m strayCalls [put, get, delete, blank, long] = if m = .put then 1 else 0 := by
  simp only [strayCalls, ServerState.granted_cons, ServerState.grants, sends_strayPut.target,
    PetMethod.path_inj, hput, hget, hdelete, hblank, hlong]
  cases m <;> simp [ServerState.granted]

/-- The pets after the put. -/
def strayPets : PetService := ⟨({} : Store).insert "a" ⟨2, "a", "Rex"⟩, 1⟩

/-- The put has the effect of the one without the field, and its response is read again; the others are
refused, and one pet is there. -/
theorem calls_with_octets_stray : ∃ server, (compose Registration.standard).result = .ok server ∧
    ∃ put get delete blank long,
      (server.keeping {}).answerAll (fun _ => "a") (fun _ => .stored) strayCalls =
        [put, get, delete, blank, long] ∧
      put.Delivers (fun _ => .stored) none (PetResponse.put ⟨some ⟨2, "a", "Rex"⟩⟩).encode ∧
      PetMethod.put.readResponse (PetResponse.put ⟨some ⟨2, "a", "Rex"⟩⟩).encode =
        .ok (.put ⟨some ⟨2, "a", "Rex"⟩⟩) ∧
      get.Refuses (fun _ => .stored) 13
        "failed to decode Protobuf message: GetPetRequest.pet_id: invalid varint" ∧
      delete.Refuses (fun _ => .stored) 5 "Pet not found: b" ∧
      blank.Refuses (fun _ => .stored) 3 "Pet name must not be empty" ∧
      long.Refuses (fun _ => .stored) 11
        "Error, decoded message length too large: found 4194305 bytes, the limit is: 4194304 bytes" ∧
      (server.keeping {}).after (fun _ => "a") (fun _ => .stored) strayCalls = server.keeping strayPets ∧
      strayPets.Sound ∧ strayPets.store.size = 1 := by
  obtain ⟨-, hsends, server, hserver, hserved⟩ := calls_with_octets
  obtain ⟨hfirst, hruns⟩ := hserved (fun _ => "a") (fun _ => .stored) {}
  obtain ⟨hlater, -⟩ := hserved (fun _ => "a") (fun _ => .stored) strayPets
  -- The put enters a pet.
  obtain ⟨put, _, hputs, hserved⟩ := hfirst .put _ 33 strayPut sends_strayPut
  have haccepted : Rpc.Coding.accepted Rpc.Coding.all strayPut.headers = none := by decide +kernel
  rw [haccepted] at hserved
  obtain ⟨-, hdecoded⟩ := hserved.decoded (by decide) _ read_strayPayload
  obtain ⟨rfl, -, -, hok⟩ := hdecoded _ _ rfl
  obtain ⟨hdelivers, hread⟩ := hok _ rfl
  have hdelivers := hdelivers (by decide +kernel)
  have hputs : (server.keeping {}).answer (fun _ => "a") (fun _ => .stored) strayPut =
      (put, server.keeping strayPets) := hputs
  -- The others leave it alone.
  obtain ⟨get, _, hgets, hserved⟩ := hlater .get _ _ _ (hsends _ .get [10] (by decide))
  have hunread : PetMethod.read [10] .get = .error ⟨.invalidVarint, [("GetPetRequest", "pet_id")]⟩ := by
    decide +kernel
  obtain ⟨rfl, hget⟩ := hserved.undecodable (by decide) _ hunread
  obtain ⟨delete, _, hdeletes, hserved⟩ := hlater .delete _ _ _ (hsends _ .delete [10, 1, 98] (by decide))
  have habsent : PetMethod.read [10, 1, 98] .delete = .ok (.delete ⟨"b"⟩) := by decide +kernel
  obtain ⟨-, hdecoded⟩ := hserved.decoded (by decide) _ habsent
  obtain ⟨rfl, hdelete, -⟩ := hdecoded _ _ rfl
  have hdelete := hdelete _ rfl
  have hdeletes : (server.keeping strayPets).answer (fun _ => "a") (fun _ => .stored)
      (PetMethod.delete.call [10, 1, 98]) = (delete, server.keeping strayPets) := hdeletes
  obtain ⟨blank, _, hblanks, hserved⟩ := hlater .put _ _ _ (hsends _ .put [18, 1, 32] (by decide))
  have hunnamed : PetMethod.read [18, 1, 32] .put = .ok (.put ⟨0, " "⟩) := by decide +kernel
  obtain ⟨-, hdecoded⟩ := hserved.decoded (by decide) _ hunnamed
  obtain ⟨rfl, -, hblank, -⟩ := hdecoded _ _ rfl
  have hblank := hblank rfl
  have hblanks : (server.keeping strayPets).answer (fun _ => "a") (fun _ => .stored)
      (PetMethod.put.call [18, 1, 32]) = (blank, server.keeping strayPets) := hblanks
  obtain ⟨long, _, hlongs, hserved⟩ := hlater .get _ _ _ (hsends _ .get longOctets length_longOctets_lt)
  rw [length_longOctets] at hserved
  obtain ⟨rfl, hlong⟩ := hserved.tooLong (by decide)
  -- The run of all five.
  have hreplies : (server.keeping {}).answerAll (fun _ => "a") (fun _ => .stored) strayCalls =
      [put, get, delete, blank, long] := by
    simp only [strayCalls, ServerState.answerAll, hputs, hgets, hdeletes, hblanks, hlongs]
  have hgranted := granted_strayCalls hdelivers.trailers hget.trailers hdelete.trailers hblank.trailers
    hlong.trailers
  obtain ⟨after, hafter, -, hsound, hsize⟩ := hruns strayCalls
  obtain rfl : strayPets = after := by
    simp only [strayCalls, ServerState.after, hputs, hgets, hdeletes, hblanks, hlongs] at hafter
    exact congrArg ServerState.pets hafter
  rw [hreplies, hgranted, hgranted] at hsize
  refine ⟨server, hserver, put, get, delete, blank, long, hreplies, hdelivers, hread (by decide +kernel),
    hget, hdelete, hblank, hlong, hafter, hsound ⟨nofun, nofun⟩, hsize ?_ fun _ _ => rfl⟩
  intro n hn k hk _
  have hn : 0 ≤ n ∧ n < 1 := hn
  have hk : 0 ≤ k ∧ k < 1 := hk
  omega

/-- A put with a field that nobody knows, which has this many octets. -/
def paddedPut (n : Nat) : List UInt8 :=
  Wire.writeText 2 "Rex" ++ (Wire.writeKey 3 .delimited ++ Wire.writeDelimited (List.replicate n 0))

theorem read_paddedPut {n : Nat} (h : n < UInt64.size) :
    PetMethod.read (paddedPut n) .put = .ok (.put ⟨0, "Rex"⟩) := by
  have hbody : (List.replicate n (0 : UInt8)).length < UInt64.size := by
    rwa [List.length_replicate]
  have hunknown : Wire.Message.mergeField Wire.depthLimit (⟨0, "Rex"⟩ : PutPetRequest) 3 .delimited
      (Wire.writeDelimited (List.replicate n 0) ++ []) = .ok (⟨0, "Rex"⟩, []) := by
    have hread := Wire.readDelimited_writeDelimited hbody []
    change Wire.ignoreField Wire.depthLimit _ 3 .delimited _ = _
    rw [Wire.ignoreField, Wire.depthLimit, Wire.skipField, hread]
    rfl
  have hmerges : Wire.Merges (Wire.Message.mergeField Wire.depthLimit) 0 (Wire.Message.blank : PutPetRequest)
      (paddedPut n) ⟨0, "Rex"⟩ [] := by
    refine .trans (.writeText (by decide) (by decide) (Nat.zero_le _)
      (fun name => ({ name } : PutPetRequest)) rfl (fun _ => rfl) (by decide +kernel)) ?_
    have hfield := Wire.Merges.writeKey (by decide) (by decide) (Nat.le_refl 0) hunknown
    rwa [List.append_nil] at hfield
  have hdecode : Wire.decode PutPetRequest (paddedPut n) = .ok ⟨0, "Rex"⟩ := hmerges.merge_eq
  rw [PetMethod.read, hdecode]
  rfl

theorem length_paddedPut : (paddedPut 4194295).length = 4194305 := by
  have hname : (Wire.writeText 2 "Rex").length = 5 := by decide +kernel
  have hkey : (Wire.writeKey 3 .delimited).length = 1 := by decide +kernel
  have hlength : (Wire.writeVarint 4194295).length = 4 := by decide +kernel
  rw [paddedPut, List.length_append, List.length_append, Wire.writeDelimited, List.length_append,
    List.length_replicate, hname, hkey, hlength]

/-- Octets that stand for a put, but are too many for a frame, are refused and enter no pet, where the store
answers the request and enters one. -/
theorem calls_with_octets_padded : ∃ server, (compose Registration.standard).result = .ok server ∧
    PetMethod.read (paddedPut 4194295) .put = .ok (.put ⟨0, "Rex"⟩) ∧
    ({} : Store).answer "a" (.put ⟨0, "Rex"⟩) =
      (.ok (.put ⟨some ⟨0, "a", "Rex"⟩⟩), ({} : Store).insert "a" ⟨0, "a", "Rex"⟩) ∧
    (({} : Store).insert "a" ⟨0, "a", "Rex"⟩).size = 1 ∧
    ∃ reply, (server.keeping {}).answer (fun _ => "a") (fun _ => .stored)
        (PetMethod.put.call (paddedPut 4194295)) = (reply, server.keeping {}) ∧
      reply.Refuses (fun _ => .stored) 11
        "Error, decoded message length too large: found 4194305 bytes, the limit is: 4194304 bytes" := by
  obtain ⟨server, hserver, -, hroutes⟩ := exists_composed_standard
  have hlength : (paddedPut 4194295).length < UInt32.size := by
    rw [length_paddedPut]
    decide
  obtain ⟨reply, after, hanswer, hserved⟩ := ComposedServer.answer_sends hroutes (fun _ => "a") {}
    (PetMethod.put.sends_call (fun _ => .stored) hlength)
  rw [length_paddedPut] at hserved
  obtain ⟨rfl, hrefuses⟩ := hserved.tooLong (by decide)
  exact ⟨server, hserver, read_paddedPut (by decide), rfl, rfl, reply, hanswer, hrefuses⟩

end Menagerie
