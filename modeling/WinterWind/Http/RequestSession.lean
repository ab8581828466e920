import WinterWind.Http.HttpServer

/-!
# The session of a request (`src/core/httpserver.cpp`)

How often `request_handler` handles and answers one request, over the calls libmicrohttpd makes for
it: one when the headers are read, one for each chunk of the body, and one with no data.

* `requestHandlerRecord` is `requestHandler` with a record of its calls of `handle_query`: what each
  was given, what it returned and the session it left.
* `turns` are the calls made for a request, with what each did, up to the first that returns
  `MHD_NO`.

Results:
* `turn_requestHandlerRecord`: the record changes nothing.
* **`handled_once`**: a completed request is handled once, and answered once, in the last call, with
  what that handling decided.
-/

namespace WinterWind.Http

/-- A call of `handle_query`. -/
structure Handling where
  uploadData : Bytes
  returned : Bool
  session : ServerRequestSession

/-- The code and body a handling decides. -/
def Handling.response (h : Handling) : UInt32 × Bytes :=
  if h.returned then (h.session.httpCode, h.session.result) else (400, badRequest)

/-- A call of `request_handler` with the calls of `handle_query` it makes. -/
structure RecordedTurn where
  turn : Turn
  handlings : List Handling := []

section Record

variable (server : Server) (json : JsonLib) (conn : MHDConnection) (url method : Bytes)

/-- `handleOnce`, recorded. -/
def handleOnceRecord (m : Method) (uploadData : Bytes) (session : ServerRequestSession) :
    List HTTPQuery × ServerRequestSession × List Handling :=
  if session.dataHandled then ([], session, [])
  else
    match handleQuery server json m conn url uploadData session with
    | (queries, true, session) => (queries, session, [⟨uploadData, true, session⟩])
    | (queries, false, session) =>
      (queries, { session with result := badRequest, httpCode := 400 },
        [⟨uploadData, false, session⟩])

/-- `Server::request_handler`, recorded. -/
def requestHandlerRecord (uploadData : Bytes) (conCls : Option ServerRequestSession) :
    RecordedTurn :=
  match methodOf method with
  | none => { turn := { ret := false, conCls := conCls } }
  | some m =>
    match conCls with
    | none => { turn := { ret := true, conCls := some {} } }
    | some session =>
      let (queries, session, handlings) :=
        handleOnceRecord server json conn url m uploadData session
      if 0 < uploadData.length then
        { turn :=
            { ret := true
              conCls := some { session with dataHandled := true }
              queries := queries }
          handlings := handlings }
      else
        { turn :=
            { ret := true
              conCls := none
              queries := queries
              queued := [(session.httpCode, session.result)] }
          handlings := handlings }

/-- The call of `handle_query` in a new session. -/
def handleNew (m : Method) (uploadData : Bytes) : Handling :=
  let r := handleQuery server json m conn url uploadData {}
  ⟨uploadData, r.2.1, r.2.2⟩

/-- The calls made for a request, each with its upload data. -/
def turns : Option ServerRequestSession → List Bytes → List RecordedTurn
  | _, [] => []
  | conCls, uploadData :: rest =>
    let r := requestHandlerRecord server json conn url method uploadData conCls
    if r.turn.ret then r :: turns r.turn.conCls rest else [r]

variable {server json conn url method}

theorem handleOnceRecord_eq (m : Method) (uploadData : Bytes) (session : ServerRequestSession) :
    handleOnce server json m conn url uploadData session =
      ((handleOnceRecord server json conn url m uploadData session).1,
        (handleOnceRecord server json conn url m uploadData session).2.1) := by
  unfold handleOnce handleOnceRecord
  split
  · rfl
  · obtain ⟨queries, returned, session'⟩ := handleQuery server json m conn url uploadData session
    cases returned <;> rfl

/-- The recorded callback is the callback. -/
theorem turn_requestHandlerRecord (uploadData : Bytes) (conCls : Option ServerRequestSession) :
    (requestHandlerRecord server json conn url method uploadData conCls).turn =
      requestHandler server json conn url method uploadData conCls := by
  unfold requestHandlerRecord requestHandler
  cases methodOf method with
  | none => rfl
  | some m =>
    cases conCls with
    | none => rfl
    | some session =>
      simp only [handleOnceRecord_eq]
      split <;> rfl

/-- The queries and the responses of the calls are those of `calls`. -/
theorem calls_eq_turns (conCls : Option ServerRequestSession) (chunks : List Bytes) :
    calls server json conn url method conCls chunks =
      ((turns server json conn url method conCls chunks).flatMap fun r => r.turn.queries,
        (turns server json conn url method conCls chunks).flatMap fun r => r.turn.queued) := by
  induction chunks generalizing conCls with
  | nil => rfl
  | cons uploadData rest ih =>
    rw [calls, turns, turn_requestHandlerRecord]
    split
    · rw [ih, List.flatMap_cons, List.flatMap_cons, turn_requestHandlerRecord]
    · rw [List.flatMap_singleton, List.flatMap_singleton, turn_requestHandlerRecord]

/-! ## Once -/

/-- What the calls for a request do: the first `n` of them queue nothing, one more queues the
response, and `handle_query` is called for `handlings`. -/
structure AnsweredOnce (rs : List RecordedTurn) (n : Nat) (handlings : List Handling)
    (response : UInt32 × Bytes) : Prop where
  length : rs.length = n + 1
  handlings : rs.flatMap RecordedTurn.handlings = handlings
  accepted : ∀ r ∈ rs, r.turn.ret = true
  waiting : ∀ r ∈ rs.take n, r.turn.queued = [] ∧ r.turn.conCls.isSome = true
  answered : ∀ r ∈ rs.drop n, r.turn.queued = [response] ∧ r.turn.conCls = none

namespace AnsweredOnce

variable {r : RecordedTurn} {rs : List RecordedTurn} {n : Nat} {handlings : List Handling}
  {response : UInt32 × Bytes}

/-- A request answered in its only call. -/
theorem last (hret : r.turn.ret = true) (hqueued : r.turn.queued = [response])
    (hcls : r.turn.conCls = none) : AnsweredOnce [r] 0 r.handlings response where
  length := rfl
  handlings := List.flatMap_singleton _ _
  accepted := by simpa using hret
  waiting := by simp
  answered := by simpa using ⟨hqueued, hcls⟩

/-- A call that queues nothing, before the others. -/
theorem cons (hret : r.turn.ret = true) (hqueued : r.turn.queued = [])
    (hcls : r.turn.conCls.isSome = true) (h : AnsweredOnce rs n handlings response) :
    AnsweredOnce (r :: rs) (n + 1) (r.handlings ++ handlings) response where
  length := by rw [List.length_cons, h.length]
  handlings := by rw [List.flatMap_cons, h.handlings]
  accepted := List.forall_mem_cons.mpr ⟨hret, h.accepted⟩
  waiting := by
    rw [List.take_succ_cons]
    exact List.forall_mem_cons.mpr ⟨⟨hqueued, hcls⟩, h.waiting⟩
  answered := by
    rw [List.drop_succ_cons]
    exact h.answered

end AnsweredOnce

variable {m : Method}

/-- In a session that was handled, nothing more is. -/
theorem handleOnceRecord_handled (uploadData : Bytes) {session : ServerRequestSession}
    (hs : session.dataHandled = true) :
    handleOnceRecord server json conn url m uploadData session = ([], session, []) := by
  unfold handleOnceRecord
  rw [if_pos hs]

/-- In a new session `handle_query` is called, and the session holds what it decides. -/
theorem handleOnceRecord_fresh (m : Method) (uploadData : Bytes) :
    ∃ queries session,
      handleOnceRecord server json conn url m uploadData {} =
          (queries, session, [handleNew server json conn url m uploadData]) ∧
        (session.httpCode, session.result) =
          (handleNew server json conn url m uploadData).response := by
  unfold handleOnceRecord handleNew
  rw [if_neg Bool.false_ne_true]
  obtain ⟨queries, returned, session⟩ := handleQuery server json m conn url uploadData {}
  cases returned with
  | false => exact ⟨_, _, rfl, rfl⟩
  | true => exact ⟨_, _, rfl, rfl⟩

/-- Once the data is handled, the chunks are ignored and the last call answers. -/
theorem turns_of_handled (hm : methodOf method = some m) {chunks : List Bytes}
    (h : ∀ c ∈ chunks, c ≠ []) {session : ServerRequestSession}
    (hs : session.dataHandled = true) :
    AnsweredOnce (turns server json conn url method (some session) (chunks ++ [[]]))
      chunks.length [] (session.httpCode, session.result) := by
  induction chunks generalizing session with
  | nil =>
    simp only [List.nil_append, turns, requestHandlerRecord, hm, handleOnceRecord_handled [] hs,
      List.length_nil, Nat.lt_irrefl, if_true, if_false]
    exact AnsweredOnce.last rfl rfl rfl
  | cons c chunks ih =>
    obtain ⟨hne, hrest⟩ := List.forall_mem_cons.mp h
    have hc : 0 < c.length := List.length_pos_of_ne_nil hne
    simp only [List.cons_append, turns, requestHandlerRecord, hm, handleOnceRecord_handled c hs,
      hc, if_true, List.length_cons]
    exact AnsweredOnce.cons rfl rfl rfl (ih hrest rfl)

end Record

/-- **Handled once, answered once.** For a request with a known method, `request_handler` calls
`handle_query` once, in a new session and with the first chunk; every call but the last queues
nothing, and the last queues the response that handling decides and leaves `*con_cls` null. -/
theorem handled_once (server : Server) (json : JsonLib) (conn : MHDConnection) (url method : Bytes)
    (m : Method) (chunks : List Bytes) (hm : methodOf method = some m)
    (h : ∀ c ∈ chunks, c ≠ []) :
    AnsweredOnce (turns server json conn url method none ([] :: (chunks ++ [[]])))
      (chunks.length + 1) [handleNew server json conn url m (chunks.headD [])]
      (handleNew server json conn url m (chunks.headD [])).response := by
  have hhead : turns server json conn url method none ([] :: (chunks ++ [[]])) =
      { turn := { ret := true, conCls := some {} } } ::
        turns server json conn url method (some {}) (chunks ++ [[]]) := by
    rw [turns]
    simp only [requestHandlerRecord, hm, if_true]
  rw [hhead]
  obtain ⟨queries, session, hhandle, hresponse⟩ :=
    @handleOnceRecord_fresh server json conn url m (chunks.headD [])
  rw [← hresponse]
  refine AnsweredOnce.cons rfl rfl rfl ?_
  cases chunks with
  | nil =>
    rw [List.headD_nil] at hhandle
    simp only [List.nil_append, turns, requestHandlerRecord, hm, hhandle, List.length_nil,
      Nat.lt_irrefl, if_true, if_false]
    exact AnsweredOnce.last rfl rfl rfl
  | cons c chunks =>
    obtain ⟨hne, hrest⟩ := List.forall_mem_cons.mp h
    have hc : 0 < c.length := List.length_pos_of_ne_nil hne
    rw [List.headD_cons] at hhandle
    simp only [List.cons_append, turns, requestHandlerRecord, hm, hhandle, hc, if_true,
      List.length_cons]
    exact AnsweredOnce.cons rfl rfl rfl (turns_of_handled hm hrest rfl)

/-- The form `a=1&b=2`, cut before the second parameter. -/
theorem handled_once_form :
    AnsweredOnce
      (turns formServer noJson formConnection (ascii "/") (ascii "POST") none
        ([] :: ([ascii "a=1", ascii "&b=2"] ++ [[]]))) 3
      [handleNew formServer noJson formConnection (ascii "/") .post (ascii "a=1")]
      (handleNew formServer noJson formConnection (ascii "/") .post (ascii "a=1")).response :=
  handled_once formServer noJson formConnection (ascii "/") (ascii "POST") .post
    [ascii "a=1", ascii "&b=2"] rfl (by decide)

end WinterWind.Http
