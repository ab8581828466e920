import WinterWind.Extras.SlackClient

/-!
# The thread of the Slack client (`src/extras/slackclient.cpp`)

`SlackClient::run` with its connections: the callbacks it calls, what they send, and how long it
sleeps between its attempts.

* An `Attempt` is what a turn of the loop meets: the answer to `rtm.start`, then the outcome of
  `get_connection` and `connect`, and the payloads that arrive until the connection is gone. The run
  ends where the list does, when `is_stopping` says so.
* What a callback sends may depend on all the calls before (`reply`), as it may keep state; what it
  returns is ignored. It registers no callback, since the list that it is called from would change
  under the loop.
* A message of type `reconnect_url` is ignored, and so is one without a type.
* An answer or a message that throws is not caught, and ends the program.
* The retry interval and the number of failures are 32 bits wide, and so is their product.

Results:
* `attempted`: what a turn of the loop adds.
* **`slackThread_run`**: after any run, every message that arrived was handed once to each callback
  registered for its type, in their order, but for `reconnect_url`; what they sent is numbered from
  1; and each sleep counts the attempts since the last connection.
-/

namespace WinterWind.Extras

/-- What a call of `send_message` says. -/
structure Said where
  channel : Bytes
  text : Bytes
  deriving Repr, DecidableEq

/-- `SlackMessageHandler`: a callback, by its number. -/
abbrev SlackMessageHandler := Nat

/-- The calls of callbacks, in their order. -/
abbrev Calls := List (SlackMessageHandler × Value)

/-- What the web socket makes of a URL. -/
inductive Connecting where
  /-- `get_connection` gives an error code. -/
  | refused
  /-- `websocketpp::exception` before `failure_number = 0`. -/
  | failed
  /-- The payloads received until `ws_tls_client::run` returns or throws. -/
  | session (payloads : List Bytes)
  deriving Repr, DecidableEq

structure Attempt where
  answer : Value
  connecting : Connecting

/-- `SlackClient` with the local `failure_number` of `run`, and what the run has done: the callbacks
called, the frames sent, and the seconds slept. -/
structure SlackThread where
  client : SlackClient := {}
  callbacks : UnorderedMap Bytes (List SlackMessageHandler) := ∅
  retryInterval : UInt32 := 30
  internalMessageId : UInt32 := 1
  failureNumber : UInt32 := 0
  called : Calls := []
  frames : List Bytes := []
  slept : List UInt32 := []

namespace SlackThread

/-- `SlackClient::register_callback` -/
def registerCallback (t : SlackThread) (method : Bytes) (hdl : SlackMessageHandler) :
    SlackThread :=
  let callbacks :=
    if (t.callbacks.lookup method).isNone then t.callbacks.insert method [] else t.callbacks
  { t with callbacks := callbacks.insert method ((callbacks.lookup method).getD [] ++ [hdl]) }

/-- The object that `send_message` sends. -/
def message (id : UInt32) (said : Said) : Value :=
  .object (insertMember (ascii "channel") (.string said.channel)
    (insertMember (ascii "text") (.string said.text)
      (insertMember (ascii "type") (.string (ascii "message"))
        (insertMember (ascii "id") (.uint id.toUInt64) []))))

section Run

variable (json : JsonLib) (realText : Option Rat → Bytes) (reply : Calls → List Said)

/-- `SlackClient::send_message` -/
def sendMessage (t : SlackThread) (said : Said) : SlackThread :=
  { t with
    frames := t.frames ++ [json.write (message t.internalMessageId said)]
    internalMessageId := t.internalMessageId + 1 }

/-- A callback is called, and calls `send_message`. -/
def call (recvMsg : Value) (t : SlackThread) (hdl : SlackMessageHandler) : SlackThread :=
  let called := t.called ++ [(hdl, recvMsg)]
  (reply called).foldl (sendMessage json) { t with called := called }

/-- The message handler. -/
def onMessage (t : SlackThread) (payload : Bytes) : Except Fault SlackThread :=
  match json.parse payload .null with
  | (false, _) => .ok t
  | (true, recvMsg) => do
    if ← recvMsg.isMember (ascii "type") then
      let type ← (← recvMsg.member (ascii "type")).asString realText
      if type = ascii "reconnect_url" then return t
      else return ((t.callbacks.lookup type).getD []).foldl (call json reply recvMsg) t
    else return t

/-- A failure, and the sleep after it. -/
def retry (t : SlackThread) : SlackThread :=
  { t with
    failureNumber := t.failureNumber + 1
    slept := t.slept ++ [t.retryInterval * (t.failureNumber + 1)] }

/-- A turn of the loop, and whether it is followed by another. -/
def attempt (t : SlackThread) (a : Attempt) : Except Fault (SlackThread × Bool) := do
  if ← SlackClient.rtmStart a.answer then
    if ← a.answer.isMember (ascii "url") then
      let client ← t.client.turn realText a.answer
      let _ ← (← a.answer.member (ascii "url")).asString realText
      match a.connecting with
      | .refused => return ({ t with client := client }, false)
      | .failed => return ({ t with client := client }.retry, true)
      | .session payloads =>
        let t ← payloads.foldlM (onMessage json realText reply)
          { t with client := client, failureNumber := 0 }
        return (t.retry, true)
    else return (t.retry, true)
  else return (t.retry, true)

/-- `SlackClient::run`, for the attempts it makes. -/
def run : SlackThread → List Attempt → Except Fault SlackThread
  | t, [] => .ok t
  | t, a :: attempts => do
    let (t, again) ← t.attempt json realText reply a
    if again then run t attempts else return t

end Run

/-! ## What a run must do -/

/-- The client before its run, with its retry interval and the callbacks registered. -/
def registered (retryInterval : UInt32) (callbacks : List (Bytes × SlackMessageHandler)) :
    SlackThread :=
  callbacks.foldl (fun t r => t.registerCallback r.1 r.2) { retryInterval := retryInterval }

end SlackThread

namespace Attempt

/-- The web socket got connected. -/
def connected (a : Attempt) : Bool :=
  match a.connecting with
  | .session _ => SlackClient.isSuccessful a.answer
  | _ => false

/-- The thread returns. -/
def ends (a : Attempt) : Bool :=
  match a.connecting with
  | .refused => SlackClient.isSuccessful a.answer
  | _ => false

/-- The payloads that arrive. -/
def payloads (a : Attempt) : List Bytes :=
  match a.connecting with
  | .session payloads => if SlackClient.isSuccessful a.answer then payloads else []
  | _ => []

/-- The failures counted after attempts: those since the last one that got connected, which counts
as well. -/
def failures (attempts : List Attempt) : Nat :=
  (attempts.reverse.takeWhile (!·.connected)).length + if attempts.any connected then 1 else 0

end Attempt

section Spec

variable (json : JsonLib) (realText : Option Rat → Bytes)

/-- The message in a payload, and its type. -/
def typedMessage (payload : Bytes) : Option (Bytes × Value) :=
  match json.parse payload .null with
  | (true, .object ms) =>
    match findMember (ascii "type") ms with
    | some v => (v.asString realText).toOption.map fun type => (type, .object ms)
    | none => none
  | _ => none

/-- Whom a payload is handed to: the callbacks registered for its type, in their order. -/
def dispatched (callbacks : List (Bytes × SlackMessageHandler)) (payload : Bytes) :
    Calls :=
  match typedMessage json realText payload with
  | some (type, recvMsg) =>
    if type = ascii "reconnect_url" then []
    else (callbacks.filter (·.1 = type)).map fun r => (r.2, recvMsg)
  | none => []

/-- The frames of what is said, numbered from 1. -/
def numbered (said : List Said) : List Bytes :=
  (said.zipIdx 1).map fun p => json.write (SlackThread.message (UInt32.ofNat p.2) p.1)

/-- What the callbacks say in some calls, in their order. -/
def saidIn (reply : Calls → List Said) (called : Calls) : List Said :=
  (List.range called.length).flatMap fun i => reply (called.take (i + 1))

theorem saidIn_concat (reply : Calls → List Said) (called : Calls)
    (c : SlackMessageHandler × Value) :
    saidIn reply (called ++ [c]) = saidIn reply called ++ reply (called ++ [c]) := by
  have hearlier (i : Nat) (hi : i ∈ List.range called.length) :
      reply ((called ++ [c]).take (i + 1)) = reply (called.take (i + 1)) := by
    rw [List.take_append_of_le_length (List.mem_range.mp hi)]
  have hlast : (called ++ [c]).take (called.length + 1) = called ++ [c] :=
    List.take_of_length_le (by rw [List.length_append, List.length_singleton])
  rw [saidIn, List.length_append, List.length_singleton, List.range_succ, List.flatMap_append,
    List.flatMap_singleton, hlast]
  exact congrArg (· ++ _) (List.flatMap_congr hearlier)

end Spec

/-! ## The callbacks -/

namespace SlackThread

variable {json : JsonLib} {realText : Option Rat → Bytes} {reply : Calls → List Said}
  {t t' : SlackThread} {callbacks : List (Bytes × SlackMessageHandler)}

theorem lookup_registerCallback (t : SlackThread) (method : Bytes) (hdl : SlackMessageHandler)
    (type : Bytes) : (((t.registerCallback method hdl).callbacks.lookup type).getD []) =
      (t.callbacks.lookup type).getD [] ++ if method = type then [hdl] else [] := by
  have hempty (k : Bytes) : (((if (t.callbacks.lookup method).isNone then
      t.callbacks.insert method [] else t.callbacks).lookup k).getD []) =
        (t.callbacks.lookup k).getD [] := by
    split
    · rename_i hnone
      by_cases hk : k = method
      · subst hk
        rw [Finmap.lookup_insert, Option.isNone_iff_eq_none.mp hnone]
        rfl
      · rw [Finmap.lookup_insert_of_ne _ hk]
    · rfl
  unfold registerCallback
  dsimp only
  by_cases htype : method = type
  · subst htype
    rw [Finmap.lookup_insert, hempty, if_pos rfl]
    rfl
  · rw [Finmap.lookup_insert_of_ne _ (Ne.symm htype), hempty, if_neg htype, List.append_nil]

/-- What is handed to callbacks, in the order of the calls, and what the callbacks know. -/
structure Handled (json : JsonLib) (reply : Calls → List Said)
    (callbacks : List (Bytes × SlackMessageHandler)) (handed : Calls) (t : SlackThread) : Prop where
  callbacks : ∀ type, (t.callbacks.lookup type).getD [] =
    (callbacks.filter (·.1 = type)).map Prod.snd
  called : t.called = handed
  frames : t.frames = numbered json (saidIn reply handed)
  nextId : t.internalMessageId = UInt32.ofNat ((saidIn reply handed).length + 1)

theorem handled_registered (retryInterval : UInt32)
    (callbacks : List (Bytes × SlackMessageHandler)) :
    Handled json reply callbacks [] (registered retryInterval callbacks) ∧
      (registered retryInterval callbacks).retryInterval = retryInterval ∧
      (registered retryInterval callbacks).failureNumber = 0 ∧
      (registered retryInterval callbacks).slept = [] := by
  induction callbacks using List.reverseRecOn with
  | nil => exact ⟨⟨fun _ => rfl, rfl, rfl, rfl⟩, rfl, rfl, rfl⟩
  | append_singleton callbacks r ih =>
    obtain ⟨hhandled, hrest⟩ := ih
    have hlast : registered retryInterval (callbacks ++ [r]) =
        (registered retryInterval callbacks).registerCallback r.1 r.2 := by
      rw [registered, List.foldl_append]
      rfl
    rw [hlast]
    refine ⟨⟨fun type => ?_, hhandled.called, hhandled.frames, hhandled.nextId⟩, hrest⟩
    rw [lookup_registerCallback, hhandled.callbacks, List.filter_append, List.map_append]
    by_cases htype : r.1 = type
    · rw [if_pos htype, List.filter_cons_of_pos (by simpa using htype)]
      rfl
    · rw [if_neg htype, List.filter_cons_of_neg (by simpa using htype)]
      rfl

/-- The next frame has the next number. -/
theorem sendMessage_numbered {said : List Said} (hframes : t.frames = numbered json said)
    (hnext : t.internalMessageId = UInt32.ofNat (said.length + 1)) (s : Said) :
    (t.sendMessage json s).frames = numbered json (said ++ [s]) ∧
      (t.sendMessage json s).internalMessageId =
        UInt32.ofNat ((said ++ [s]).length + 1) := by
  refine ⟨?_, ?_⟩
  · rw [sendMessage, hframes, hnext, numbered, numbered, List.zipIdx_append, List.map_append,
      Nat.add_comm 1]
    rfl
  · rw [sendMessage, hnext, List.length_append]
    exact (UInt32.ofNat_add _ _).symm

/-- What a callback sends changes nothing else. -/
theorem foldl_sendMessage (said : List Said) (t : SlackThread) :
    let u := said.foldl (sendMessage json) t
    u = { t with frames := u.frames, internalMessageId := u.internalMessageId } := by
  induction said generalizing t with
  | nil => rfl
  | cons s said ih => exact ih (t.sendMessage json s)

theorem foldl_sendMessage_numbered {said : List Said} (later : List Said) {t : SlackThread}
    (hframes : t.frames = numbered json said)
    (hnext : t.internalMessageId = UInt32.ofNat (said.length + 1)) :
    (later.foldl (sendMessage json) t).frames = numbered json (said ++ later) ∧
      (later.foldl (sendMessage json) t).internalMessageId =
        UInt32.ofNat ((said ++ later).length + 1) := by
  induction later generalizing said t with
  | nil =>
    rw [List.append_nil]
    exact ⟨hframes, hnext⟩
  | cons s later ih =>
    obtain ⟨hframes', hnext'⟩ := sendMessage_numbered hframes hnext s
    rw [List.append_cons]
    exact ih hframes' hnext'

/-- **A call of a callback** hands the message to it, and sends what it reply under the next
numbers. -/
theorem Handled.call {handed : Calls}
    (h : Handled json reply callbacks handed t) (recvMsg : Value) (hdl : SlackMessageHandler) :
    Handled json reply callbacks (handed ++ [(hdl, recvMsg)]) (t.call json reply recvMsg hdl) := by
  have hcalled : t.called ++ [(hdl, recvMsg)] = handed ++ [(hdl, recvMsg)] := by rw [h.called]
  obtain ⟨hframes, hnext⟩ := foldl_sendMessage_numbered (reply (handed ++ [(hdl, recvMsg)]))
    (t := { t with called := handed ++ [(hdl, recvMsg)] }) h.frames h.nextId
  have hrest := @foldl_sendMessage json (reply (handed ++ [(hdl, recvMsg)]))
    { t with called := handed ++ [(hdl, recvMsg)] }
  rw [SlackThread.call]
  dsimp only at hrest ⊢
  rw [hcalled]
  refine ⟨?_, ?_, saidIn_concat reply handed _ ▸ hframes, saidIn_concat reply handed _ ▸ hnext⟩
  · rw [hrest]
    exact h.callbacks
  · rw [hrest]

/-- The loop over the callbacks of a type. -/
theorem Handled.calls {handed : Calls} (h : Handled json reply callbacks handed t)
    (recvMsg : Value) (hdls : List SlackMessageHandler) :
    Handled json reply callbacks (handed ++ hdls.map fun hdl => (hdl, recvMsg))
      (hdls.foldl (SlackThread.call json reply recvMsg) t) := by
  induction hdls generalizing handed t with
  | nil =>
    rw [List.map_nil, List.append_nil]
    exact h
  | cons hdl hdls ih =>
    rw [List.map_cons, List.append_cons]
    exact ih (h.call recvMsg hdl)

/-- What happens to a run besides its calls. -/
structure Same (t t' : SlackThread) : Prop where
  retryInterval : t'.retryInterval = t.retryInterval
  failureNumber : t'.failureNumber = t.failureNumber
  slept : t'.slept = t.slept

theorem Same.refl (t : SlackThread) : Same t t := ⟨rfl, rfl, rfl⟩

theorem Same.trans {t'' : SlackThread} (h : Same t t') (h' : Same t' t'') : Same t t'' :=
  ⟨h'.retryInterval.trans h.retryInterval, h'.failureNumber.trans h.failureNumber,
    h'.slept.trans h.slept⟩

theorem same_calls (recvMsg : Value) (hdls : List SlackMessageHandler) (t : SlackThread) :
    Same t (hdls.foldl (SlackThread.call json reply recvMsg) t) := by
  induction hdls generalizing t with
  | nil => exact .refl t
  | cons hdl hdls ih =>
    have hrest := @foldl_sendMessage json (reply (t.called ++ [(hdl, recvMsg)]))
      { t with called := t.called ++ [(hdl, recvMsg)] }
    have hone : Same t (t.call json reply recvMsg hdl) := by
      dsimp only at hrest
      rw [SlackThread.call, hrest]
      exact ⟨rfl, rfl, rfl⟩
    exact hone.trans (ih _)

/-- **A payload** is handed to the callbacks of its type. -/
theorem Handled.onMessage {handed : Calls}
    (h : Handled json reply callbacks handed t) {payload : Bytes}
    (ht : t.onMessage json realText reply payload = .ok t') :
    Handled json reply callbacks (handed ++ dispatched json realText callbacks payload) t' ∧
      Same t t' := by
  have hnone (hempty : typedMessage json realText payload = none) (heq : t' = t) :
      Handled json reply callbacks (handed ++ dispatched json realText callbacks payload) t' ∧
        Same t t' := by
    subst heq
    rw [dispatched, hempty, List.append_nil]
    exact ⟨h, .refl _⟩
  unfold SlackThread.onMessage at ht
  split at ht
  · rename_i hparse
    refine hnone ?_ (Except.ok.inj ht).symm
    rw [typedMessage, hparse]
  · rename_i recvMsg hparse
    cases recvMsg with
    | object ms =>
      rw [Value.isMember_object, Value.member_object] at ht
      cases htype : findMember (ascii "type") ms with
      | none =>
        rw [htype] at ht
        refine hnone ?_ (Except.ok.inj ht).symm
        rw [typedMessage, hparse]
        dsimp only
        rw [htype]
      | some v =>
        rw [htype] at ht
        change (v.asString realText >>= _) = _ at ht
        obtain ⟨type, hstring, ht⟩ := bind_eq_ok.mp ht
        have htyped : typedMessage json realText payload = some (type, Value.object ms) := by
          rw [typedMessage, hparse]
          dsimp only
          rw [htype]
          dsimp only
          rw [hstring]
          rfl
        rw [dispatched, htyped]
        dsimp only
        split at ht
        · rename_i hurl
          obtain rfl := Except.ok.inj ht
          rw [if_pos hurl, List.append_nil]
          exact ⟨h, .refl _⟩
        · rename_i hurl
          obtain rfl := Except.ok.inj ht
          rw [if_neg hurl, h.callbacks]
          refine ⟨?_, same_calls _ _ _⟩
          have hcalls := h.calls (.object ms)
            ((callbacks.filter (·.1 = type)).map Prod.snd)
          rw [List.map_map] at hcalls
          exact hcalls
    | null =>
      refine hnone ?_ (Except.ok.inj ht).symm
      rw [typedMessage, hparse]
    | _ => cases ht

/-- The loop over the payloads of a connection. -/
theorem Handled.onMessages {handed : Calls}
    (h : Handled json reply callbacks handed t) {payloads : List Bytes}
    (ht : payloads.foldlM (SlackThread.onMessage json realText reply) t = .ok t') :
    Handled json reply callbacks
      (handed ++ payloads.flatMap (dispatched json realText callbacks)) t' ∧ Same t t' := by
  induction payloads generalizing handed t with
  | nil =>
    obtain rfl := Except.ok.inj ht
    rw [List.flatMap_nil, List.append_nil]
    exact ⟨h, .refl _⟩
  | cons payload payloads ih =>
    rw [List.foldlM_cons] at ht
    obtain ⟨t₁, hone, ht⟩ := bind_eq_ok.mp ht
    obtain ⟨h₁, hsame₁⟩ := h.onMessage hone
    obtain ⟨h', hsame'⟩ := ih h₁ ht
    rw [List.flatMap_cons, ← List.append_assoc]
    exact ⟨h', hsame₁.trans hsame'⟩

/-! ## The turns of the loop -/

theorem isSuccessful_of_rtmStart {v : Value} {started : Bool}
    (h : SlackClient.rtmStart v = .ok started) : ∃ hasUrl, v.isMember (ascii "url") = .ok hasUrl ∧
      SlackClient.isSuccessful v = (started && hasUrl) := by
  cases v with
  | object ms =>
    refine ⟨_, Value.isMember_object ms _, ?_⟩
    unfold SlackClient.rtmStart at h
    rw [Value.isMember_object, Value.member_object] at h
    unfold SlackClient.isSuccessful
    dsimp only
    cases hok : findMember (ascii "ok") ms with
    | none =>
      rw [hok] at h
      obtain rfl := Except.ok.inj h
      rfl
    | some ok =>
      rw [hok] at h
      change ok.asBool = _ at h
      rw [Option.bind_some, h]
      cases started <;> rfl
  | null =>
    obtain rfl := Except.ok.inj h
    exact ⟨false, rfl, rfl⟩
  | _ => cases h

/-- What a turn that goes well does. -/
theorem attempt_cases {a : Attempt} {again : Bool}
    (h : t.attempt json realText reply a = .ok (t', again)) :
    (SlackClient.isSuccessful a.answer = false ∧ t' = t.retry ∧ again = true) ∨
      (SlackClient.isSuccessful a.answer = true ∧ ∃ client, match a.connecting with
        | .refused => t' = { t with client := client } ∧ again = false
        | .failed => t' = { t with client := client }.retry ∧ again = true
        | .session payloads => again = true ∧ ∃ u, t' = u.retry ∧
          payloads.foldlM (onMessage json realText reply)
            { t with client := client, failureNumber := 0 } = .ok u) := by
  unfold attempt at h
  obtain ⟨started, hstarted, h⟩ := bind_eq_ok.mp h
  obtain ⟨hasUrl, hurl, hsuccessful⟩ := isSuccessful_of_rtmStart hstarted
  rw [hsuccessful]
  cases started with
  | false =>
    obtain ⟨rfl, rfl⟩ := Prod.mk.inj (Except.ok.inj h)
    exact .inl ⟨rfl, rfl, rfl⟩
  | true =>
    rw [if_pos rfl] at h
    obtain ⟨_, hurl', h⟩ := bind_eq_ok.mp h
    obtain rfl := Except.ok.inj (hurl.symm.trans hurl')
    cases hasUrl with
    | false =>
      obtain ⟨rfl, rfl⟩ := Prod.mk.inj (Except.ok.inj h)
      exact .inl ⟨rfl, rfl, rfl⟩
    | true =>
      obtain ⟨client, -, h⟩ := bind_eq_ok.mp h
      obtain ⟨url, -, h⟩ := bind_eq_ok.mp h
      obtain ⟨_, -, h⟩ := bind_eq_ok.mp h
      refine .inr ⟨rfl, client, ?_⟩
      cases hconnecting : a.connecting with
      | refused =>
        rw [hconnecting] at h
        obtain ⟨rfl, rfl⟩ := Prod.mk.inj (Except.ok.inj h)
        exact ⟨rfl, rfl⟩
      | failed =>
        rw [hconnecting] at h
        obtain ⟨rfl, rfl⟩ := Prod.mk.inj (Except.ok.inj h)
        exact ⟨rfl, rfl⟩
      | session payloads =>
        rw [hconnecting] at h
        obtain ⟨u, hu, h⟩ := bind_eq_ok.mp h
        obtain ⟨rfl, rfl⟩ := Prod.mk.inj (Except.ok.inj h)
        exact ⟨rfl, u, rfl, hu⟩

theorem failures_concat (attempts : List Attempt) (a : Attempt) :
    Attempt.failures (attempts ++ [a]) =
      (if a.connected then 0 else Attempt.failures attempts) + 1 := by
  unfold Attempt.failures
  rw [List.reverse_append, List.reverse_singleton, List.singleton_append, List.any_append]
  cases hconnected : a.connected with
  | true =>
    rw [List.takeWhile_cons_of_neg (by simp [hconnected])]
    simp [hconnected]
  | false =>
    rw [List.takeWhile_cons_of_pos (by simp [hconnected])]
    simp [hconnected]
    omega

/-- The thread after attempts that did not end it. -/
structure After (json : JsonLib) (realText : Option Rat → Bytes) (reply : Calls → List Said)
    (seconds : UInt32) (callbacks : List (Bytes × SlackMessageHandler)) (before : List Attempt)
    (t : SlackThread) : Prop where
  handled : Handled json reply callbacks
    ((before.flatMap Attempt.payloads).flatMap (dispatched json realText callbacks)) t
  retryInterval : t.retryInterval = seconds
  failureNumber : t.failureNumber = UInt32.ofNat (Attempt.failures before)
  slept : t.slept = (List.range before.length).map fun i =>
    seconds * UInt32.ofNat (Attempt.failures (before.take (i + 1)))

variable {retryInterval : UInt32} {before : List Attempt} {a : Attempt} {again : Bool}

/-- The sleep after an attempt: `u` is the thread before it is counted as a failure. -/
theorem After.retry {u : SlackThread}
    (h : After json realText reply retryInterval callbacks before t)
    (hhandled : Handled json reply callbacks (((before ++ [a]).flatMap Attempt.payloads).flatMap
      (dispatched json realText callbacks)) u)
    (hinterval : u.retryInterval = t.retryInterval) (hslept : u.slept = t.slept)
    (hnumber : u.failureNumber = if a.connected then 0 else t.failureNumber) :
    After json realText reply retryInterval callbacks (before ++ [a]) u.retry := by
  have hfailures : u.failureNumber + 1 = UInt32.ofNat (Attempt.failures (before ++ [a])) := by
    rw [hnumber, h.failureNumber, failures_concat, UInt32.ofNat_add]
    split <;> rfl
  refine ⟨⟨hhandled.callbacks, hhandled.called, hhandled.frames, hhandled.nextId⟩,
    hinterval.trans h.retryInterval, hfailures, ?_⟩
  have hearlier (i : Nat) (hi : i ∈ List.range before.length) :
      (before ++ [a]).take (i + 1) = before.take (i + 1) :=
    List.take_append_of_le_length (List.mem_range.mp hi)
  rw [SlackThread.retry, hfailures, hslept, hinterval, h.slept, h.retryInterval,
    List.length_append, List.length_singleton, List.range_succ, List.map_append,
    List.map_congr_left fun i hi => by rw [← hearlier i hi], List.map_singleton,
    List.take_of_length_le (by rw [List.length_append, List.length_singleton])]

/-- **A turn of the loop**: what arrived is handed over, and the turn is followed by another after a
sleep, unless the web socket refused the URL. -/
theorem After.attempted (h : After json realText reply retryInterval callbacks before t)
    (ht : t.attempt json realText reply a = .ok (t', again)) :
    again = !a.ends ∧
      if a.ends then
        t'.called = t.called ∧ t'.frames = t.frames ∧ t'.slept = t.slept
      else After json realText reply retryInterval callbacks (before ++ [a]) t' := by
  have hnone (hpayloads : a.payloads = []) : ((before ++ [a]).flatMap Attempt.payloads) =
      before.flatMap Attempt.payloads := by
    rw [List.flatMap_append, List.flatMap_singleton, hpayloads, List.append_nil]
  obtain ⟨hfailed, rfl, rfl⟩ | ⟨hok, client, hturn⟩ := attempt_cases ht
  · have hends : a.ends = false := by
      unfold Attempt.ends
      cases a.connecting <;> simp [hfailed]
    have hpayloads : a.payloads = [] := by
      unfold Attempt.payloads
      cases a.connecting <;> simp [hfailed]
    have hconnected : a.connected = false := by
      unfold Attempt.connected
      cases a.connecting <;> simp [hfailed]
    rw [hends]
    exact ⟨rfl, h.retry (hnone hpayloads ▸ h.handled) rfl rfl (by rw [hconnected]; rfl)⟩
  · cases hconnecting : a.connecting with
    | refused =>
      rw [hconnecting] at hturn
      obtain ⟨rfl, rfl⟩ := hturn
      have hends : a.ends = true := by rw [Attempt.ends, hconnecting, hok]
      rw [hends]
      exact ⟨rfl, rfl, rfl, rfl⟩
    | failed =>
      rw [hconnecting] at hturn
      obtain ⟨rfl, rfl⟩ := hturn
      have hends : a.ends = false := by rw [Attempt.ends, hconnecting]
      have hpayloads : a.payloads = [] := by rw [Attempt.payloads, hconnecting]
      have hconnected : a.connected = false := by rw [Attempt.connected, hconnecting]
      rw [hends]
      refine ⟨rfl, h.retry (hnone hpayloads ▸ ?_) rfl rfl (by rw [hconnected]; rfl)⟩
      exact ⟨h.handled.callbacks, h.handled.called, h.handled.frames, h.handled.nextId⟩
    | session payloads =>
      rw [hconnecting] at hturn
      obtain ⟨rfl, u, rfl, hu⟩ := hturn
      have hends : a.ends = false := by rw [Attempt.ends, hconnecting]
      have hpayloads : a.payloads = payloads := by
        rw [Attempt.payloads, hconnecting]
        exact if_pos hok
      have hconnected : a.connected = true := by rw [Attempt.connected, hconnecting, hok]
      have hstart : Handled json reply callbacks ((before.flatMap Attempt.payloads).flatMap
          (dispatched json realText callbacks))
          { t with client := client, failureNumber := 0 } :=
        ⟨h.handled.callbacks, h.handled.called, h.handled.frames, h.handled.nextId⟩
      obtain ⟨hhandled, hsame⟩ := hstart.onMessages hu
      rw [hends]
      refine ⟨rfl, h.retry ?_ hsame.retryInterval hsame.slept ?_⟩
      · rw [List.flatMap_append, List.flatMap_singleton, hpayloads, List.flatMap_append]
        exact hhandled
      · rw [hsame.failureNumber, hconnected]
        rfl

/-- What a run has done, when it had made attempts before. -/
theorem After.run {attempts : List Attempt}
    (h : After json realText reply retryInterval callbacks before t)
    (ht : t.run json realText reply attempts = .ok t') :
    ∃ u, After json realText reply retryInterval callbacks
        (before ++ attempts.takeWhile (!·.ends)) u ∧
      t'.called = u.called ∧ t'.frames = u.frames ∧ t'.slept = u.slept := by
  induction attempts generalizing before t with
  | nil =>
    obtain rfl := Except.ok.inj ht
    rw [List.takeWhile_nil, List.append_nil]
    exact ⟨t, h, rfl, rfl, rfl⟩
  | cons a attempts ih =>
    obtain ⟨⟨t₁, again⟩, hone, ht⟩ := bind_eq_ok.mp ht
    obtain ⟨rfl, hafter⟩ := h.attempted hone
    cases hends : a.ends with
    | true =>
      rw [hends] at ht hafter
      obtain rfl := Except.ok.inj ht
      rw [List.takeWhile_cons_of_neg (by simp [hends]), List.append_nil]
      exact ⟨t, h, hafter⟩
    | false =>
      rw [hends] at ht hafter
      rw [List.takeWhile_cons_of_pos (by simp [hends]), List.append_cons]
      exact ih hafter ht

end SlackThread

open SlackThread in
/-- **What the thread does**: in any run, each message that arrived on a connection was handed once
to each callback that is registered for its type, in the order of arrival and of registration,
unless it is a `reconnect_url`; what the callbacks sent is numbered from 1 without a gap; and the
sleep after each attempt is as many retry intervals as there were attempts since the last one that
got connected, which counts as well. The thread returns at the first URL that the web socket
refuses. -/
theorem slackThread_run (json : JsonLib) (realText : Option Rat → Bytes)
    (reply : Calls → List Said) (retryInterval : UInt32)
    (callbacks : List (Bytes × SlackMessageHandler)) (attempts : List Attempt) (t : SlackThread)
    (h : (registered retryInterval callbacks).run json realText reply attempts = .ok t) :
    let taken := attempts.takeWhile (!·.ends)
    t.called =
        (taken.flatMap Attempt.payloads).flatMap (dispatched json realText callbacks) ∧
      t.frames = numbered json (saidIn reply t.called) ∧
      t.slept = (List.range taken.length).map fun i =>
        retryInterval * UInt32.ofNat (Attempt.failures (taken.take (i + 1))) := by
  obtain ⟨hhandled, hinterval, hnumber, hslept⟩ := handled_registered retryInterval callbacks
  have hstart : After json realText reply retryInterval callbacks []
      (registered retryInterval callbacks) := ⟨hhandled, hinterval, hnumber, hslept⟩
  obtain ⟨u, hafter, hcalled, hframes, hslept⟩ := hstart.run h
  rw [List.nil_append] at hafter
  dsimp only
  rw [hcalled, hframes, hslept, hafter.handled.called]
  exact ⟨rfl, hafter.handled.frames, hafter.slept⟩

/-- A JSON library that reads one message, and writes nothing. -/
def helloJson : JsonLib where
  write _ := [10]
  parse payload root :=
    if payload = ascii "hello" then
      (true, .object [(ascii "type", .string (ascii "message"))])
    else (false, root)

/-- Two connections, and a URL that is refused. -/
def twoConnections : List Attempt :=
  [⟨SlackClient.oneGroup (ascii "G1") (ascii "general"), .session [ascii "hello", ascii "?"]⟩,
    ⟨.null, .failed⟩,
    ⟨SlackClient.oneGroup (ascii "G1") (ascii "general"), .session [ascii "hello"]⟩,
    ⟨SlackClient.oneGroup (ascii "G1") (ascii "general"), .refused⟩]

/-- A callback that answers every second call. -/
def everySecond (called : Calls) : List Said :=
  if called.length % 2 = 0 then [⟨ascii "C1", ascii "hi"⟩] else []

open SlackThread in
/-- The callback is called for both messages and answers the second one, and the sleeps are of 30,
60 and 30 seconds. -/
theorem slackThread_run_twoConnections :
    ∃ t, (registered 30 [(ascii "message", 0)]).run helloJson (fun _ => []) everySecond
        twoConnections = .ok t ∧
      t.called.length = 2 ∧ t.frames = [[10]] ∧ t.slept = [30, 60, 30] := by
  refine ⟨_, rfl, ?_⟩
  obtain ⟨hcalled, hframes, hslept⟩ := slackThread_run helloJson (fun _ => []) everySecond 30
    [(ascii "message", 0)] twoConnections _ rfl
  rw [hframes, hslept, hcalled]
  exact ⟨rfl, rfl, rfl⟩

end WinterWind.Extras
