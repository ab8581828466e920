import WinterWind.Http.Transfers
import Mathlib.Data.List.DropRight

/-!
# What a request is sent with (`src/core/httpclient.cpp`)

A history of the calls that stage headers and parameters and of the requests between them, for any
query flags and any outcome of the transfers.

* `uriStaged`, `formStaged`: the parameters added since the last request, as assignments in the
  order of the calls; `assigned` keeps the last value of each name.
* `headersStaged`: the headers added since the last request whose query lacked
  `FLAG_KEEP_HEADER_CACHE_AFTER_REQUEST`.

Results:
* `lookup_assigned`: what a name is assigned to.
* `client_runCalls`: the maps of the client at every moment.
* **`sent_runCalls`**: each request is sent with exactly what is staged for it.
-/

namespace WinterWind.Http

/-! ## Assignments -/

/-- The map a sequence of assignments builds. -/
def assigned (assignments : List (Bytes × Bytes)) : UnorderedMap Bytes Bytes :=
  assignments.foldl (fun m a => m.insert a.1 a.2) ∅

theorem assigned_append (as : List (Bytes × Bytes)) (a : Bytes × Bytes) :
    assigned (as ++ [a]) = (assigned as).insert a.1 a.2 := by
  unfold assigned
  rw [List.foldl_append, List.foldl_cons, List.foldl_nil]

/-- **The last value wins.** -/
theorem lookup_assigned (as : List (Bytes × Bytes)) (name : Bytes) :
    (assigned as).lookup name = ((as.filter fun a => a.1 = name).map Prod.snd).getLast? := by
  unfold assigned
  rw [lookup_foldl_last, Finmap.lookup_empty, Option.or_none]

/-! ## Calls -/

/-- A call that stages something, or a request. -/
inductive StagingCall where
  | addHttpHeader (header value : Bytes)
  | addUriParam (param value : Bytes) (escape : Bool)
  | addFormParam (param value : Bytes) (escape : Bool)
  | request (query : Query) (res : Bytes)

namespace StagingCall

def isRequest : StagingCall → Bool
  | request _ _ => true
  | _ => false

/-- A request whose query lacks `FLAG_KEEP_HEADER_CACHE_AFTER_REQUEST`. -/
def dropsHeaders : StagingCall → Bool
  | request query _ => query.flag &&& Query.flagKeepHeaderCacheAfterRequest == 0
  | _ => false

/-- The value staged for a parameter. -/
def escaped (value : Bytes) (escape : Bool) : Bytes :=
  if escape then httpStringEscape value else value

def header : StagingCall → Option (Bytes × Bytes)
  | addHttpHeader header value => some (header, value)
  | _ => none

def uriParam : StagingCall → Option (Bytes × Bytes)
  | addUriParam param value escape => some (param, escaped value escape)
  | _ => none

def formParam : StagingCall → Option (Bytes × Bytes)
  | addFormParam param value escape => some (param, escaped value escape)
  | _ => none

end StagingCall

/-- The assignments made since the last call that drops them. -/
def staged (drops : StagingCall → Bool) (assignment : StagingCall → Option (Bytes × Bytes))
    (calls : List StagingCall) : UnorderedMap Bytes Bytes :=
  assigned ((calls.rtakeWhile fun c => !drops c).filterMap assignment)

/-- The URI parameters added since the last request. -/
def uriStaged (calls : List StagingCall) : UnorderedMap Bytes Bytes :=
  staged StagingCall.isRequest StagingCall.uriParam calls

/-- The form parameters added since the last request. -/
def formStaged (calls : List StagingCall) : UnorderedMap Bytes Bytes :=
  staged StagingCall.isRequest StagingCall.formParam calls

/-- The headers added since the last request that drops them. -/
def headersStaged (calls : List StagingCall) : UnorderedMap Bytes Bytes :=
  staged StagingCall.dropsHeaders StagingCall.header calls

section Staged

variable {drops : StagingCall → Bool} {assignment : StagingCall → Option (Bytes × Bytes)}
  {calls : List StagingCall} {c : StagingCall}

theorem staged_drop (h : drops c = true) : staged drops assignment (calls ++ [c]) = ∅ := by
  unfold staged
  rw [List.rtakeWhile_concat_neg _ _ _ (by simp [h])]
  rfl

theorem staged_keep (h : drops c = false) (hc : assignment c = none) :
    staged drops assignment (calls ++ [c]) = staged drops assignment calls := by
  unfold staged
  rw [List.rtakeWhile_concat_pos _ _ _ (by simp [h]), List.filterMap_append,
    List.filterMap_cons_none hc, List.filterMap_nil, List.append_nil]

theorem staged_assign {a : Bytes × Bytes} (h : drops c = false) (hc : assignment c = some a) :
    staged drops assignment (calls ++ [c]) =
      (staged drops assignment calls).insert a.1 a.2 := by
  unfold staged
  rw [List.rtakeWhile_concat_pos _ _ _ (by simp [h]), List.filterMap_append,
    List.filterMap_cons_some hc, List.filterMap_nil, assigned_append]

end Staged

/-! ## The run -/

variable (net : Net)

/-- One call. -/
def perform (t : Transfers) : StagingCall → Transfers
  | .addHttpHeader header value => t.addHttpHeader header value
  | .addUriParam param value escape => t.addUriParam param value escape
  | .addFormParam param value escape => t.addFormParam param value escape
  | .request query res => (t.request net query res).1

/-- The calls in order. -/
def runCalls (t : Transfers) (calls : List StagingCall) : Transfers := calls.foldl (perform net) t

/-- A client that has staged nothing. -/
def freshClient (username password : Bytes) (maxFileSize : UInt32) : HTTPClient :=
  { username := username
    password := password
    maxFileSize := maxFileSize }

/-- The client with what `calls` leave staged. -/
def HTTPClient.staging (cli : HTTPClient) (calls : List StagingCall) : HTTPClient :=
  { cli with
    httpHeaders := headersStaged calls
    uriParams := uriStaged calls
    formParams := formStaged calls }

variable {net}

theorem runCalls_append (t : Transfers) (before after : List StagingCall) :
    runCalls net t (before ++ after) = runCalls net (runCalls net t before) after :=
  List.foldl_append

/-- `actual` is `cli` with what `calls` leave staged, up to the code of the last answer. -/
structure HoldsStaged (cli : HTTPClient) (calls : List StagingCall) (actual : HTTPClient) :
    Prop where
  username : actual.username = cli.username
  password : actual.password = cli.password
  maxFileSize : actual.maxFileSize = cli.maxFileSize
  headers : actual.httpHeaders = headersStaged calls
  uri : actual.uriParams = uriStaged calls
  form : actual.formParams = formStaged calls

/-- A call changes the maps as its own assignment, or the clearing it ends with, says. -/
theorem holdsStaged_perform {cli : HTTPClient} {calls : List StagingCall} {t : Transfers}
    (h : HoldsStaged cli calls t.client) (c : StagingCall) :
    HoldsStaged cli (calls ++ [c]) (perform net t c).client := by
  obtain ⟨husername, hpassword, hsize, hheaders, huri, hform⟩ := h
  cases c with
  | addHttpHeader header value =>
    refine ⟨husername, hpassword, hsize, ?_, ?_, ?_⟩
    · rw [headersStaged, staged_assign rfl rfl, ← headersStaged, ← hheaders]
      rfl
    · rw [uriStaged, staged_keep rfl rfl]
      exact huri
    · rw [formStaged, staged_keep rfl rfl]
      exact hform
  | addUriParam param value escape =>
    refine ⟨husername, hpassword, hsize, ?_, ?_, ?_⟩
    · rw [headersStaged, staged_keep rfl rfl]
      exact hheaders
    · rw [uriStaged, staged_assign rfl rfl, ← uriStaged, ← huri]
      rfl
    · rw [formStaged, staged_keep rfl rfl]
      exact hform
  | addFormParam param value escape =>
    refine ⟨husername, hpassword, hsize, ?_, ?_, ?_⟩
    · rw [headersStaged, staged_keep rfl rfl]
      exact hheaders
    · rw [uriStaged, staged_keep rfl rfl]
      exact huri
    · rw [formStaged, staged_assign rfl rfl, ← formStaged, ← hform]
      rfl
  | request query res =>
    refine ⟨husername, hpassword, hsize, ?_, ?_, ?_⟩
    · unfold headersStaged
      by_cases hdrop : (query.flag &&& Query.flagKeepHeaderCacheAfterRequest == 0) = true
      · rw [staged_drop hdrop]
        exact if_pos hdrop
      · rw [staged_keep (Bool.eq_false_iff.mpr hdrop) rfl]
        exact (if_neg hdrop).trans hheaders
    · rw [uriStaged, staged_drop rfl]
      rfl
    · rw [formStaged, staged_drop rfl]
      rfl

/-- **The staged maps at every moment.** -/
theorem client_runCalls (username password : Bytes) (maxFileSize : UInt32)
    (calls : List StagingCall) :
    HoldsStaged (freshClient username password maxFileSize) calls
      (runCalls net ⟨freshClient username password maxFileSize, []⟩ calls).client := by
  induction calls using List.reverseRecOn with
  | nil => exact ⟨rfl, rfl, rfl, rfl, rfl, rfl⟩
  | append_singleton calls c ih =>
    rw [runCalls_append]
    exact holdsStaged_perform ih c

/-- What is sent depends on the maps, the credentials and the size limit alone. -/
theorem HoldsStaged.sent_eq {cli actual : HTTPClient} {calls : List StagingCall}
    (h : HoldsStaged cli calls actual) (query : Query) (orders : Orders actual) :
    ∃ orders', actual.sent query orders = (cli.staging calls).sent query orders' := by
  obtain ⟨husername, hpassword, hsize, hheaders, huri, hform⟩ := h
  obtain ⟨username, password, headers, uri, form, code, size⟩ := actual
  subst husername hpassword hsize hheaders huri hform
  exact ⟨⟨orders.uri, orders.headers, orders.form⟩, rfl⟩

/-! ## What is sent -/

theorem length_sent_perform (t : Transfers) (c : StagingCall) :
    (perform net t c).sent.length = t.sent.length + if c.isRequest then 1 else 0 := by
  cases c with
  | request query res =>
    rw [perform, Transfers.sent_request, List.length_append]
    rfl
  | _ => rfl

/-- There is one request for each call of `request`. -/
theorem length_sent_runCalls (t : Transfers) (calls : List StagingCall) :
    (runCalls net t calls).sent.length =
      t.sent.length + calls.countP StagingCall.isRequest := by
  induction calls generalizing t with
  | nil => rfl
  | cons c calls ih =>
    rw [List.countP_cons]
    have := ih (perform net t c)
    rw [length_sent_perform] at this
    simp only [runCalls, List.foldl_cons] at this ⊢
    omega

/-- What was sent stays as it was. -/
theorem sent_prefix_runCalls (t : Transfers) (calls : List StagingCall) :
    t.sent <+: (runCalls net t calls).sent := by
  induction calls generalizing t with
  | nil => exact List.prefix_refl _
  | cons c calls ih =>
    refine List.IsPrefix.trans ?_ (ih (perform net t c))
    cases c with
    | request query res => exact List.prefix_append _ _
    | _ => exact List.prefix_refl _

/-- **Requests do not leak staged state into one another.** In any history of a client, with any
flags, orders and outcomes, the `k`-th request is the one a client sends whose URI and form
parameters are those added since the request before it, and whose headers are those added since the
last earlier request that drops them; the last value counts for each name. -/
theorem sent_runCalls (net : Net) (username password : Bytes) (maxFileSize : UInt32)
    (before : List StagingCall) (query : Query) (res : Bytes) (after : List StagingCall) :
    ∃ orders, (runCalls net ⟨freshClient username password maxFileSize, []⟩
        (before ++ .request query res :: after)).sent[before.countP StagingCall.isRequest]? =
      some (((freshClient username password maxFileSize).staging before).sent query orders) := by
  have hholds := @client_runCalls net username password maxFileSize before
  have hlength := @length_sent_runCalls net ⟨freshClient username password maxFileSize, []⟩ before
  rw [runCalls_append]
  generalize runCalls net ⟨freshClient username password maxFileSize, []⟩ before = t at *
  obtain ⟨orders, hsent⟩ := hholds.sent_eq query (net.orders t.sent.length t.client)
  refine ⟨orders, ?_⟩
  rw [List.length_nil, Nat.zero_add] at hlength
  have hnow : (perform net t (.request query res)).sent[t.sent.length]? =
      some (t.next net query) := by
    rw [perform, Transfers.sent_request, List.getElem?_append_right (Nat.le_refl _), Nat.sub_self]
    rfl
  obtain ⟨rest, hrest⟩ : (perform net t (.request query res)).sent <+:
    (runCalls net t (.request query res :: after)).sent := sent_prefix_runCalls _ after
  rw [← hsent, ← hlength, ← hrest,
    List.getElem?_append_left (List.getElem?_eq_some_iff.mp hnow).1]
  exact hnow

end WinterWind.Http
