import WinterWind.Http.HttpServer
import WinterWind.Library.Runs

/-!
# The sessions of concurrent requests (`src/core/httpserver.cpp`)

The requests of one server, whose callbacks come in any order. `request_handler` allocates the
session of a request and keeps its address in `*con_cls`; the sessions alive are an explicit map.

* `Phase` is where libmicrohttpd is with a request. It calls `request_handler` once with no data,
  then once for each chunk and once more with no data, until a response is queued or `MHD_NO` is
  returned. `request_completed` may come at any moment, and is the last call for the request.
* `conn`, `url` and `method` are fixed for a request.
* `request_completed` does nothing: only `request_handler`, in its last call, deletes a session.

Results:
* `inv_step`: a pointer in a `*con_cls` is a live session of that request.
* `live_iff`: the live sessions are those a `*con_cls` still points to.
* **`released_iff_notAborted`**: no session outlives its request, exactly when no request is aborted
  between its first call of `request_handler` and its last.
-/

namespace WinterWind.Http

open Library

/-- Where libmicrohttpd is with a request. -/
inductive Phase where
  /-- `request_handler` has not been called. -/
  | waiting
  /-- It has been called, and will be called again. -/
  | receiving
  /-- A response is queued, or `MHD_NO` was returned. -/
  | closing
  /-- `request_completed` has been called. -/
  | completed
  deriving Repr, DecidableEq

/-- What every call of `request_handler` for a request is given. -/
structure ClientRequest where
  conn : MHDConnection
  url : Bytes
  method : Bytes

/-- A request: its `*con_cls`, an address or null, and the addresses of the sessions created for
it. -/
structure RequestState where
  phase : Phase := .waiting
  conCls : Option Nat := none
  created : List Nat := []
  deriving Repr, DecidableEq

/-- The sessions on the heap, the next address `new` returns, and the requests. -/
structure LiveSessions where
  sessions : UnorderedMap Nat ServerRequestSession := ∅
  next : Nat := 0
  requests : Nat → RequestState := fun _ => {}

/-- What libmicrohttpd calls, and for which request. -/
inductive ServerEvent where
  | requestHandler (r : Nat) (uploadData : Bytes)
  | requestCompleted (r : Nat)
  deriving Repr, DecidableEq

/-- The phase a call of `request_handler` leaves its request in. -/
def Turn.phase (turn : Turn) : Phase :=
  if turn.ret && turn.queued.isEmpty then .receiving else .closing

namespace LiveSessions

def fresh : LiveSessions := {}

def setRequest (s : LiveSessions) (r : Nat) (request : RequestState) : LiveSessions :=
  { s with requests := Function.update s.requests r request }

/-- `*con_cls = new ServerRequestSession()`, or null is left there. -/
def create (s : LiveSessions) (r : Nat) (turn : Turn) : LiveSessions :=
  match turn.conCls with
  | none => s.setRequest r { s.requests r with phase := turn.phase }
  | some session =>
    { s with sessions := s.sessions.insert s.next session, next := s.next + 1 }.setRequest r
      { phase := turn.phase
        conCls := some s.next
        created := s.next :: (s.requests r).created }

/-- The session is written to, or `delete session; *con_cls = NULL`. -/
def update (s : LiveSessions) (r p : Nat) (turn : Turn) : LiveSessions :=
  match turn.conCls with
  | none =>
    { s with sessions := s.sessions.erase p }.setRequest r
      { s.requests r with phase := turn.phase, conCls := none }
  | some session =>
    { s with sessions := s.sessions.insert p session }.setRequest r
      { s.requests r with phase := turn.phase }

variable (server : Server) (json : JsonLib) (requests : Nat → ClientRequest)

/-- The call of `request_handler` for request `r`. It is not made through a dangling pointer. -/
def handle (s : LiveSessions) (r : Nat) (uploadData : Bytes) : Option LiveSessions :=
  let call := requestHandler server json (requests r).conn (requests r).url (requests r).method
    uploadData
  match (s.requests r).conCls with
  | none => some (s.create r (call none))
  | some p => (s.sessions.lookup p).map fun session => s.update r p (call (some session))

/-- One callback of libmicrohttpd. -/
def step (s : LiveSessions) : ServerEvent → Option LiveSessions
  | .requestHandler r uploadData =>
    match (s.requests r).phase with
    | .waiting => if uploadData = [] then s.handle server json requests r [] else none
    | .receiving => s.handle server json requests r uploadData
    | .closing | .completed => none
  | .requestCompleted r =>
    if (s.requests r).phase = .completed then none
    else some (s.setRequest r { s.requests r with phase := .completed })

/-- Once `request_completed` has run, the sessions of the request are released and its `*con_cls`
is null. -/
def Released (s : LiveSessions) : Prop :=
  ∀ r, (s.requests r).phase = .completed →
    (s.requests r).conCls = none ∧ ∀ p ∈ (s.requests r).created, p ∉ s.sessions

/-- The condition on a step: a request is not aborted between its first call of `request_handler`
and its last. -/
def NotAborted (s : LiveSessions) : ServerEvent → Prop
  | .requestCompleted r => (s.requests r).phase ≠ .receiving
  | .requestHandler _ _ => True

/-! ## What the pointers are -/

/-- A `*con_cls` points to a live session of its request, and every live session is pointed to. -/
structure Inv (s : LiveSessions) : Prop where
  receiving : ∀ r, (s.requests r).phase = .receiving →
    (s.requests r).conCls.isSome = true ∧ (methodOf (requests r).method).isSome = true
  pointer : ∀ r p, (s.requests r).conCls = some p →
    ((s.requests r).phase = .receiving ∨ (s.requests r).phase = .completed) ∧
      p ∈ (s.requests r).created ∧ p ∈ s.sessions
  live : ∀ p ∈ s.sessions, ∃ r, (s.requests r).conCls = some p
  bound : ∀ r, ∀ p ∈ (s.requests r).created, p < s.next
  disjoint : ∀ r r' p, p ∈ (s.requests r).created → p ∈ (s.requests r').created → r = r'

variable {server json requests} {s : LiveSessions} {r : Nat}

@[simp] theorem requests_setRequest (request : RequestState) :
    (s.setRequest r request).requests = Function.update s.requests r request := rfl

@[simp] theorem sessions_setRequest (request : RequestState) :
    (s.setRequest r request).sessions = s.sessions := rfl

theorem inv_fresh : Inv requests fresh where
  receiving := nofun
  pointer := nofun
  live := fun _ hp => absurd hp Finmap.notMem_empty
  bound := nofun
  disjoint := nofun

/-- **The rule for one request.** The request `r` becomes `request`, whose session takes the place
of its former one on the heap; it owns no address but its own and the next. -/
theorem Inv.replace {t : LiveSessions} {request : RequestState} (h : Inv requests s)
    (hrequests : t.requests = Function.update s.requests r request)
    (hsessions : ∀ p, p ∈ t.sessions ↔
      request.conCls = some p ∨ p ∈ s.sessions ∧ (s.requests r).conCls ≠ some p)
    (hnext : s.next ≤ t.next)
    (hcreated : ∀ p ∈ request.created, p ∈ (s.requests r).created ∨ p = s.next ∧ p < t.next)
    (hreceiving : request.phase = .receiving →
      request.conCls.isSome = true ∧ (methodOf (requests r).method).isSome = true)
    (hpointer : ∀ p, request.conCls = some p →
      (request.phase = .receiving ∨ request.phase = .completed) ∧ p ∈ request.created) :
    Inv requests t := by
  have hself : t.requests r = request := by rw [hrequests, Function.update_self]
  have hother (r' : Nat) (hr : r' ≠ r) : t.requests r' = s.requests r' := by
    rw [hrequests, Function.update_of_ne hr]
  -- an address of another request is none of this one's
  have hne {r' p : Nat} (hr : r' ≠ r) (hp : p ∈ (s.requests r').created) :
      p ∉ request.created := fun hp' => by
    rcases hcreated p hp' with hold | ⟨rfl, -⟩
    · exact hr (h.disjoint r' r p hp hold)
    · exact absurd (h.bound r' _ hp) (Nat.lt_irrefl _)
  refine
    { receiving := fun r' hr' => ?receiving
      pointer := fun r' p hp => ?pointer
      live := fun p hp => ?live
      bound := fun r' p hp => ?bound
      disjoint := fun r' r'' p hp hp' => ?disjoint }
  case receiving =>
    by_cases hr : r' = r
    · subst hr
      rw [hself] at hr' ⊢
      exact hreceiving hr'
    · rw [hother r' hr] at hr' ⊢
      exact h.receiving r' hr'
  case pointer =>
    by_cases hr : r' = r
    · subst hr
      rw [hself] at hp ⊢
      exact ⟨(hpointer p hp).1, (hpointer p hp).2, (hsessions p).mpr (.inl hp)⟩
    · rw [hother r' hr] at hp ⊢
      obtain ⟨hphase, hown, hlive⟩ := h.pointer r' p hp
      refine ⟨hphase, hown, (hsessions p).mpr (.inr ⟨hlive, fun hcls => ?_⟩)⟩
      exact hr (h.disjoint r' r p hown (h.pointer r p hcls).2.1)
  case live =>
    rcases (hsessions p).mp hp with hcls | ⟨hlive, hcls⟩
    · exact ⟨r, hself ▸ hcls⟩
    · obtain ⟨r', hr'⟩ := h.live p hlive
      have hr : r' ≠ r := fun e => hcls (e ▸ hr')
      exact ⟨r', by rw [hother r' hr]; exact hr'⟩
  case bound =>
    by_cases hr : r' = r
    · subst hr
      rw [hself] at hp
      rcases hcreated p hp with hold | ⟨-, hlt⟩
      · exact lt_of_lt_of_le (h.bound _ p hold) hnext
      · exact hlt
    · rw [hother r' hr] at hp
      exact lt_of_lt_of_le (h.bound r' p hp) hnext
  case disjoint =>
    by_cases hr : r' = r
    · subst hr
      by_cases hr' : r'' = r'
      · exact hr'.symm
      · rw [hself] at hp
        rw [hother r'' hr'] at hp'
        exact absurd hp (hne hr' hp')
    · rw [hother r' hr] at hp
      by_cases hr' : r'' = r
      · subst hr'
        rw [hself] at hp'
        exact absurd hp' (hne hr hp)
      · rw [hother r'' hr'] at hp'
        exact h.disjoint r' r'' p hp hp'

/-- What a call without a session comes to. -/
theorem turn_none {server : Server} {json : JsonLib} {conn : MHDConnection}
    {url method uploadData : Bytes} {turn : Turn}
    (h : requestHandler server json conn url method uploadData none = turn) :
    turn.conCls = none ∧ turn.phase = .closing ∨
      turn.conCls.isSome = true ∧ turn.phase = .receiving ∧ (methodOf method).isSome = true := by
  subst h
  unfold requestHandler
  cases methodOf method with
  | none => exact .inl ⟨rfl, rfl⟩
  | some m => exact .inr ⟨rfl, rfl, rfl⟩

/-- What a call with a session comes to. -/
theorem turn_some {server : Server} {json : JsonLib} {conn : MHDConnection}
    {url method uploadData : Bytes} {session : ServerRequestSession} {turn : Turn}
    (h : requestHandler server json conn url method uploadData (some session) = turn)
    (hmethod : (methodOf method).isSome = true) :
    turn.conCls = none ∧ turn.phase = .closing ∨
      turn.conCls.isSome = true ∧ turn.phase = .receiving := by
  subst h
  obtain ⟨m, hm⟩ := Option.isSome_iff_exists.mp hmethod
  unfold requestHandler
  simp only [hm]
  split
  · exact .inr ⟨rfl, rfl⟩
  · exact .inl ⟨rfl, rfl⟩

/-- The first call creates a session, or refuses the request. -/
theorem Inv.create {turn : Turn} (h : Inv requests s) (hcls : (s.requests r).conCls = none)
    (hturn : turn.conCls = none ∧ turn.phase = .closing ∨ turn.conCls.isSome = true ∧
      turn.phase = .receiving ∧ (methodOf (requests r).method).isSome = true) :
    Inv requests (s.create r turn) := by
  unfold LiveSessions.create
  rcases hturn with ⟨hnone, hclosing⟩ | ⟨hsome, hreceiving, hmethod⟩
  · rw [hnone, hclosing]
    refine h.replace rfl (fun p => ?_) le_rfl (fun p hp => .inl hp) nofun fun p hp => ?_
    · simp [hcls]
    · exact absurd (hcls.symm.trans hp) nofun
  · obtain ⟨session, hsession⟩ := Option.isSome_iff_exists.mp hsome
    rw [hsession, hreceiving]
    refine h.replace rfl (fun p => ?_) (Nat.le_succ s.next) (fun p hp => ?_)
      (fun _ => ⟨rfl, hmethod⟩) fun p hp => ?_
    · simp [hcls, eq_comm]
    · rcases List.mem_cons.mp hp with rfl | hold
      · exact .inr ⟨rfl, Nat.lt_succ_self _⟩
      · exact .inl hold
    · obtain rfl := Option.some.inj hp
      exact ⟨.inl rfl, List.mem_cons_self⟩

/-- A later call writes to the session, or deletes it. -/
theorem Inv.update {turn : Turn} {p : Nat} (h : Inv requests s)
    (hcls : (s.requests r).conCls = some p) (hphase : (s.requests r).phase = .receiving)
    (hturn : turn.conCls = none ∧ turn.phase = .closing ∨
      turn.conCls.isSome = true ∧ turn.phase = .receiving) :
    Inv requests (s.update r p turn) := by
  obtain ⟨-, hown, hlive⟩ := h.pointer r p hcls
  unfold LiveSessions.update
  rcases hturn with ⟨hnone, hclosing⟩ | ⟨hsome, hreceiving⟩
  · rw [hnone, hclosing]
    refine h.replace rfl (fun q => ?_) le_rfl (fun q hq => .inl hq) nofun nofun
    simp [hcls, eq_comm, and_comm]
  · obtain ⟨session, hsession⟩ := Option.isSome_iff_exists.mp hsome
    rw [hsession, hreceiving]
    refine h.replace rfl (fun q => ?_) le_rfl (fun q hq => .inl hq)
      (fun _ => h.receiving r hphase) fun q hq => ?_
    · rw [hcls]
      by_cases hq : p = q
      · simp [hq]
      · simp [hq, Ne.symm hq]
    · exact ⟨.inl rfl, (h.pointer r q hq).2.1⟩

/-- `request_completed` leaves the session and its pointer as they are. -/
theorem Inv.complete (h : Inv requests s) :
    Inv requests (s.setRequest r { s.requests r with phase := .completed }) := by
  refine h.replace rfl (fun p => ?_) le_rfl (fun p hp => .inl hp) nofun fun p hp => ?_
  · by_cases hp : (s.requests r).conCls = some p
    · simp [hp, (h.pointer r p hp).2.2]
    · simp [hp]
  · exact ⟨.inr rfl, (h.pointer r p hp).2.1⟩

/-- A call of `request_handler` keeps the invariant. -/
theorem inv_handle {t : LiveSessions} {uploadData : Bytes} (h : Inv requests s)
    (hphase : (s.requests r).phase = .waiting ∨ (s.requests r).phase = .receiving)
    (ht : s.handle server json requests r uploadData = some t) : Inv requests t := by
  unfold handle at ht
  dsimp only at ht
  split at ht
  · rename_i hcls
    obtain rfl := Option.some.inj ht
    exact h.create hcls (turn_none rfl)
  · rename_i p hcls
    obtain ⟨session, -, rfl⟩ := Option.map_eq_some_iff.mp ht
    have hreceiving : (s.requests r).phase = .receiving := by
      rcases (h.pointer r p hcls).1 with e | e
      · exact e
      · rw [e] at hphase
        exact absurd hphase (by decide)
    exact h.update hcls hreceiving (turn_some rfl (h.receiving r hreceiving).2)

/-- Every callback keeps the invariant. -/
theorem inv_step {t : LiveSessions} {e : ServerEvent} (h : Inv requests s)
    (ht : s.step server json requests e = some t) : Inv requests t := by
  cases e with
  | requestHandler r uploadData =>
    simp only [step] at ht
    split at ht
    · rename_i hphase
      split at ht
      · exact inv_handle h (.inl hphase) ht
      · cases ht
    · rename_i hphase
      exact inv_handle h (.inr hphase) ht
    · cases ht
    · cases ht
  | requestCompleted r =>
    simp only [step] at ht
    split at ht
    · cases ht
    · obtain rfl := Option.some.inj ht
      exact h.complete

/-! ## Release -/

/-- A request whose `*con_cls` is null has no live session. -/
theorem Inv.released_iff (h : Inv requests s) :
    Released s ↔ ∀ r, (s.requests r).phase = .completed → (s.requests r).conCls = none := by
  refine forall₂_congr fun r _ => ⟨And.left, fun hcls => ⟨hcls, fun p hp hlive => ?_⟩⟩
  obtain ⟨r', hr'⟩ := h.live p hlive
  obtain rfl := h.disjoint r r' p hp (h.pointer r' p hr').2.1
  exact absurd (hcls.symm.trans hr') nofun

theorem phase_ne_completed (turn : Turn) : turn.phase ≠ .completed := by
  unfold Turn.phase
  split <;> nofun

theorem requests_create (turn : Turn) :
    ∃ request, (s.create r turn).requests = Function.update s.requests r request ∧
      request.phase = turn.phase := by
  unfold create
  split
  · exact ⟨_, rfl, rfl⟩
  · exact ⟨_, rfl, rfl⟩

theorem requests_update (p : Nat) (turn : Turn) :
    ∃ request, (s.update r p turn).requests = Function.update s.requests r request ∧
      request.phase = turn.phase := by
  unfold update
  split
  · exact ⟨_, rfl, rfl⟩
  · exact ⟨_, rfl, rfl⟩

/-- A call of `request_handler` completes no request. -/
theorem requests_handle {t : LiveSessions} {uploadData : Bytes} {r' : Nat}
    (ht : s.handle server json requests r uploadData = some t)
    (hphase : (t.requests r').phase = .completed) : t.requests r' = s.requests r' := by
  have hupdate : ∃ turn request, t.requests = Function.update s.requests r request ∧
      request.phase = Turn.phase turn := by
    unfold handle at ht
    dsimp only at ht
    split at ht
    · obtain rfl := Option.some.inj ht
      exact ⟨_, requests_create _⟩
    · obtain ⟨session, -, rfl⟩ := Option.map_eq_some_iff.mp ht
      exact ⟨_, requests_update _ _⟩
  obtain ⟨turn, request, hrequests, hturn⟩ := hupdate
  rw [hrequests] at hphase ⊢
  by_cases hr : r' = r
  · subst hr
    rw [Function.update_self, hturn] at hphase
    exact absurd hphase (phase_ne_completed turn)
  · rw [Function.update_of_ne hr]

theorem released_handle {t : LiveSessions} {uploadData : Bytes} (h : Inv requests t)
    (hs : Released s) (ht : s.handle server json requests r uploadData = some t) : Released t := by
  refine h.released_iff.mpr fun r' hphase => ?_
  have hsame := requests_handle ht hphase
  rw [hsame] at hphase ⊢
  exact (hs r' hphase).1

/-- A step that aborts no request keeps every completed request released. -/
theorem released_step {t : LiveSessions} {e : ServerEvent} (h : Inv requests s) (hs : Released s)
    (ht : s.step server json requests e = some t) (hok : s.NotAborted e) : Released t := by
  have hinv : Inv requests t := inv_step h ht
  cases e with
  | requestHandler r uploadData =>
    simp only [step] at ht
    split at ht
    · split at ht
      · exact released_handle hinv hs ht
      · cases ht
    · exact released_handle hinv hs ht
    · cases ht
    · cases ht
  | requestCompleted r =>
    simp only [step] at ht
    split at ht
    · cases ht
    · rename_i hcompleted
      obtain rfl := Option.some.inj ht
      refine hinv.released_iff.mpr fun r' hphase => ?_
      rw [requests_setRequest] at hphase ⊢
      by_cases hr : r' = r
      · subst hr
        rw [Function.update_self]
        refine Option.eq_none_iff_forall_ne_some.mpr fun p hp => ?_
        rcases (h.pointer r' p hp).1 with e | e
        · exact hok e
        · exact hcompleted e
      · rw [Function.update_of_ne hr] at hphase ⊢
        exact (hs r' hphase).1

/-- **The leak.** A request that is aborted keeps its session. -/
theorem not_released_of_aborted {t : LiveSessions} {e : ServerEvent} (h : Inv requests s)
    (ht : s.step server json requests e = some t) (hnot : ¬ s.NotAborted e) : ¬ Released t := by
  cases e with
  | requestHandler r uploadData => exact absurd trivial hnot
  | requestCompleted r =>
    have hphase : (s.requests r).phase = .receiving := not_not.mp hnot
    obtain ⟨p, hp⟩ := Option.isSome_iff_exists.mp (h.receiving r hphase).1
    simp only [step, hphase, reduceCtorEq, if_false] at ht
    obtain rfl := Option.some.inj ht
    intro hreleased
    have hcls := (hreleased r (by rw [requests_setRequest, Function.update_self])).1
    rw [requests_setRequest, Function.update_self] at hcls
    exact absurd (hp.symm.trans hcls) nofun

end LiveSessions

open LiveSessions

/-- **The live sessions** are, at every moment of every run, those a `*con_cls` still points to. -/
theorem live_iff (server : Server) (json : JsonLib) (requests : Nat → ClientRequest)
    (es : List ServerEvent) :
    Everywhere (step server json requests)
      (fun s => ∀ p, p ∈ s.sessions ↔ ∃ r, (s.requests r).conCls = some p) fresh es := by
  refine everywhere_of_always (fun s (h : Inv requests s) p => ?_)
    (fun s e t h ht (_ : True) => inv_step h ht) inv_fresh (always_trivial es fresh)
  exact ⟨h.live p, fun ⟨r, hr⟩ => (h.pointer r p hr).2.2⟩

/-- **When no session outlives its request**: exactly in the runs in which no request is aborted
after its first call of `request_handler` and before its last, for any requests in any order. -/
theorem released_iff_notAborted (server : Server) (json : JsonLib) (requests : Nat → ClientRequest)
    (es : List ServerEvent) :
    Everywhere (step server json requests) Released fresh es ↔
      Always (step server json requests) NotAborted fresh es := by
  have hfresh : Released fresh := nofun
  exact everywhere_iff_always (fun _ (h : Inv requests _ ∧ Released _) => h.2)
    (fun _ _ _ h ht hok => ⟨inv_step h.1 ht, released_step h.1 h.2 ht hok⟩)
    (fun _ _ _ h ht hnot => not_released_of_aborted h.1 ht hnot) ⟨inv_fresh, hfresh⟩

/-- A client posts a form and is gone after the headers. -/
theorem not_released_aborted :
    ¬ Everywhere (step formServer noJson fun _ => ⟨formConnection, ascii "/", ascii "POST"⟩)
      Released fresh [.requestHandler 0 [], .requestCompleted 0] := by
  intro h
  have hreleased := everywhere_last h rfl
  exact absurd (hreleased 0 rfl).1 nofun

end WinterWind.Http
