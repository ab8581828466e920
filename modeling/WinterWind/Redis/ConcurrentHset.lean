import WinterWind.Library.Runs
import WinterWind.Redis.RedisClient

/-!
# Concurrent `hset` (`RedisClient::hset` in `src/core/redisclient.cpp`)

Several connected clients each run `hset` on one key, and one server executes their commands in any
order, each at once. A thread is its client's program; `run i` executes the command thread `i` waits
for, and `elsewhere` is whatever else happens to the server without touching the key.

* The server is a parameter, with the laws of `TYPE`, `DEL` and `HSET` as its documentation states
  them for a key without a time to live.
* A value that is not a hash is known by the name of its type only.
* A thread goes through the phases of `hset`; `phase_execute` says what the server does in each.

Results:
* `step_phases`: a step moves one thread to its next phase and changes the value accordingly.
* **`fields_iff`**: with a key, fields and values free of NUL, every field is in the hash when all
  the calls are complete, exactly when no `DEL` is executed after a call is complete.
-/

namespace WinterWind.Redis

open Library

/-! ## The server -/

/-- What a key holds: a hash, or a value of another type. -/
inductive Value where
  | hash (fields : UnorderedMap Bytes Bytes)
  | other (type : Bytes) (h : type ≠ ascii "hash" ∧ type ≠ ascii "none")

/-- The reply of `TYPE`. -/
def typeOf : Option Value → Bytes
  | none => ascii "none"
  | some (.hash _) => ascii "hash"
  | some (.other type _) => type

/-- The value is of another type. -/
def wrongType : Option Value → Bool
  | some (.other ..) => true
  | _ => false

/-- The value after `HSET`: an error if it is of another type, else a hash with the field. -/
def hsetValue (field value : Bytes) : Option Value → Option Value
  | none => some (.hash ((∅ : UnorderedMap Bytes Bytes).insert field value))
  | some (.hash fields) => some (.hash (fields.insert field value))
  | some (.other type h) => some (.other type h)

/-- A Redis server. -/
structure RedisServer where
  Store : Type
  value : Store → Bytes → Option Value
  execute : Store → List Bytes → Reply × Store
  execute_type : ∀ store key,
    (execute store [ascii "TYPE", key]).1 = .status (typeOf (value store key)) ∧
      value (execute store [ascii "TYPE", key]).2 key = value store key
  execute_del : ∀ store key, value (execute store [ascii "DEL", key]).2 key = none
  execute_hset : ∀ store key field val,
    value (execute store [ascii "HSET", key, field, val]).2 key =
      hsetValue field val (value store key)

/-- Something that happens to the server without touching the key. -/
structure RedisServer.Elsewhere (server : RedisServer) (key : Bytes) where
  apply : server.Store → server.Store
  keeps : ∀ store, server.value (apply store) key = server.value store key

/-! ## The clients -/

/-- A connected client and what it writes. -/
structure Writer where
  client : RedisClient
  clock : Clock
  field : Bytes
  value : Bytes
  connected : client.context.isSome = true

/-- A call of `hset`: who makes it, and what is left of it. -/
structure Thread where
  writer : Writer
  program : Call Bool

/-- The server's store and the calls. -/
structure System (server : RedisServer) where
  store : server.Store
  threads : List Thread

namespace System

variable {server : RedisServer} (key : Bytes)

/-- What happens next. -/
inductive Event (server : RedisServer) (key : Bytes) where
  | run (thread : Nat)
  | elsewhere (change : server.Elsewhere (cStr key))

/-- Every client calls `hset(key, field, value)`. -/
def start (store : server.Store) (writers : List Writer) : System server where
  store := store
  threads := writers.map fun w => ⟨w, w.client.hset w.clock key w.field w.value 0⟩

variable {key}

/-- One step: the server executes the command a thread waits for. -/
def step (s : System server) : Event server key → Option (System server)
  | .run i =>
    match s.threads[i]? with
    | some thread =>
      match thread.program with
      | .call (.redisCommand _ args) k =>
        some {
          store := (server.execute s.store args).2
          threads := s.threads.set i
            { thread with program := k (some (server.execute s.store args).1) } }
      | _ => none
    | none => none
  | .elsewhere change => some { s with store := change.apply s.store }

/-- The call has returned. -/
def Complete (thread : Thread) : Prop := ∃ r, thread.program = .done r

/-- The call is about to send `DEL`. -/
def Deletes (thread : Thread) : Prop :=
  ∃ context args k, thread.program = .call (.redisCommand context (ascii "DEL" :: args)) k

/-- The value is a hash in which the field has this value. -/
def HasField (field val : Bytes) (v : Option Value) : Prop :=
  ∃ fields, v = some (.hash fields) ∧ fields.lookup field = some val

/-- Every field that was written is in the hash at the key. -/
def AllFields (key : Bytes) (s : System server) : Prop :=
  ∀ thread ∈ s.threads,
    HasField thread.writer.field thread.writer.value (server.value s.store key)

/-- The condition on a step: no `DEL` is executed once a call is complete. -/
def NoLateDel (s : System server) : Event server key → Prop
  | .run i => ∀ thread, s.threads[i]? = some thread → Deletes thread →
    ∀ other ∈ s.threads, ¬ Complete other
  | .elsewhere _ => True

/-! ## The phases of a call -/

/-- How far a call of `hset` is: which command it sends next. -/
inductive Phase where
  | typing
  | deleting
  | writing
  | wrote
  deriving Repr, DecidableEq

variable (key)

/-- What is left of the call. -/
def Phase.program (w : Writer) : Phase → Call Bool
  | typing => w.client.hset w.clock key w.field w.value 0
  | deleting => (w.client.del w.clock key).bind fun r =>
    r.2.hsetCommand w.clock key w.field w.value 0
  | writing => w.client.hsetCommand w.clock key w.field w.value 0
  | wrote => .done (true, w.client)

variable {key}

/-- The phase after the command was executed on `v`. -/
def Phase.next (v : Option Value) : Phase → Phase
  | typing => if wrongType v then deleting else writing
  | deleting => writing
  | writing => wrote
  | wrote => wrote

/-- What the command makes of `v`. -/
def Phase.effect (w : Writer) (v : Option Value) : Phase → Option Value
  | typing => v
  | deleting => none
  | writing => hsetValue (cStr w.field) (cStr w.value) v
  | wrote => v

/-- The types that `hset` deletes. -/
theorem typeOf_wrong (v : Option Value) :
    (typeOf v ≠ ascii "hash" ∧ typeOf v ≠ ascii "none") ↔ wrongType v = true := by
  rcases v with _ | fields | ⟨type, htype⟩
  · exact iff_of_false (fun h => h.2 rfl) nofun
  · exact iff_of_false (fun h => h.1 rfl) nofun
  · exact iff_of_true htype rfl

theorem program_typing (key : Bytes) (w : Writer) : Phase.typing.program key w =
    (RedisClient.command [ascii "TYPE", cStr key] (false, []) (RedisClient.typeReply [] w.client)
      w.client).bind fun r => r.2.hsetVerified w.clock key w.field w.value 0 r.1.2 := by
  obtain ⟨context, hcontext⟩ := Option.isSome_iff_exists.mp w.connected
  unfold Phase.program RedisClient.hset RedisClient.type
  rw [RedisClient.withContext_some hcontext, RedisClient.withContext_some hcontext]

theorem program_deleting (key : Bytes) (w : Writer) : Phase.deleting.program key w =
    (RedisClient.command [ascii "DEL", cStr key] false (fun _ => .done (true, w.client))
      w.client).bind fun r => r.2.hsetCommand w.clock key w.field w.value 0 := by
  obtain ⟨context, hcontext⟩ := Option.isSome_iff_exists.mp w.connected
  unfold Phase.program RedisClient.del
  rw [RedisClient.withContext_some hcontext]

/-- **A phase and the server.** A call that is not complete waits for a command; executing it
changes the value as the phase says and leaves the call in the next phase. -/
theorem phase_execute (key : Bytes) (store : server.Store) (w : Writer) {p : Phase}
    (hp : p ≠ .wrote) : ∃ context args k, p.program key w = .call (.redisCommand context args) k ∧
      server.value (server.execute store args).2 (cStr key) =
        p.effect w (server.value store (cStr key)) ∧
      k (some (server.execute store args).1) =
        (p.next (server.value store (cStr key))).program key w := by
  cases p with
  | typing =>
    obtain ⟨hreply, hvalue⟩ := server.execute_type store (cStr key)
    refine ⟨_, _, _, program_typing key w, hvalue, ?_⟩
    rw [hreply]
    simp only [RedisClient.typeReply, Prog.bind_done, RedisClient.hsetVerified, Phase.next]
    by_cases hwrong : wrongType (server.value store (cStr key)) = true
    · rw [if_pos ((typeOf_wrong _).mpr hwrong), if_pos hwrong]
      rfl
    · rw [if_neg (fun h => hwrong ((typeOf_wrong _).mp h)), if_neg hwrong]
      rfl
  | deleting =>
    exact ⟨_, _, _, program_deleting key w, server.execute_del store (cStr key), rfl⟩
  | writing =>
    exact ⟨_, _, _, rfl, server.execute_hset store (cStr key) (cStr w.field) (cStr w.value), rfl⟩
  | wrote => exact absurd rfl hp

/-! ## The calls as phases -/

variable (key)

/-- The call of a writer in a phase. -/
def thread (x : Writer × Phase) : Thread := ⟨x.1, x.2.program key x.1⟩

variable {key}

theorem complete_thread {w : Writer} {p : Phase} : Complete (thread key (w, p)) ↔ p = .wrote := by
  unfold Complete thread
  cases p with
  | typing =>
    rw [program_typing]
    exact iff_of_false (fun ⟨_, h⟩ => nomatch h) nofun
  | deleting =>
    rw [program_deleting]
    exact iff_of_false (fun ⟨_, h⟩ => nomatch h) nofun
  | writing => exact iff_of_false (fun ⟨_, h⟩ => nomatch h) nofun
  | wrote => exact iff_of_true ⟨_, rfl⟩ rfl

/-- The next command of a call that is about to send `DEL`. -/
theorem eq_del_of_deletes {w : Writer} {context : Option Ctx} {name : Bytes} {args : List Bytes}
    {k : Answer (.redisCommand context (name :: args)) → Call Bool}
    (h : Deletes ⟨w, .call (.redisCommand context (name :: args)) k⟩) : name = ascii "DEL" := by
  obtain ⟨_, _, _, hprogram⟩ := h
  simp only [Prog.call.injEq, HiredisCall.redisCommand.injEq, List.cons.injEq] at hprogram
  exact hprogram.1.2.1

theorem deletes_thread {w : Writer} {p : Phase} : Deletes (thread key (w, p)) ↔ p = .deleting := by
  unfold thread
  cases p with
  | typing =>
    rw [program_typing]
    exact iff_of_false (fun h => absurd (eq_del_of_deletes h) (by decide)) nofun
  | deleting =>
    rw [program_deleting]
    exact iff_of_true ⟨_, _, _, rfl⟩ rfl
  | writing => exact iff_of_false (fun h => absurd (eq_del_of_deletes h) (by decide)) nofun
  | wrote => exact iff_of_false (fun ⟨_, _, _, h⟩ => nomatch h) nofun

/-- **What a step does**: nothing to the calls and the value at the key; or it moves one call to its
next phase and makes of the value what its command makes of it. -/
theorem step_phases {s s' : System server} {e : Event server key} {xs : List (Writer × Phase)}
    (hs : s.threads = xs.map (thread key)) (h : s.step e = some s') :
    (s'.threads = s.threads ∧
        server.value s'.store (cStr key) = server.value s.store (cStr key) ∧ s.NoLateDel e) ∨
      ∃ i w p, e = .run i ∧ xs[i]? = some (w, p) ∧ p ≠ .wrote ∧
        s'.threads =
          (xs.set i (w, p.next (server.value s.store (cStr key)))).map (thread key) ∧
        server.value s'.store (cStr key) = p.effect w (server.value s.store (cStr key)) := by
  cases e with
  | elsewhere change =>
    obtain rfl := Option.some.inj h
    exact Or.inl ⟨rfl, change.keeps s.store, trivial⟩
  | run i =>
    right
    simp only [step, hs, List.getElem?_map] at h
    cases hx : xs[i]? with
    | none =>
      rw [hx] at h
      cases h
    | some x =>
      obtain ⟨w, p⟩ := x
      rw [hx] at h
      simp only [Option.map_some, thread] at h
      have hp : p ≠ .wrote := by
        rintro rfl
        cases h
      obtain ⟨context, args, k, hprogram, hvalue, hnext⟩ := phase_execute key s.store w hp
      rw [hprogram] at h
      obtain rfl := Option.some.inj h
      refine ⟨i, w, p, rfl, hx, hp, ?_, hvalue⟩
      rw [List.map_set, thread, hnext]

/-! ## The value at the key -/

theorem hasField_hsetValue {field val : Bytes} {v : Option Value} (hv : wrongType v = false) :
    HasField field val (hsetValue field val v) := by
  rcases v with _ | fields | ⟨type, htype⟩
  · exact ⟨_, rfl, Finmap.lookup_insert _⟩
  · exact ⟨_, rfl, Finmap.lookup_insert _⟩
  · cases hv

theorem hasField_hsetValue_of_ne {field field' val val' : Bytes} (hne : field' ≠ field)
    (v : Option Value) :
    HasField field' val' (hsetValue field val v) ↔ HasField field' val' v := by
  have hhash : ∀ fields : UnorderedMap Bytes Bytes, HasField field' val' (some (.hash fields)) ↔
      fields.lookup field' = some val' := by
    intro fields
    constructor
    · rintro ⟨_, h, hlookup⟩
      obtain rfl := Value.hash.inj (Option.some.inj h)
      exact hlookup
    · exact fun hlookup => ⟨fields, rfl, hlookup⟩
  rcases v with _ | fields | ⟨type, htype⟩
  · simp only [hsetValue]
    rw [hhash, Finmap.lookup_insert_of_ne _ hne, Finmap.lookup_empty]
    exact iff_of_false nofun fun ⟨_, h, _⟩ => nomatch h
  · simp only [hsetValue]
    rw [hhash, hhash, Finmap.lookup_insert_of_ne _ hne]
  · exact Iff.rfl

/-- The writers have different fields, nothing they write is cut at a NUL, and once a call has got
past its check the value is not of another type. -/
structure Sound (xs : List (Writer × Phase)) (v : Option Value) : Prop where
  distinct : ∀ (i j : Nat) (w w' : Writer) (p p' : Phase), xs[i]? = some (w, p) →
    xs[j]? = some (w', p') → cStr w.field = cStr w'.field → i = j
  clean : ∀ (i : Nat) (w : Writer) (p : Phase), xs[i]? = some (w, p) →
    cStr w.field = w.field ∧ cStr w.value = w.value
  typed : ∀ (i : Nat) (w : Writer) (p : Phase), xs[i]? = some (w, p) →
    p = .writing ∨ p = .wrote → wrongType v = false

/-- What the complete calls wrote is there. -/
def Stored (xs : List (Writer × Phase)) (v : Option Value) : Prop :=
  ∀ (i : Nat) (w : Writer), xs[i]? = some (w, Phase.wrote) →
    HasField (cStr w.field) (cStr w.value) v

/-- The field of a complete call is gone. -/
def Lost (xs : List (Writer × Phase)) (v : Option Value) : Prop :=
  ∃ (i : Nat) (w : Writer), xs[i]? = some (w, Phase.wrote) ∧
    ∀ val, ¬ HasField (cStr w.field) val v

section Step

variable {xs : List (Writer × Phase)} {v : Option Value} {i : Nat} {w : Writer} {p : Phase}

/-- A call is the one that moved, or it is where it was. -/
theorem getElem?_set_cases {j : Nat} {q : Phase} {x : Writer × Phase}
    (h : (xs.set i (w, q))[j]? = some x) : (j = i ∧ x = (w, q)) ∨ (j ≠ i ∧ xs[j]? = some x) := by
  by_cases hj : j = i
  · subst hj
    obtain ⟨hlt, hget⟩ := List.getElem?_eq_some_iff.mp h
    rw [List.getElem_set_self] at hget
    exact Or.inl ⟨rfl, hget.symm⟩
  · rw [List.getElem?_set_ne (Ne.symm hj)] at h
    exact Or.inr ⟨hj, h⟩

theorem sound_step (hs : Sound xs v) (hx : xs[i]? = some (w, p)) :
    Sound (xs.set i (w, p.next v)) (p.effect w v) := by
  constructor
  · intro j j' w1 w2 p1 p2 h1 h2 hfield
    rcases getElem?_set_cases h1 with ⟨rfl, hj⟩ | ⟨-, hj⟩ <;>
      rcases getElem?_set_cases h2 with ⟨rfl, hj'⟩ | ⟨-, hj'⟩
    · rfl
    · obtain ⟨rfl, -⟩ := Prod.mk.inj hj
      exact hs.distinct _ _ _ _ _ _ hx hj' hfield
    · obtain ⟨rfl, -⟩ := Prod.mk.inj hj'
      exact hs.distinct _ _ _ _ _ _ hj hx hfield
    · exact hs.distinct _ _ _ _ _ _ hj hj' hfield
  · intro j w' p' h
    rcases getElem?_set_cases h with ⟨rfl, hj⟩ | ⟨-, hj⟩
    · obtain ⟨rfl, -⟩ := Prod.mk.inj hj
      exact hs.clean _ _ _ hx
    · exact hs.clean _ _ _ hj
  · intro j w' p' h hp'
    cases p with
    | typing =>
      rcases getElem?_set_cases h with ⟨-, hj⟩ | ⟨-, hj⟩
      · obtain ⟨-, rfl⟩ := Prod.mk.inj hj
        simp only [Phase.next] at hp'
        split at hp'
        · simp at hp'
        · rename_i hwrong
          exact Bool.eq_false_iff.mpr hwrong
      · exact hs.typed j w' p' hj hp'
    | deleting => rfl
    | writing =>
      have hv := hs.typed i w .writing hx (Or.inl rfl)
      rcases v with _ | fields | ⟨type, htype⟩
      · rfl
      · rfl
      · cases hv
    | wrote => exact hs.typed i w .wrote hx (Or.inr rfl)

/-- A step keeps what is stored, unless it deletes after a call is complete. -/
theorem stored_step (hs : Sound xs v) (hstored : Stored xs v) (hx : xs[i]? = some (w, p))
    (hdel : p = .deleting → ∀ (j : Nat) (w' : Writer), xs[j]? ≠ some (w', Phase.wrote)) :
    Stored (xs.set i (w, p.next v)) (p.effect w v) := by
  intro j w' h
  rcases getElem?_set_cases h with ⟨rfl, hj⟩ | ⟨hne, hj⟩
  · obtain ⟨rfl, hp⟩ := Prod.mk.inj hj
    cases p with
    | typing =>
      simp only [Phase.next] at hp
      split at hp <;> cases hp
    | deleting => cases hp
    | writing => exact hasField_hsetValue (hs.typed j w' .writing hx (Or.inl rfl))
    | wrote => exact hstored j w' hx
  · cases p with
    | typing => exact hstored j w' hj
    | deleting => exact absurd hj (hdel rfl j w')
    | writing =>
      have hfield : cStr w'.field ≠ cStr w.field := fun e => hne (hs.distinct _ _ _ _ _ _ hj hx e)
      exact (hasField_hsetValue_of_ne hfield v).mpr (hstored j w' hj)
    | wrote => exact hstored j w' hj

/-- A field that is gone stays gone: its call is over and every other writes another field. -/
theorem lost_step (hs : Sound xs v) (hlost : Lost xs v) (hx : xs[i]? = some (w, p))
    (hp : p ≠ .wrote) : Lost (xs.set i (w, p.next v)) (p.effect w v) := by
  obtain ⟨j, w', hj, hgone⟩ := hlost
  have hne : j ≠ i := by
    rintro rfl
    obtain ⟨-, rfl⟩ := Prod.mk.inj (Option.some.inj (hj.symm.trans hx))
    exact hp rfl
  refine ⟨j, w', (List.getElem?_set_ne (Ne.symm hne)).trans hj, fun val => ?_⟩
  cases p with
  | typing => exact hgone val
  | deleting => exact fun ⟨_, h, _⟩ => nomatch h
  | writing =>
    have hfield : cStr w'.field ≠ cStr w.field := fun e => hne (hs.distinct _ _ _ _ _ _ hj hx e)
    exact fun h => hgone val ((hasField_hsetValue_of_ne hfield v).mp h)
  | wrote => exact hgone val

/-- A deletion after a call is complete. -/
theorem lost_del {j : Nat} {w' : Writer} (hx : xs[i]? = some (w, .deleting))
    (hj : xs[j]? = some (w', .wrote)) :
    Lost (xs.set i (w, Phase.deleting.next v)) (Phase.deleting.effect w v) := by
  have hne : j ≠ i := by
    rintro rfl
    exact absurd (Prod.mk.inj (Option.some.inj (hj.symm.trans hx))).2 (by decide)
  exact ⟨j, w', (List.getElem?_set_ne (Ne.symm hne)).trans hj, fun _ ⟨_, h, _⟩ => nomatch h⟩

end Step

/-! ## Runs -/

/-- The calls are in phases that are sound for the value at the key, and have `P`. -/
def InPhases (key : Bytes) (P : List (Writer × Phase) → Option Value → Prop)
    (s : System server) : Prop :=
  ∃ xs, s.threads = xs.map (thread key) ∧ Sound xs (server.value s.store (cStr key)) ∧
    P xs (server.value s.store (cStr key))

/-- The condition on a step, in phases. -/
theorem noLateDel_run {s : System server} {xs : List (Writer × Phase)}
    (hs : s.threads = xs.map (thread key)) {i : Nat} {w : Writer} {p : Phase}
    (hx : xs[i]? = some (w, p)) :
    s.NoLateDel (.run i : Event server key) ↔
      (p = .deleting → ∀ (j : Nat) (w' : Writer), xs[j]? ≠ some (w', Phase.wrote)) := by
  have hget : ∀ j, s.threads[j]? = xs[j]?.map (thread key) := fun j => by
    rw [hs, List.getElem?_map]
  constructor
  · intro h hp j w' hj
    refine h (thread key (w, p)) (by rw [hget, hx]; rfl) (deletes_thread.mpr hp)
      (thread key (w', .wrote)) ?_ (complete_thread.mpr rfl)
    exact List.mem_of_getElem? (i := j) (by rw [hget, hj]; rfl)
  · intro h other hother hdeletes complete hmem hcomplete
    rw [hget, hx] at hother
    obtain rfl := Option.some.inj hother
    rw [hs] at hmem
    obtain ⟨⟨w', p'⟩, hx', rfl⟩ := List.mem_map.mp hmem
    obtain ⟨j, hj⟩ := List.getElem?_of_mem hx'
    obtain rfl := complete_thread.mp hcomplete
    exact h (deletes_thread.mp hdeletes) j w' hj

/-- Steps that keep the phases and the value. -/
theorem inPhases_same {P : List (Writer × Phase) → Option Value → Prop} {s s' : System server}
    (hs : s.InPhases key P) (hthreads : s'.threads = s.threads)
    (hvalue : server.value s'.store (cStr key) = server.value s.store (cStr key)) :
    s'.InPhases key P := by
  obtain ⟨xs, hxs, hsound, hP⟩ := hs
  exact ⟨xs, hthreads.trans hxs, hvalue ▸ hsound, hvalue ▸ hP⟩

theorem stored_run {s s' : System server} {e : Event server key} (hs : s.InPhases key Stored)
    (h : s.step e = some s') (hok : s.NoLateDel e) : s'.InPhases key Stored := by
  obtain ⟨xs, hxs, hsound, hstored⟩ := hs
  rcases step_phases hxs h with ⟨hthreads, hvalue, -⟩ | ⟨i, w, p, rfl, hx, -, hthreads, hvalue⟩
  · exact inPhases_same ⟨xs, hxs, hsound, hstored⟩ hthreads hvalue
  · refine ⟨_, hthreads, hvalue ▸ sound_step hsound hx, hvalue ▸ ?_⟩
    exact stored_step hsound hstored hx ((noLateDel_run hxs hx).mp hok)

theorem lost_of_lateDel {s s' : System server} {e : Event server key}
    (hs : s.InPhases key Stored) (h : s.step e = some s') (hbad : ¬ s.NoLateDel e) :
    s'.InPhases key Lost := by
  obtain ⟨xs, hxs, hsound, -⟩ := hs
  rcases step_phases hxs h with ⟨-, -, hok⟩ | ⟨i, w, p, rfl, hx, -, hthreads, hvalue⟩
  · exact absurd hok hbad
  · refine ⟨_, hthreads, hvalue ▸ sound_step hsound hx, hvalue ▸ ?_⟩
    rw [noLateDel_run hxs hx] at hbad
    obtain ⟨rfl, hn⟩ := Classical.not_imp.mp hbad
    obtain ⟨j, hn⟩ := not_forall.mp hn
    obtain ⟨w', hn⟩ := not_forall.mp hn
    exact lost_del hx (not_not.mp hn)

theorem lost_run {s s' : System server} {e : Event server key} (hs : s.InPhases key Lost)
    (h : s.step e = some s') : s'.InPhases key Lost := by
  obtain ⟨xs, hxs, hsound, hlost⟩ := hs
  rcases step_phases hxs h with ⟨hthreads, hvalue, -⟩ | ⟨i, w, p, rfl, hx, hp, hthreads, hvalue⟩
  · exact inPhases_same ⟨xs, hxs, hsound, hlost⟩ hthreads hvalue
  · exact ⟨_, hthreads, hvalue ▸ sound_step hsound hx, hvalue ▸ lost_step hsound hlost hx hp⟩

/-- What the calls write is free of NUL, and their fields are different. -/
structure Clean (writers : List Writer) : Prop where
  free : ∀ w ∈ writers, (0 : UInt8) ∉ w.field ∧ (0 : UInt8) ∉ w.value
  distinct : (writers.map Writer.field).Nodup

theorem stored_start (key : Bytes) {writers : List Writer} (hw : Clean writers)
    (store : server.Store) : (start key store writers).InPhases key Stored := by
  have hget : ∀ (i : Nat) (w : Writer) (p : Phase),
      (writers.map fun w => (w, Phase.typing))[i]? = some (w, p) →
        writers[i]? = some w ∧ p = .typing := by
    intro i w p h
    rw [List.getElem?_map] at h
    obtain ⟨w', hw', hp⟩ := Option.map_eq_some_iff.mp h
    obtain ⟨rfl, rfl⟩ := Prod.mk.inj hp
    exact ⟨hw', rfl⟩
  refine ⟨writers.map fun w => (w, .typing), ?_, ⟨?_, ?_, ?_⟩, ?_⟩
  · rw [List.map_map]
    rfl
  · intro i j w w' p p' hi hj hfield
    obtain ⟨hi, -⟩ := hget i w p hi
    obtain ⟨hj, -⟩ := hget j w' p' hj
    rw [cStr_of_not_mem (hw.free w (List.mem_of_getElem? hi)).1,
      cStr_of_not_mem (hw.free w' (List.mem_of_getElem? hj)).1] at hfield
    have hlt : i < (writers.map Writer.field).length := by
      rw [List.length_map]
      exact (List.getElem?_eq_some_iff.mp hi).1
    refine (List.getElem?_inj hlt hw.distinct).mp ?_
    rw [List.getElem?_map, List.getElem?_map, hi, hj, Option.map_some, Option.map_some, hfield]
  · intro i w p h
    obtain ⟨hi, -⟩ := hget i w p h
    obtain ⟨hfield, hvalue⟩ := hw.free w (List.mem_of_getElem? hi)
    exact ⟨cStr_of_not_mem hfield, cStr_of_not_mem hvalue⟩
  · intro i w p h hp
    obtain ⟨-, rfl⟩ := hget i w p h
    simp at hp
  · intro i w h
    cases (hget i w .wrote h).2

/-- **No field is lost** when all calls are complete, exactly when no `DEL` is executed after a
call is complete. -/
theorem fields_iff (server : RedisServer) {key : Bytes} (hkey : (0 : UInt8) ∉ key)
    {writers : List Writer} (hw : Clean writers) (store : server.Store)
    {es : List (Event server key)} {t : System server}
    (hrun : run step (start key store writers) es = some t)
    (hcomplete : ∀ thread ∈ t.threads, Complete thread) :
    t.AllFields key ↔ Always step NoLateDel (start key store writers) es := by
  have hstart := stored_start key hw store
  constructor
  · intro hall
    by_contra hn
    obtain ⟨xs, hxs, hsound, i, w, hi, hgone⟩ := doomed_of_not_always
      (fun _ _ _ => stored_run) (fun _ _ _ => lost_of_lateDel) (fun _ _ _ => lost_run) hstart hrun
      hn
    have hfield := hall (thread key (w, .wrote)) (by
      rw [hxs]
      exact List.mem_map_of_mem (List.mem_of_getElem? hi))
    rw [cStr_of_not_mem hkey, (hsound.clean i w _ hi).1] at hgone
    exact hgone w.value hfield
  · intro hok t' ht'
    obtain ⟨xs, hxs, hsound, hstored⟩ := everywhere_last (everywhere_of_always
      (P := InPhases key Stored) (fun _ h => h) (fun _ _ _ => stored_run) hstart hok) hrun
    rw [hxs] at ht'
    obtain ⟨⟨w, p⟩, hx, rfl⟩ := List.mem_map.mp ht'
    obtain ⟨i, hi⟩ := List.getElem?_of_mem hx
    obtain rfl := complete_thread.mp (hcomplete _ (by rw [hxs]; exact List.mem_map_of_mem hx))
    have hfield := hstored i w hi
    rw [(hsound.clean i w _ hi).1, (hsound.clean i w _ hi).2, cStr_of_not_mem hkey] at hfield
    exact hfield

/-- The commands of `hset` on a map of values. -/
def executeHset (store : UnorderedMap Bytes Value) :
    List Bytes → Reply × UnorderedMap Bytes Value
  | [name, key] =>
    if name = ascii "TYPE" then (.status (typeOf (store.lookup key)), store)
    else (.integer (if key ∈ store then 1 else 0), store.erase key)
  | [_, key, field, val] =>
    match hsetValue field val (store.lookup key) with
    | some v =>
      (if wrongType (store.lookup key) then .error (ascii "WRONGTYPE") else .integer 1,
        store.insert key v)
    | none => (.nil, store)
  | _ => (.error (ascii "ERR"), store)

/-- A server that knows these commands. -/
def redis : RedisServer where
  Store := UnorderedMap Bytes Value
  value store key := store.lookup key
  execute := executeHset
  execute_type _ _ := ⟨rfl, rfl⟩
  execute_del store key := Finmap.lookup_erase key store
  execute_hset store key field val := by
    simp only [executeHset]
    cases hv : hsetValue field val (store.lookup key) with
    | some v => exact Finmap.lookup_insert _
    | none => rcases hvalue : store.lookup key with _ | _ | _ <;> simp [hvalue, hsetValue] at hv

/-- A connected client that writes a field. -/
def writer (field : String) : Writer where
  client := { host := ascii "localhost", context := some 0 }
  clock := ⟨1, 1⟩
  field := ascii field
  value := ascii "v"
  connected := rfl

/-- Two calls on the key `k`. -/
def startTwo (store : UnorderedMap Bytes Value) : System redis :=
  start (ascii "k") store [writer "f", writer "g"]

/-- The key `k` holds a string. -/
def stringStore : UnorderedMap Bytes Value :=
  (∅ : UnorderedMap Bytes Value).insert (ascii "k") (.other (ascii "string") (by decide))

/-- Two calls on a key that holds a string, command by command: both delete it before one of them
is complete. -/
theorem fields_two :
    ∃ t, run step (startTwo stringStore)
        [.run 0, .run 1, .run 0, .run 1, .run 0, (.run 1 : Event redis (ascii "k"))] = some t ∧
      t.AllFields (ascii "k") := by
  refine ⟨_, rfl, ?_⟩
  have hrun : run step (startTwo stringStore)
      [.run 0, .run 1, .run 0, .run 1, .run 0, (.run 1 : Event redis (ascii "k"))] = some _ := rfl
  refine (fields_iff redis (by decide) ⟨by decide, by decide⟩ _ hrun ?_).mpr ?_
  · intro thread hthread
    rcases List.mem_pair.mp hthread with rfl | rfl <;> exact ⟨_, rfl⟩
  · refine always_cons rfl (fun thread hthread hdeletes => ?_)
      (always_cons rfl (fun thread hthread hdeletes => ?_)
        (always_cons rfl (fun _ _ _ => ?_) (always_cons rfl (fun _ _ _ => ?_)
          (always_cons rfl (fun thread hthread hdeletes => ?_)
            (always_cons rfl (fun thread hthread hdeletes => ?_) trivial)))))
    case refine_3 | refine_4 =>
      -- the two deletions: nobody has written yet
      intro other hother
      rcases List.mem_pair.mp hother with rfl | rfl <;> rintro ⟨r, hr⟩ <;> cases hr
    all_goals
      obtain rfl := Option.some.inj hthread
      exact absurd (eq_del_of_deletes hdeletes) (by decide)

/-- Both find a string at the key; the second deletes the hash of the first. -/
theorem not_fields_string :
    ∃ t, run step (startTwo stringStore)
        [.run 0, .run 1, .run 0, .run 0, .run 1, (.run 1 : Event redis (ascii "k"))] = some t ∧
      (∀ thread ∈ t.threads, Complete thread) ∧ ¬ t.AllFields (ascii "k") := by
  refine ⟨_, rfl, ?_, fun hall => ?_⟩
  · intro thread hthread
    rcases List.mem_pair.mp hthread with rfl | rfl <;> exact ⟨_, rfl⟩
  · obtain ⟨fields, hfields, hlookup⟩ := hall _ List.mem_cons_self
    obtain rfl := Value.hash.inj (Option.some.inj hfields)
    exact absurd hlookup (by decide)

end System

end WinterWind.Redis
