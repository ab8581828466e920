import WinterWind.Amqp.Connection

/-!
# Closed channels (`m_valid` in `src/core/amqp/channel.cpp`)

The broker terminates a channel by answering a synchronous method with an error, or by a
`channel.close` frame. `System.closed` records it; the flag `m_valid` is how the client notices.

* The operations that invalidate (`Operation.invalidates`) notice every answer that is an error.
* `exchange_exists`, `declare_exchange`, `delete_exchange`, `declare_queue`, `remove_queue` and
  `purge_queue` return their failure and leave the channel valid; `consume_one` returns `false` on
  a `channel.close` frame and leaves it valid too.

Results:
* `perform_closes`: an operation the broker closes the channel on leaves it invalid iff it is one
  of those that invalidate.
* `invalid_step`: an invalid channel stays invalid.
* **`closedInvalid_iff`**: every channel the broker closed is invalid in every state of a run iff
  every closure of the run meets a channel that is invalid already or an operation that notices.
-/

namespace WinterWind.Amqp

open Library

/-- An answer that closes the channel is an error. -/
theorem ok_of_closedBy {op : Operation} {reply : RpcReply} (h : op.closedBy reply = true) :
    reply.ok = false := by
  cases reply with
  | normal => cases op <;> exact absurd h (by simp [Operation.closedBy, RpcReply.ok])
  | libraryException => rfl
  | serverException => rfl

/-- When the answer to what an operation sent closes the channel, the channel was valid, and it
stays valid unless the operation invalidates. -/
theorem perform_closes {c : Channel} {reply : RpcReply} {op : Operation}
    (hsent : (op.perform reply c).2 ≠ []) (hclosed : op.closedBy reply = true) :
    c.valid = true ∧ (op.perform reply c).1.valid = !op.invalidates := by
  obtain ⟨-, hsame | ⟨hv, -, hvalid⟩⟩ := perform_cases c reply op
  · rw [hsame] at hsent
    exact absurd rfl hsent
  · rw [ok_of_closedBy hclosed, Bool.not_false, Bool.and_true] at hvalid
    exact ⟨hv, hvalid⟩

/-- Only `basic_consume`, which invalidates, can refuse on a valid channel. -/
theorem perform_sent {c : Channel} (hv : c.valid = true) (reply : RpcReply) {op : Operation}
    (hop : op.invalidates = false) : (op.perform reply c).2 ≠ [] := by
  rcases perform_of_valid hv reply op with ⟨_, _, _, _, _, _, rfl⟩ | ⟨-, call, -, hperform⟩
  · cases hop
  · rw [hperform]
    exact List.cons_ne_nil call []

/-! ## Runs -/

namespace System

/-- The channel exists and `m_valid` is false. -/
def Invalid (s : System) (ref : Nat) : Prop :=
  ∃ c, s.conn.objects[ref]? = some c ∧ c.valid = false

/-- Every channel the broker closed is invalid. -/
def ClosedInvalid (s : System) : Prop := ∀ ref ∈ s.closed, s.Invalid ref

/-- The condition on a step: when the broker's answer closes a channel, the operation is one that
invalidates, or the channel was invalid before. -/
def Notices (s : System) : Event → Prop
  | .perform ref op reply =>
    op.closedBy reply = true → op.invalidates = true ∨ s.Invalid ref
  | .consume reply frame => ∀ ref, closedByFrame s.conn reply frame = some ref → s.Invalid ref
  | _ => True

end System

/-- Setting a channel to one that is invalid if it was keeps the invalid channels. -/
theorem invalid_set {objects : List Channel} {ref r : Nat} {c c' : Channel}
    (hget : objects[ref]? = some c) (hv : c.valid = false → c'.valid = false)
    (h : ∃ d, objects[r]? = some d ∧ d.valid = false) :
    ∃ d, (objects.set ref c')[r]? = some d ∧ d.valid = false := by
  obtain ⟨d, hd, hdv⟩ := h
  by_cases hr : r = ref
  · subst hr
    obtain rfl := Option.some.inj (hget.symm.trans hd)
    obtain ⟨hlt, -⟩ := List.getElem?_eq_some_iff.mp hget
    exact ⟨c', List.getElem?_set_self hlt, hv hdv⟩
  · exact ⟨d, by rw [List.getElem?_set_ne (Ne.symm hr)]; exact hd, hdv⟩

theorem close_valid (c : Channel) : c.close.channel.valid = false := by
  unfold Channel.close
  split
  · rfl
  · rename_i hv
    exact Bool.not_eq_true _ ▸ hv

/-- No step makes an invalid channel valid. -/
theorem invalid_step {s s' : System} {e : Event} (h : step s e = some s') {r : Nat}
    (hr : s.Invalid r) : s'.Invalid r := by
  cases step_move h with
  | refuse next => exact hr
  | create hmax =>
    obtain ⟨c, hc, hv⟩ := hr
    obtain ⟨hlt, -⟩ := List.getElem?_eq_some_iff.mp hc
    exact ⟨c, (List.getElem?_append_left hlt).trans hc, hv⟩
  | destroy hget => exact invalid_set hget (fun _ => close_valid _) hr
  | perform op reply hget =>
    refine invalid_set hget (fun hv => ?_) hr
    rw [perform_of_invalid hv]
    exact hv
  | consume reply frame => exact hr

section Perform

variable {s : System} {ref : Nat} {c : Channel} {op : Operation} {reply : RpcReply}

/-- An operation that sends nothing invalidates, or its channel is invalid. -/
theorem noticed_of_not_sent (hget : s.conn.objects[ref]? = some c)
    (hsent : (op.perform reply c).2 = []) : op.invalidates = true ∨ s.Invalid ref := by
  by_contra hn
  obtain ⟨hop, hinv⟩ := not_or.mp hn
  have hv : c.valid = true := by
    by_contra hv
    exact hinv ⟨c, hget, Bool.eq_false_iff.mpr hv⟩
  exact perform_sent hv reply (Bool.eq_false_iff.mpr hop) hsent

/-- A channel closed by the answer to what was sent is invalid exactly if the operation
invalidates: it was valid before. -/
theorem invalid_perform_iff (hget : s.conn.objects[ref]? = some c)
    (hsent : (op.perform reply c).2 ≠ []) (hclosed : op.closedBy reply = true) :
    (∃ d, (s.conn.objects.set ref (op.perform reply c).1)[ref]? = some d ∧ d.valid = false) ↔
      op.invalidates = true ∨ s.Invalid ref := by
  obtain ⟨hv, hvalid⟩ := perform_closes hsent hclosed
  have hself : (s.conn.objects.set ref (op.perform reply c).1)[ref]? =
      some (op.perform reply c).1 :=
    List.getElem?_set_self (List.getElem?_eq_some_iff.mp hget).1
  constructor
  · rintro ⟨d, hd, hdv⟩
    obtain rfl := Option.some.inj (hself.symm.trans hd)
    rw [hvalid] at hdv
    exact Or.inl (by simpa using hdv)
  · rintro (hop | ⟨d, hd, hdv⟩)
    · exact ⟨_, hself, by rw [hvalid, hop, Bool.not_true]⟩
    · obtain rfl := Option.some.inj (hget.symm.trans hd)
      rw [hv] at hdv
      exact absurd hdv (by simp)

end Perform

/-- **What a step adds to the closed channels**: nothing, and then it meets `Notices`; or one
channel, which is invalid after the step exactly when the step meets `Notices`. -/
theorem step_closed {s s' : System} {e : Event} (h : step s e = some s') :
    s'.closed = s.closed ∧ s.Notices e ∨
      ∃ ref, s'.closed = s.closed ++ [ref] ∧ (s'.Invalid ref ↔ s.Notices e) := by
  cases step_move h with
  | refuse next => exact Or.inl ⟨rfl, trivial⟩
  | create hmax => exact Or.inl ⟨rfl, trivial⟩
  | destroy hget => exact Or.inl ⟨rfl, trivial⟩
  | @perform ref c op reply hget =>
    by_cases hclosed : op.closedBy reply = true
    · by_cases hsent : (op.perform reply c).2 = []
      · exact Or.inl ⟨by simp [hsent], fun _ => noticed_of_not_sent hget hsent⟩
      · refine Or.inr ⟨ref, by simp [hsent, hclosed], ?_⟩
        exact (invalid_perform_iff hget hsent hclosed).trans ⟨fun h _ => h, fun h => h hclosed⟩
    · exact Or.inl ⟨by simp [hclosed], fun hc => absurd hc hclosed⟩
  | consume reply frame =>
    cases hframe : closedByFrame s.conn reply frame with
    | none =>
      refine Or.inl ⟨by simp, fun ref href => ?_⟩
      rw [hframe] at href
      exact absurd href (by simp)
    | some ref =>
      refine Or.inr ⟨ref, by simp, fun hinv r hr => ?_, fun hok => hok ref hframe⟩
      obtain rfl := Option.some.inj (hframe.symm.trans hr)
      exact hinv

/-- A step that meets the condition keeps every closed channel invalid. -/
theorem closedInvalid_step {s s' : System} {e : Event} (hs : s.ClosedInvalid)
    (h : step s e = some s') (hok : s.Notices e) : s'.ClosedInvalid := by
  intro r hr
  rcases step_closed h with ⟨hclosed, -⟩ | ⟨ref, hclosed, href⟩
  · rw [hclosed] at hr
    exact invalid_step h (hs r hr)
  · rw [hclosed, List.mem_append, List.mem_singleton] at hr
    rcases hr with hr | rfl
    · exact invalid_step h (hs r hr)
    · exact href.mpr hok

/-- A step that does not meet the condition leaves a closed channel valid. -/
theorem not_closedInvalid_step {s s' : System} {e : Event} (h : step s e = some s')
    (hbad : ¬ s.Notices e) : ¬ s'.ClosedInvalid := by
  intro hs'
  rcases step_closed h with ⟨-, hok⟩ | ⟨ref, hclosed, href⟩
  · exact hbad hok
  · refine hbad (href.mp (hs' ref ?_))
    rw [hclosed]
    exact List.mem_append_right _ (List.mem_singleton_self _)

/-- **A channel the broker closed is never valid**, in every state of a run, exactly when every
step of the run meets `Notices`. -/
theorem closedInvalid_iff (channelMax : UInt16) (es : List Event) :
    Everywhere step System.ClosedInvalid (fresh channelMax) es ↔
      Always step System.Notices (fresh channelMax) es :=
  everywhere_iff_always (fun _ hs => hs) (fun _ _ _ => closedInvalid_step)
    (fun _ _ _ _ => not_closedInvalid_step) (fun _ hr => absurd hr List.not_mem_nil)

/-- The check for an exchange that does not exist closes the channel, which stays valid. -/
theorem not_closedInvalid_exchangeExists :
    ¬ Everywhere step System.ClosedInvalid (fresh 20)
      [.create .normal, .perform 0 (.exchangeExists (ascii "logs")) .serverException] := by
  rw [everywhere_iff_reached]
  intro h
  have hs := h _ _ (List.prefix_refl _) rfl
  obtain ⟨c, hc, hv⟩ := hs 0 (by decide)
  obtain rfl := Option.some.inj hc
  exact absurd hv (by decide)

end WinterWind.Amqp
