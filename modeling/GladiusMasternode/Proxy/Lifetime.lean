import GladiusMasternode.Proxy.Invariant
/-
# The life of a handler

`checkForShutdown` deletes the handler when both of its sides have ended. `deletes` counts the
`delete this`, `touched` says that a field was accessed after the first. Every callback keeps the
handler `Owned`, with one exception: `onError` goes on after `originTxn_->sendAbort()`, and when that
call delivers the detach, the handler is gone by then.
-/

namespace GladiusMasternode

namespace Exchange

section
variable {ext : External} {cfg : Config} {x y : Exchange} {e : Event}

/-- Deleted at most once, and left alone since. -/
def Owned (x : Exchange) : Prop := x.deletes ≤ 1 ∧ x.touched = false

theorem Inv.live_of_open (hI : Inv ext x) (hopen : x.client.done = false) : x.deletes = 0 := by
  by_contra hd
  rw [(hI.freed.1 hd).1] at hopen
  cases hopen

theorem Inv.live_of_attached (hI : Inv ext x) (hatt : x.origin.attached = true) : x.deletes = 0 := by
  by_contra hd
  rw [(hI.freed.1 hd).2] at hatt
  cases hatt

/-- No callback reaches a handler that is gone, except those that do nothing. -/
theorem Called.live (hI : Inv ext x) (h : Called ext cfg x y) : x.deletes = 0 ∨ y = x := by
  cases h with
  | hit headers route hnew hroute => exact .inl (hI.live_of_open (by rw [(hI.idle hnew).1]))
  | badAddress headers hnew hroute => exact .inl (hI.live_of_open (by rw [(hI.idle hnew).1]))
  | connect headers hnew hroute => exact .inl (hI.live_of_open (by rw [(hI.idle hnew).1]))
  | onBody body hreq hopen heom hpause => exact .inl (hI.live_of_open hopen)
  | onEOM hreq hopen heom hpause => exact .inl (hI.live_of_open hopen)
  | onError hreq hopen => exact .inl (hI.live_of_open hopen)
  | connectSuccess req hconn hlive hreq => exact .inl hlive
  | connectError hconn hlive hopen => exact .inl hlive
  | originOnHeadersComplete msg hatt hnone heom hok => exact .inl (hI.live_of_attached hatt)
  | originOnBody chain hatt hheaders heom hok => exact .inl (hI.live_of_attached hatt)
  | originAnswered headers body hatt heom hok hopen hheaders hbody =>
    exact .inl (hI.live_of_attached hatt)
  | originUnanswered hatt heom hok hno => exact .inl (hI.live_of_attached hatt)
  | originOnError hatt hok => exact .inl (hI.live_of_attached hatt)
  | originFlow m hm hatt => exact .inl (hI.live_of_attached hatt)
  | ignored => exact .inr rfl

theorem Called.deletes_le (h : Called ext cfg x y) : y.deletes ≤ x.deletes + 1 := by
  cases h with
  | onError hreq hopen => dsimp only; split <;> omega
  | _ => exact Nat.le_succ _

theorem Called.touched (h : Called ext cfg x y) : y.touched = x.touch.touched ∨ y = x := by
  cases h with
  | ignored => exact .inr rfl
  | _ => exact .inl rfl

theorem touched_of_live (hlive : x.deletes = 0) : x.touch.touched = x.touched := by
  simp [touch, hlive]

theorem owned_called (hI : Inv ext x) (ho : Owned x) (h : Called ext cfg x y) : Owned y := by
  rcases h.live hI with hlive | rfl
  · refine ⟨by have := h.deletes_le; omega, ?_⟩
    rcases h.touched with ht | rfl
    · rw [ht, touched_of_live hlive]; exact ho.2
    · exact ho.2
  · exact ho

theorem owned_completed (hI : Inv ext x) (ho : Owned x) (h : Completed ext x y) : Owned y := by
  obtain ⟨hreq, hopen, sh, -, rfl⟩ := h
  have hlive := hI.live_of_open hopen
  refine ⟨?_, (touched_of_live hlive).trans ho.2⟩
  dsimp only
  split <;> omega

theorem owned_detached (hI : Inv ext x) (ho : Owned x) (h : Detached x y) : Owned y := by
  obtain ⟨hatt, rfl⟩ := h
  have hlive := hI.live_of_attached hatt
  refine ⟨?_, (touched_of_live hlive).trans ho.2⟩
  dsimp only
  split <;> omega

theorem owned_delivered (hI : Inv ext x) (ho : Owned x) (hin : ¬ AbortsInside x e)
    (h : Delivered ext cfg x e y) : Owned y := by
  refine h.rule hI ho ?_ ?_ ?_ ?_
  · intro y h
    exact owned_called hI ho h
  · intro y z hy hQ h
    exact owned_completed hy hQ h
  · intro y z hy hQ h
    exact owned_detached hy hQ h
  · intro y h
    exact absurd h hin

theorem Aborted.not_owned (h : Aborted x y) : ¬ Owned y := by
  rw [Aborted] at h
  subst h
  rintro ⟨hd, -⟩
  dsimp only at hd
  omega

/-- Ownership is never regained. -/
theorem Progress.owned (h : Progress x y) (ho : Owned y) : Owned x := by
  refine ⟨Nat.le_trans h.deletes ho.1, ?_⟩
  cases ht : x.touched with
  | false => rfl
  | true => rw [← h.touched ht]; exact ho.2

end

end Exchange

namespace System

section
variable {ext : External} {cfg : Config} {s s' t : System} {e : Nat × Event}

/-- Every handler has been deleted at most once, and left alone since. -/
def HandlersOwned (s : System) : Prop :=
  ∀ i, (s.handlers i).deletes ≤ 1 ∧ (s.handlers i).touched = false

theorem owned_step_iff (hs : HandlersInv ext s) (ho : HandlersOwned s)
    (h : step ext cfg s e = some s') :
    HandlersOwned s' ↔ ¬ Exchange.AbortsInside (s.exchange e.1) e.2 := by
  constructor
  · intro ho' hin
    obtain ⟨-, -, rfl⟩ := step_some h
    have hy := ho' e.1
    simp only [if_true] at hy
    exact (Exchange.aborted_of (inv_exchange hs e.1) hin).not_owned hy
  · intro hin i
    obtain ⟨y, hd, rfl⟩ := step_cases hs h
    by_cases hi : i = e.1
    · simp only [hi, if_true]
      exact Exchange.owned_delivered (inv_exchange hs e.1) (ho e.1) hin hd
    · simp only [if_neg hi]
      exact ho i

/-- **One delete, no use after it.** In every run, each handler is deleted at most once and left
alone afterwards exactly if no `onError` aborts an attached origin transaction that detaches inside
the `sendAbort()`. -/
theorem owned_iff_never_aborts_inside {dir : String} {writeToDisk : Bool}
    {es : List (Nat × Event)} (hrun : Run.run (step ext cfg) (init dir writeToDisk) es = some s) :
    HandlersOwned s ↔
      Run.Meets (step ext cfg) (fun s e => ¬ Exchange.AbortsInside (s.exchange e.1) e.2)
        (init dir writeToDisk) es :=
  Run.good_at_end_iff (fun _ _ _ hs => handlersInv_step hs)
    (fun _ _ _ hs ho h => owned_step_iff hs ho h)
    (fun _ _ _ hs h ho i => (progress_step hs h i).owned (ho i)) es
    (handlersInv_init ext dir writeToDisk) (fun _ => ⟨Nat.zero_le _, rfl⟩) hrun

theorem owned_iff_of_abort_later : ∃ s, Scenario.run (Scenario.connected 0 ++
      [(0, .onError false), (0, .originDetachTransaction)]) = some s ∧
    (HandlersOwned s ↔ Run.Meets (step Scenario.ext {})
        (fun s e => ¬ Exchange.AbortsInside (s.exchange e.1) e.2) (init "/dev/null" false)
        (Scenario.connected 0 ++ [(0, .onError false), (0, .originDetachTransaction)])) := by
  obtain ⟨s, hs⟩ := Option.isSome_iff_exists.1 (show (Scenario.run (Scenario.connected 0 ++
    [(0, .onError false), (0, .originDetachTransaction)])).isSome = true by decide)
  exact ⟨s, hs, owned_iff_never_aborts_inside hs⟩

/-- The client fails while the origin is still answering, and the detach comes inside the abort. -/
theorem deleted_twice : ∃ s, Scenario.run (Scenario.connected 0 ++ [(0, .onError true)]) = some s ∧
    ((s.handlers 0).deletes, (s.handlers 0).touched) = (2, true) :=
  Option.map_eq_some_iff.1 (show (Scenario.run (Scenario.connected 0 ++ [(0, .onError true)])).map
    (fun s => ((s.handlers 0).deletes, (s.handlers 0).touched)) = some (2, true) by decide)

/-- **Downstream protocol and no leak.** Every handler has sent at most one complete response, has
used `downstream_` only before `clientTerminated_`, and exists exactly as long as one of its two
sides has not ended: `clientTerminated_` says that the client has had its last callback, `originTxn_`
that the origin transaction is attached. -/
theorem downstream_protocol (h : Reachable ext cfg s) (i : Nat) :
    (s.handlers i).sites.length ≤ 1 ∧
    (∀ u ∈ (s.handlers i).client.uses, u.terminated = false) ∧
    ((s.handlers i).deletes = 0 ↔
      ¬ ((s.handlers i).this.clientTerminated_ = true ∧ (s.handlers i).this.originTxn_ = false)) ∧
    (s.handlers i).this.clientTerminated_ = (s.handlers i).client.done ∧
    (s.handlers i).this.originTxn_ = (s.handlers i).origin.attached ∧
    ((s.handlers i).deletes ≠ 0 ↔
      (s.handlers i).client.done = true ∧ (s.handlers i).origin.attached = false) := by
  have hI := (handlersInv_reachable h i).1
  refine ⟨?_, hI.inTime, ?_, hI.terminated, hI.txn, hI.freed⟩
  · rcases hI.answered with hs | ⟨-, ⟨site, -, hs, -⟩ | ⟨hs, -⟩⟩ <;> simp [hs]
  · rw [hI.terminated, hI.txn, ← hI.freed, not_not]

theorem downstream_protocol_fetch : ∃ s, Scenario.run (Scenario.fetch 0) = some s ∧
    (s.handlers 0).sites.length ≤ 1 ∧
    (∀ u ∈ (s.handlers 0).client.uses, u.terminated = false) ∧
    ((s.handlers 0).deletes = 0 ↔
      ¬ ((s.handlers 0).this.clientTerminated_ = true ∧ (s.handlers 0).this.originTxn_ = false)) ∧
    (s.handlers 0).this.clientTerminated_ = (s.handlers 0).client.done ∧
    (s.handlers 0).this.originTxn_ = (s.handlers 0).origin.attached ∧
    ((s.handlers 0).deletes ≠ 0 ↔
      (s.handlers 0).client.done = true ∧ (s.handlers 0).origin.attached = false) := by
  obtain ⟨s, hs⟩ := Option.isSome_iff_exists.1
    (show (Scenario.run (Scenario.fetch 0)).isSome = true by decide)
  exact ⟨s, hs, downstream_protocol ⟨_, _, _, hs⟩ 0⟩

end

end System

end GladiusMasternode
