import GladiusMasternode.Proxy.Response
/-
# The two pauses

`originOnEgressPaused` says that the origin transaction takes no more of the client's upload. The
handler answers it with `originTxn_->pauseIngress()`, which stops the other direction, and goes on
forwarding (`respected_iff`).

`onRequest` pauses the client before it connects to the origin. `connectSuccess` resumes it;
`connectError` answers without (`resumed_iff`).
-/

namespace GladiusMasternode

namespace Exchange

section
variable {ext : External} {cfg : Config} {x y : Exchange} {e : Event}

/-! ## The origin transaction under pressure -/

/-- Nothing but what a paused upload allows: no body, and no stop of the response. -/
def Quiet (ms : List Upstream) : Prop := (∀ b, .body b ∉ ms) ∧ .pauseIngress ∉ ms

theorem quiet_nil : Quiet [] := ⟨fun _ h => absurd h List.not_mem_nil, List.not_mem_nil⟩

theorem Quiet.append {ms ns : List Upstream} (hm : Quiet ms) (hn : Quiet ns) : Quiet (ms ++ ns) := by
  constructor
  · intro b h
    rcases List.mem_append.1 h with h | h
    · exact hm.1 b h
    · exact hn.1 b h
  · intro h
    rcases List.mem_append.1 h with h | h
    · exact hm.2 h
    · exact hn.2 h

/-- Once the client is gone its handler only says quiet things to the origin. -/
theorem quiet_called (h : Called ext cfg x y) (hdone : x.client.done = true) :
    ∃ ms, y.origin.sent = x.origin.sent ++ ms ∧ Quiet ms := by
  have hsame : ∃ ms, x.origin.sent = x.origin.sent ++ ms ∧ Quiet ms :=
    ⟨[], (List.append_nil _).symm, quiet_nil⟩
  cases h with
  | onBody body hreq hopen heom hpause => rw [hdone] at hopen; cases hopen
  | onEOM hreq hopen heom hpause => rw [hdone] at hopen; cases hopen
  | onError hreq hopen => rw [hdone] at hopen; cases hopen
  | connectSuccess req hconn hlive hreq =>
    exact ⟨[_], rfl, fun b hb => absurd hb (by simp), by simp⟩
  | originFlow m hm hatt =>
    refine ⟨[], ?_, quiet_nil⟩
    simp only [hdone, if_true]
  | _ => exact hsame

theorem quiet_delivered (hI : Inv ext x) (h : Delivered ext cfg x e y) (hdone : x.client.done = true) :
    ∃ ms, y.origin.sent = x.origin.sent ++ ms ∧ Quiet ms := by
  refine h.rule (Q := fun y => ∃ ms, y.origin.sent = x.origin.sent ++ ms ∧ Quiet ms) hI
    ⟨[], (List.append_nil _).symm, quiet_nil⟩ ?_ ?_ ?_ ?_
  · intro y h
    exact quiet_called h hdone
  · rintro y z - hy ⟨-, -, sh, -, rfl⟩
    exact hy
  · rintro y z - hy ⟨-, rfl⟩
    exact hy
  · intro y _ hopen
    rw [hdone] at hopen
    cases hopen

/-- A pause that comes while there is a client stops the response. -/
theorem sent_originOnEgressPaused (hI : Inv ext x) (hatt : x.origin.attached = true)
    (hopen : x.client.done = false) :
    (x.deliver ext cfg .originOnEgressPaused).origin.sent = x.origin.sent ++ [.pauseIngress] := by
  have hterm : x.this.clientTerminated_ = false := hI.terminated.trans hopen
  have htxn : x.this.originTxn_ = true := hI.txn.trans hatt
  simp [deliver, originOnEgressPaused, hterm, htxn, send, touch]

end

end Exchange

namespace System

section
variable {ext : External} {cfg : Config} {s t : System}

/-- From each pause of a handler's upload to the next resume, nothing but quiet things go to its
origin. -/
def Respected (ext : External) (cfg : Config) (s : System) (es : List (Nat × Event)) : Prop :=
  ∀ i before during after u v,
    es = before ++ (i, .originOnEgressPaused) :: during ++ after →
    (i, .originOnEgressResumed) ∉ during → Run.run (step ext cfg) s before = some u →
    Run.run (step ext cfg) u ((i, .originOnEgressPaused) :: during) = some v →
    ∃ ms, (v.handlers i).origin.sent = (u.handlers i).origin.sent ++ ms ∧ Exchange.Quiet ms

theorem quiet_step {e : Nat × Event} (hs : HandlersInv ext s) (h : step ext cfg s e = some t) (i : Nat)
    (hdone : (s.handlers i).client.done = true) :
    ∃ ms, (t.handlers i).origin.sent = (s.handlers i).origin.sent ++ ms ∧ Exchange.Quiet ms := by
  by_cases hi : i = e.1
  · subst hi
    have hquiet := Exchange.quiet_delivered (inv_exchange hs e.1) (delivered_step hs h) hdone
    exact hquiet
  · obtain ⟨y, -, rfl⟩ := step_cases hs h
    simp only [if_neg hi]
    exact ⟨[], (List.append_nil _).symm, Exchange.quiet_nil⟩

theorem quiet_run {es : List (Nat × Event)} (hs : HandlersInv ext s) (i : Nat)
    (hdone : (s.handlers i).client.done = true) (h : Run.run (step ext cfg) s es = some t) :
    ∃ ms, (t.handlers i).origin.sent = (s.handlers i).origin.sent ++ ms ∧ Exchange.Quiet ms := by
  refine Run.run_rel (P := fun s => HandlersInv ext s ∧ (s.handlers i).client.done = true)
    (R := fun s t => ∃ ms, (t.handlers i).origin.sent = (s.handlers i).origin.sent ++ ms ∧
      Exchange.Quiet ms) ?_ ?_ ?_ ?_ es ⟨hs, hdone⟩ h
  · intro s
    exact ⟨[], (List.append_nil _).symm, Exchange.quiet_nil⟩
  · rintro a b c ⟨ms, hb, hm⟩ ⟨ns, hc, hn⟩
    exact ⟨ms ++ ns, by rw [hc, hb, List.append_assoc], hm.append hn⟩
  · rintro s e s' ⟨hs, hdone⟩ he
    exact ⟨handlersInv_step hs he, ((progress_step hs he i).done hdone).1⟩
  · rintro s e s' ⟨hs, hdone⟩ he
    exact quiet_step hs he i hdone

/-- **Pauses of the upload.** They are respected along a run exactly if each of them comes after the
client is gone. -/
theorem respected_iff {es : List (Nat × Event)} (h : Reachable ext cfg s)
    (hrun : Run.run (step ext cfg) s es = some t) : Respected ext cfg s es ↔
      Run.Meets (step ext cfg)
        (fun s e => e.2 = .originOnEgressPaused → (s.handlers e.1).client.done = true) s es := by
  rw [Run.meets_iff_split hrun]
  constructor
  · rintro hres before ⟨i, e⟩ after u hes hu rfl
    by_contra hopen
    rw [Bool.not_eq_true] at hopen
    have hsu := handlersInv_reachable (h.run hu)
    -- the pause itself is a step
    obtain ⟨u', hu', hrest⟩ := Run.run_append.1 (hes ▸ hrun)
    obtain rfl : u = u' := Option.some.inj (hu.symm.trans hu')
    obtain ⟨v, hv, -⟩ := Run.run_cons_some.1 hrest
    obtain ⟨ms, hms, hquiet⟩ := hres i before [] after u v (by rw [hes]; simp) List.not_mem_nil hu
      (Run.run_cons_some.2 ⟨v, hv, rfl⟩)
    obtain ⟨hadm, -, rfl⟩ := step_some hv
    have hsent := @Exchange.sent_originOnEgressPaused ext cfg _ (inv_exchange hsu i) hadm hopen
    simp only [if_true] at hms
    obtain rfl : [.pauseIngress] = ms := List.append_cancel_left (hsent.symm.trans hms)
    exact hquiet.2 (List.mem_singleton_self _)
  · intro hall i before during after u v hes _ hu hv
    refine quiet_run (handlersInv_reachable (h.run hu)) i ?_ hv
    exact hall before (i, .originOnEgressPaused) (during ++ after) u (by rw [hes]; simp) hu rfl

/-- A pause between the client's end and the origin's. -/
theorem respected_iff_of_client_gone : ∃ t,
    Scenario.run (Scenario.connected 0 ++
      [(0, .requestComplete Scenario.io), (0, .originOnEgressPaused)]) = some t ∧
    (Respected Scenario.ext {} (init "/dev/null" false) (Scenario.connected 0 ++
        [(0, .requestComplete Scenario.io), (0, .originOnEgressPaused)]) ↔
      Run.Meets (step Scenario.ext {})
        (fun s e => e.2 = .originOnEgressPaused → (s.handlers e.1).client.done = true)
        (init "/dev/null" false) (Scenario.connected 0 ++
          [(0, .requestComplete Scenario.io), (0, .originOnEgressPaused)])) := by
  obtain ⟨t, ht⟩ := Option.isSome_iff_exists.1 (show (Scenario.run (Scenario.connected 0 ++
    [(0, .requestComplete Scenario.io), (0, .originOnEgressPaused)])).isSome = true by decide)
  exact ⟨t, ht, respected_iff ⟨_, _, [], rfl⟩ ht⟩

/-- An upload to an origin that takes no more: the chunk is forwarded all the same, and the origin's
response is no longer read. -/
def upload : List (Nat × Event) :=
  [(0, .onRequest { Scenario.get with method := .post } true none), (0, .connectSuccess),
    (0, .originOnEgressPaused), (0, .onBody ⟨[1], []⟩)]

theorem forwarded_while_paused :
    (∃ req t, Scenario.run upload = some t ∧
      (t.handlers 0).origin.sent = [.headers req, .pauseIngress, .body ⟨[1], []⟩]) ∧
    ¬ Respected Scenario.ext {} (init "/dev/null" false) upload := by
  obtain ⟨t, ht, hsent⟩ := Option.map_eq_some_iff.1 (show (Scenario.run upload).map
    (fun t => (t.handlers 0).origin.sent) = some [.headers
      { url := "/a", method := .post, headers := [("Host", "a.org")] }, .pauseIngress, .body ⟨[1], []⟩] by decide)
  refine ⟨⟨_, t, ht, hsent⟩, fun hres => ?_⟩
  obtain ⟨u, hu, hsent'⟩ := Option.map_eq_some_iff.1 (show (Scenario.run (upload.take 2)).map
    (fun u => (u.handlers 0).origin.sent) = some [.headers
      { url := "/a", method := .post, headers := [("Host", "a.org")] }] by decide)
  obtain ⟨u', hu', hv⟩ := Run.run_append.1 (show Run.run (step Scenario.ext {})
    (init "/dev/null" false) (upload.take 2 ++ upload.drop 2) = some t from ht)
  obtain rfl : u = u' := Option.some.inj (hu.symm.trans hu')
  obtain ⟨ms, hms, hquiet⟩ :=
    hres 0 (upload.take 2) [(0, .onBody ⟨[1], []⟩)] [] u t rfl (by decide) hu hv
  rw [hsent, hsent'] at hms
  obtain rfl := (List.cons.inj hms).2
  exact hquiet.2 (List.mem_cons_self ..)

end

end System

/-! ## The client's ingress before the connection -/

namespace Exchange

section
variable {ext : External} {cfg : Config} {x y : Exchange} {e : Event}

/-- The client is only paused as long as nothing has gone to the origin. -/
def Waits (x : Exchange) : Prop := x.client.ingressPaused = true → x.origin.sent = []

theorem Waits.not_paused (hw : Waits x) (hI : Inv ext x) (hatt : x.origin.attached = true) :
    x.client.ingressPaused = false := by
  by_contra hp
  rw [Bool.not_eq_false] at hp
  exact hI.sent_ne_nil hatt (hw hp)

theorem waits_called (hI : Inv ext x) (hw : Waits x) (h : Called ext cfg x y) : Waits y := by
  intro hp
  have hold : x.client.ingressPaused = true → x.origin.sent = [] ∧ x.origin.attached = false := by
    intro hp
    exact ⟨hw hp, (hI.unsent (hw hp)).1⟩
  cases h with
  | connect headers hnew hroute =>
    show x.origin.sent = []
    rw [(hI.idle hnew).2]
  | onBody body hreq hopen heom hpause =>
    rw [show x.client.ingressPaused = true from hp] at hpause
    cases hpause
  | onEOM hreq hopen heom hpause =>
    rw [show x.client.ingressPaused = true from hp] at hpause
    cases hpause
  | onError hreq hopen =>
    obtain ⟨hsent, hatt⟩ := hold hp
    simp [hsent, hatt]
  | connectSuccess req hconn hlive hreq => cases hp
  | originFlow m hm hatt =>
    obtain ⟨-, hno⟩ := hold hp
    rw [hatt] at hno
    cases hno
  | _ => exact hw hp

theorem waits_delivered (hI : Inv ext x) (hw : Waits x) (h : Delivered ext cfg x e y) : Waits y := by
  refine h.rule hI hw ?_ ?_ ?_ ?_
  · intro y h
    exact waits_called hI hw h
  · rintro y z - hy ⟨-, -, sh, -, rfl⟩
    exact hy
  · rintro y z - hy ⟨-, rfl⟩
    exact hy
  · intro y hin _ _ h
    rw [Aborted] at h
    subst h
    intro hp
    rw [hw.not_paused hI hin.2] at hp
    cases hp

/-- A handler that exists and has answered has its client resumed. -/
def Resumed (x : Exchange) : Prop :=
  x.deletes = 0 → x.sites ≠ [] → x.client.ingressPaused = false

theorem resumed_completed (hI : Inv ext x) (hw : Waits x) (h : Completed ext x y) : Resumed y := by
  obtain ⟨-, -, sh, -, rfl⟩ := h
  intro hlive _
  cases hatt : x.origin.attached with
  | true => exact hw.not_paused hI hatt
  | false => simp [hatt] at hlive

theorem resumed_detached (hI : Inv ext x) (hw : Waits x) (h : Detached x y) : Resumed y := by
  obtain ⟨hatt, rfl⟩ := h
  intro _ _
  exact hw.not_paused hI hatt

theorem resumed_called (hI : Inv ext x) (hw : Waits x) (hr : Resumed x) (h : Called ext cfg x y)
    (hconn : x.origin.connecting = true → y.origin.connecting = true ∨ y.origin.attached = true) :
    Resumed y := by
  cases h with
  | hit headers route hnew hroute =>
    intro _ _
    show x.client.ingressPaused = false
    rw [(hI.idle hnew).1]
  | badAddress headers hnew hroute =>
    intro _ _
    show x.client.ingressPaused = false
    rw [(hI.idle hnew).1]
  | connect headers hnew hroute =>
    intro _ hsites
    simp [sites, (hI.idle hnew).1, responseSite] at hsites
  | onError hreq hopen =>
    intro hlive
    apply hr
    dsimp only at hlive
    split at hlive
    · exact hlive
    · omega
  | connectSuccess req hconn' hlive hreq =>
    intro _ _
    rfl
  | connectError hconn' hlive hopen =>
    rcases hconn hconn' with hcon | hatt
    · cases hcon
    · exact absurd hconn' (hI.not_connecting hatt)
  | originAnswered headers body hatt heom hok hopen hheaders hbody =>
    intro _ _
    exact hw.not_paused hI hatt
  | originOnError hatt hok =>
    intro _ _
    exact hw.not_paused hI hatt
  | _ => exact hr

theorem origin_deliverDetach (x : Exchange) :
    x.deliverDetach.origin = { x.origin with attached := false } := by
  unfold deliverDetach originDetachTransaction
  rw [(ends_checkForShutdown _).2]
  rfl

theorem connecting_mayDetach (now : Bool) (x : Exchange) :
    (mayDetach now x).origin.connecting = x.origin.connecting := by
  unfold mayDetach
  split
  · rw [origin_deliverDetach]
  · rfl

/-- Only the connector ends the connecting, and only `connectSuccess` with a transaction. -/
theorem connecting_deliver (hne : ∀ now, e ≠ .connectError now) (hconn : x.origin.connecting = true) :
    (x.deliver ext cfg e).origin.connecting = true ∨ (x.deliver ext cfg e).origin.attached = true := by
  cases e with
  | onRequest headers addrOk now =>
    left
    unfold deliver onRequest
    dsimp only
    split
    · rw [sendWithEOM, origin_mayComplete]
      exact hconn
    · split
      · rfl
      · rw [sendWithEOM, origin_mayComplete]
        exact hconn
  | onBody body =>
    left
    unfold deliver onBody
    dsimp only
    split <;> exact hconn
  | onUpgrade => exact .inl hconn
  | onEOM now =>
    left
    unfold deliver onEOM originSendEOM
    dsimp only
    split
    · rw [connecting_mayDetach]
      exact hconn
    · exact hconn
  | requestComplete io =>
    left
    rw [deliver, deliverRequestComplete, (ends_requestComplete _ _).2]
    exact hconn
  | onError now =>
    left
    unfold deliver onError originSendAbort
    dsimp only
    rw [(ends_checkForShutdown _).2]
    split
    · rw [connecting_mayDetach]
      exact hconn
    · exact hconn
  | connectSuccess =>
    right
    unfold deliver connectSuccess
    dsimp only
    split <;> rfl
  | connectError now => exact absurd rfl (hne now)
  | originDetachTransaction =>
    left
    rw [deliver, origin_deliverDetach]
    exact hconn
  | originOnHeadersComplete msg =>
    left
    unfold deliver originOnHeadersComplete
    dsimp only
    split <;> exact hconn
  | originOnBody chain =>
    left
    unfold deliver originOnBody
    dsimp only
    split <;> exact hconn
  | originOnEOM now =>
    rw [origin_originOnEOM]
    exact .inl hconn
  | originOnError now =>
    left
    unfold deliver originOnError abortDownstream sendAbort
    dsimp only
    split
    · rw [origin_mayComplete]
      exact hconn
    · exact hconn
  | originOnEgressPaused =>
    left
    unfold deliver originOnEgressPaused
    dsimp only
    split <;> exact hconn
  | originOnEgressResumed =>
    left
    unfold deliver originOnEgressResumed
    dsimp only
    split <;> exact hconn
  | originIgnored => exact .inl hconn

/-- Whether the client is resumed after a callback hangs on `connectError` alone. -/
theorem resumed_deliver_iff (hI : Inv ext x) (hw : Waits x) (hr : Resumed x)
    (hadm : x.admissible e = true) (hesc : (x.deliver ext cfg e).escaped = false) :
    Resumed (x.deliver ext cfg e) ↔ e ≠ .connectError none := by
  constructor
  · rintro hr' rfl
    simp only [admissible, Bool.and_eq_true, beq_iff_eq] at hadm
    obtain ⟨hconn, hlive⟩ := hadm
    have hpaused : x.client.ingressPaused = true := (hI.waiting hconn).2.2.2.1
    rw [deliver_connectError none hI (open_of_connecting hI hconn hlive)] at hr'
    have hfree := hr' hlive (sites_of_response rfl)
    rw [show x.client.ingressPaused = false from hfree] at hpaused
    cases hpaused
  · intro hne
    by_cases hcon : ∃ now, e = .connectError now
    · obtain ⟨now, rfl⟩ := hcon
      simp only [admissible, Bool.and_eq_true, beq_iff_eq] at hadm
      obtain ⟨hconn, hlive⟩ := hadm
      have hopen := open_of_connecting hI hconn hlive
      have hreq := hI.requested_of_connecting hconn
      have hcalled : Called ext cfg x _ := .connectError hconn hlive hopen
      rw [deliver_connectError now hI hopen] at hesc ⊢
      cases now with
      | none => exact absurd rfl hne
      | some io =>
        -- the request completes inside, and with no origin transaction the handler is freed
        exact resumed_completed (inv_called hI hcalled) (waits_called hI hw hcalled)
          (completed_of hreq hopen (hI.request_ne_none hreq) hI.txn hesc)
    · have hkept : x.origin.connecting = true →
          (x.deliver ext cfg e).origin.connecting = true ∨
            (x.deliver ext cfg e).origin.attached = true :=
        connecting_deliver fun now he => hcon ⟨now, he⟩
      have hd := @deliver_cases ext cfg x e hI hadm hesc
      revert hkept hd
      generalize x.deliver ext cfg e = y
      intro hkept hd
      cases hd with
      | called h => exact resumed_called hI hw hr h hkept
      | completed io he h => exact resumed_completed hI hw h
      | detached h => exact resumed_detached hI hw h
      | completedInside h hout hc =>
        exact resumed_completed (inv_called hI h) (waits_called hI hw h) hc
      | detachedInside h hd => exact resumed_detached (inv_called hI h) (waits_called hI hw h) hd
      | abortedInside hin hopen hreq h =>
        rw [Aborted] at h
        subst h
        intro hlive
        simp at hlive

end

end Exchange

namespace System

section
variable {ext : External} {cfg : Config} {s s' t : System} {e : Nat × Event}

/-- Every handler that exists and has answered has its client resumed. -/
def ClientsResumed (s : System) : Prop :=
  ∀ i, (s.handlers i).deletes = 0 → (s.handlers i).sites ≠ [] →
    (s.handlers i).client.ingressPaused = false

theorem waits_reachable (h : Reachable ext cfg s) (i : Nat) : Exchange.Waits (s.handlers i) :=
  handler_inv (fun _ _ hw => hw) (fun _ hp => by cases hp)
    (fun _ _ _ hI hw hd => Exchange.waits_delivered hI hw hd) h i

theorem resumed_step_iff (hs : Reachable ext cfg s) (hr : ClientsResumed s)
    (h : step ext cfg s e = some s') : ClientsResumed s' ↔ e.2 ≠ .connectError none := by
  obtain ⟨hadm, hesc, rfl⟩ := step_some h
  have hI := inv_exchange (handlersInv_reachable hs) e.1
  have hiff := Exchange.resumed_deliver_iff hI (waits_reachable hs e.1) (hr e.1) hadm hesc
  constructor
  · intro hr'
    have hy := hr' e.1
    simp only [if_true] at hy
    exact hiff.1 hy
  · intro hne i
    by_cases hi : i = e.1
    · simp only [hi, if_true]
      exact hiff.2 hne
    · simp only [if_neg hi]
      exact hr i

/-- **Paused and resumed.** In every state a run passes through, the clients of the handlers that
exist and have answered are resumed exactly if no connection attempt of the run ends in a
`connectError` that leaves the handler there. -/
theorem resumed_iff {dir : String} {writeToDisk : Bool} {es : List (Nat × Event)}
    (hrun : Run.run (step ext cfg) (init dir writeToDisk) es = some t) :
    (∀ fs u, fs <+: es → Run.run (step ext cfg) (init dir writeToDisk) fs = some u →
      ClientsResumed u) ↔
    Run.Meets (step ext cfg) (fun _ e => e.2 ≠ .connectError none) (init dir writeToDisk) es :=
  Run.good_throughout_iff (P := Reachable ext cfg) (fun _ _ _ hs h => hs.step h)
    (fun _ _ _ hs hr h => resumed_step_iff hs hr h) es ⟨dir, writeToDisk, [], rfl⟩
    (fun _ _ _ => rfl) hrun

theorem resumed_iff_of_fetch : ∃ t, Scenario.run (Scenario.fetch 0) = some t ∧
    ((∀ fs u, fs <+: Scenario.fetch 0 → Scenario.run fs = some u → ClientsResumed u) ↔
      Run.Meets (step Scenario.ext {}) (fun _ e => e.2 ≠ .connectError none)
        (init "/dev/null" false) (Scenario.fetch 0)) := by
  obtain ⟨t, ht⟩ := Option.isSome_iff_exists.1
    (show (Scenario.run (Scenario.fetch 0)).isSome = true by decide)
  exact ⟨t, ht, resumed_iff ht⟩

/-- The origin is down: the client gets its 503 and stays paused. -/
theorem paused_after_bad_gateway : ∃ t, Scenario.run [(0, .onRequest Scenario.get true none),
      (0, .connectError none)] = some t ∧ (t.handlers 0).sites = [.connectError] ∧
    (t.handlers 0).deletes = 0 ∧ (t.handlers 0).client.ingressPaused = true ∧ ¬ ClientsResumed t := by
  obtain ⟨t, ht, hd⟩ := Option.map_eq_some_iff.1 (show (Scenario.run
      [(0, .onRequest Scenario.get true none), (0, .connectError none)]).map (fun t =>
        ((t.handlers 0).sites, (t.handlers 0).deletes, (t.handlers 0).client.ingressPaused)) =
    some ([.connectError], 0, true) by decide)
  simp only [Prod.mk.injEq] at hd
  obtain ⟨hsites, hlive, hpaused⟩ := hd
  refine ⟨t, ht, hsites, hlive, hpaused, fun hr => ?_⟩
  have hfree := hr 0 hlive (by simp [hsites])
  rw [hpaused] at hfree
  cases hfree

end

end System

end GladiusMasternode
