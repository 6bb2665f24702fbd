import GladiusMasternode.Library.Unwinding
import GladiusMasternode.Proxy.Escapes
import GladiusMasternode.Server.Answers
/-
# What a request can see of the others

All handlers work on one cache and one list of nodes. A proxy handler reads the cache once, when its
request arrives, and ignores what `addCachedRoute` answers; `DirectHandler` reads the nodes and the
hashes once; the others read nothing. So what becomes of a request depends on its own events and on
these answers alone (`isolated`): not on what other clients ask for and when, not on the gateway's
polls, not on whether its own response went into the cache.
-/

namespace GladiusMasternode

/-- The event, whatever the map and the file system answer during it. -/
def Event.blind : Event → Event
  | .onRequest headers addrOk now => .onRequest headers addrOk (now.map fun _ => ⟨true, true⟩)
  | .requestComplete _ => .requestComplete ⟨true, true⟩
  | .connectError now => .connectError (now.map fun _ => ⟨true, true⟩)
  | .originOnEOM now => .originOnEOM (now.map fun _ => ⟨true, true⟩)
  | .originOnError now => .originOnError (now.map fun _ => ⟨true, true⟩)
  | e => e

namespace Exchange

variable {ext : External} {cfg : Config} {x y : Exchange} {io : AddIO} {now : Option AddIO}

/-- What is the handler's own. -/
def own (x : Exchange) : Exchange := { x with shared := {} }

@[simp] theorem own_this (x : Exchange) : x.own.this = x.this := rfl

theorem own_ite {x' y' : Exchange} (b : Bool) (h : x.own = y.own) (h' : x'.own = y'.own) :
    (if b then x else x').own = (if b then y else y').own := by
  cases b
  · exact h'
  · exact h

theorem own_checkForShutdown (h : x.own = y.own) :
    (checkForShutdown x).2.own = (checkForShutdown y).2.own := by
  rw [checkForShutdown_eq, checkForShutdown_eq]
  exact congrArg (fun z : Exchange => { z.touch with
    deletes := if z.this.clientTerminated_ && !z.this.originTxn_ then z.deletes + 1
      else z.deletes }) h

/-- On a cache of its own, with room and a file that opens, nothing is thrown. -/
theorem escaped_own_requestComplete (hok : x.escaped = false) :
    (requestComplete ext ⟨true, true⟩ x.own).escaped = false := by
  cases hreq : x.this.request_ with
  | none =>
    unfold requestComplete
    simp only [touch_this, own_this, hreq]
    exact hok
  | some req =>
    rw [escaped_requestComplete (x := x.own) hreq, Bool.eq_false_iff, Ne,
      escaped_storeContent_iff (by exact hok)]
    rintro ⟨_, _, -, -, -, -, hfails⟩
    obtain hfull | ⟨-, hclosed⟩ := hfails
    · cases hfull
    · cases hclosed

theorem ok_of_requestComplete (h : (requestComplete ext io x).escaped = false) :
    x.escaped = false := by
  cases hreq : x.this.request_ with
  | none =>
    unfold requestComplete at h
    simp only [touch_this, hreq] at h
    exact h
  | some req =>
    obtain ⟨sh, -, heq⟩ := requestComplete_eq hreq h
    rw [heq] at h
    exact h

/-- A handler cannot tell what became of its cache insert. -/
theorem own_requestComplete (h : (requestComplete ext io x).escaped = false) :
    (requestComplete ext io x).own = (requestComplete ext ⟨true, true⟩ x.own).own := by
  have hown := @escaped_own_requestComplete ext x (ok_of_requestComplete h)
  cases hreq : x.this.request_ with
  | none =>
    unfold requestComplete
    simp only [touch_this, hreq, own_this]
    rfl
  | some req =>
    obtain ⟨sh, -, heq⟩ := requestComplete_eq hreq h
    obtain ⟨sh', -, heq'⟩ := requestComplete_eq (x := x.own) hreq hown
    rw [heq, heq']
    rfl

theorem own_mayComplete (h : (x.mayComplete ext now).escaped = false) :
    (x.mayComplete ext now).own =
      (x.own.mayComplete ext (now.map fun _ => ⟨true, true⟩)).own := by
  cases now with
  | none => rfl
  | some io => exact own_requestComplete h

theorem own_abortDownstream (h : (x.abortDownstream ext now).escaped = false) :
    (x.abortDownstream ext now).own =
      (x.own.abortDownstream ext (now.map fun _ => ⟨true, true⟩)).own := by
  revert h
  unfold abortDownstream
  dsimp only
  cases hterm : x.this.clientTerminated_ with
  | true =>
    simp only [touch_this, own_this, hterm]
    intro _
    rfl
  | false =>
    simp only [touch_this, own_this, hterm]
    exact fun h => own_mayComplete h

theorem own_connectError (h : (connectError ext now x).escaped = false) :
    (connectError ext now x).own =
      (connectError ext (now.map fun _ => ⟨true, true⟩) x.own).own := by
  revert h
  unfold connectError
  cases hterm : x.this.clientTerminated_ with
  | false =>
    simp only [touch_this, own_this, hterm, Bool.not_false, if_true]
    exact fun h => own_mayComplete h
  | true =>
    simp only [touch_this, own_this, hterm, Bool.not_true, Bool.false_eq_true, if_false]
    intro h
    rw [escaped_checkForShutdown] at h
    exact own_checkForShutdown (own_abortDownstream h)

theorem own_originOnEOM (h : (originOnEOM ext now x).escaped = false) :
    (originOnEOM ext now x).own =
      (originOnEOM ext (now.map fun _ => ⟨true, true⟩) x.own).own := by
  revert h
  unfold originOnEOM
  cases hterm : x.this.clientTerminated_ <;> simp only [touch_this, own_this, hterm]
  · split
    · exact fun h => own_mayComplete h
    · exact fun _ => rfl
  · split <;> exact fun _ => rfl

theorem own_originSendAbort (now : Bool) (x : Exchange) :
    (x.originSendAbort now).own = (x.own.originSendAbort now).own := by
  cases now with
  | false => rfl
  | true => exact own_checkForShutdown rfl

/-- After `onRequest` no method looks at the cache. -/
theorem own_deliver {e : Event} (hnew : ∀ headers addrOk now, e ≠ .onRequest headers addrOk now)
    (h : (x.deliver ext cfg e).escaped = false) :
    (x.deliver ext cfg e).own = (x.own.deliver ext cfg e.blind).own := by
  cases e with
  | onRequest headers addrOk now => exact absurd rfl (hnew headers addrOk now)
  | onBody body => exact own_ite x.this.originTxn_ rfl rfl
  | onUpgrade => rfl
  | onEOM now =>
    refine own_ite x.this.originTxn_ ?_ rfl
    cases now with
    | false => rfl
    | true => exact own_checkForShutdown rfl
  | requestComplete io => exact own_requestComplete h
  | onError now =>
    exact own_checkForShutdown (own_ite x.this.originTxn_ (own_originSendAbort now _) rfl)
  | connectSuccess =>
    simp only [deliver, Event.blind, connectSuccess, originSetTransaction, set]
    cases hreq : x.this.request_ <;> simp only [touch_this, own_this, hreq] <;> rfl
  | connectError now => exact own_connectError h
  | originDetachTransaction => exact own_checkForShutdown rfl
  | originOnHeadersComplete msg => exact own_ite x.this.clientTerminated_ rfl rfl
  | originOnBody chain => exact own_ite x.this.clientTerminated_ rfl rfl
  | originOnEOM now => exact own_originOnEOM h
  | originOnError now => exact own_abortDownstream h
  | originOnEgressPaused =>
    exact own_ite (!x.this.clientTerminated_ && x.this.originTxn_) rfl rfl
  | originOnEgressResumed =>
    exact own_ite (!x.this.clientTerminated_ && x.this.originTxn_) rfl rfl
  | originIgnored => rfl

@[simp] theorem shared_set (f : ProxyHandler → ProxyHandler) (x : Exchange) :
    (x.set f).shared = x.shared := rfl

theorem own_set (f : ProxyHandler → ProxyHandler) (h : x.own = y.own) :
    (x.set f).own = (y.set f).own := congrArg (set f) h

theorem own_use (act : Down) (h : x.own = y.own) : (x.use act).own = (y.use act).own :=
  congrArg (use act) h

theorem own_sendWithEOM {now now' : Option AddIO} {site : Site} {r : Response}
    (hown : x.own = y.own) (hnow : now.isSome = now'.isSome)
    (hx : (x.sendWithEOM ext now site r).escaped = false)
    (hy : (y.sendWithEOM ext now' site r).escaped = false) :
    (x.sendWithEOM ext now site r).own = (y.sendWithEOM ext now' site r).own := by
  have hblind : (now.map fun _ => (⟨true, true⟩ : AddIO)) = now'.map fun _ => ⟨true, true⟩ := by
    cases now <;> cases now' <;> simp_all
  refine (own_mayComplete hx).trans (.trans ?_ (own_mayComplete hy).symm)
  rw [hblind, own_use _ hown]

/-- `onRequest` sees of the cache only the route it asks for. -/
theorem own_onRequest {headers : HTTPMessage} {addrOk : Bool} {now now' : Option AddIO}
    (hown : x.own = y.own) (hnow : now.isSome = now'.isSome)
    (hroute : cachedRouteFor ext x.shared.cache headers = cachedRouteFor ext y.shared.cache headers)
    (hx : (onRequest ext cfg headers addrOk now x).escaped = false)
    (hy : (onRequest ext cfg headers addrOk now' y).escaped = false) :
    (onRequest ext cfg headers addrOk now x).own = (onRequest ext cfg headers addrOk now' y).own := by
  have hset := own_set (fun h => { h with request_ := some headers }) hown
  revert hx hy
  unfold onRequest
  simp only [shared_set, hroute]
  cases cachedRouteFor ext y.shared.cache headers with
  | some route => exact own_sendWithEOM hset hnow
  | none =>
    have hstrip := own_set (fun h => { h with request_ := some (headers.stripPerHopHeaders ext) }) hset
    cases addrOk with
    | true =>
      intro _ _
      exact congrArg (fun z : Exchange => { z.touch with origin.connecting := true })
        (own_use .pauseIngress hstrip)
    | false => exact own_sendWithEOM hstrip hnow

end Exchange

theorem Immediate.deliver_blind (h : Immediate) (e : Event) : h.deliver e.blind = h.deliver e := by
  cases e <;> rfl

theorem System.own_step {ext : External} {cfg : Config} {s s' : System}
    {e : Nat × GladiusMasternode.Event} (h : s.step ext cfg e = some s') :
    ((s.exchange e.1).deliver ext cfg e.2).escaped = false ∧
      (s'.handlers e.1).own = ((s.exchange e.1).deliver ext cfg e.2).own := by
  obtain ⟨-, hesc, rfl⟩ := System.step_some h
  exact ⟨hesc, by simp⟩

namespace Server

variable {R : Type} {s s' t t' : Server R} {i : Nat}

/-! ## What a handler holds and sees -/

def view (i : Nat) (s : Server R) : Option Slot × Exchange := (s.slots i, (s.system.handlers i).own)

theorem view_setSlot_other {j : Nat} (slot : Slot) (hj : i ≠ j) :
    (s.setSlot j slot).view i = s.view i := by
  unfold view
  rw [setSlot_other s slot hj, setSlot_system]

theorem own_eq_of_view (h : s.view i = t.view i) :
    (s.system.exchange i).own = (t.system.exchange i).own := (Prod.mk.inj h).2

/-- What the calls of a request on the shared objects return: `getCachedRoute` of a proxied request;
`getNearestEdgeNodes` or `getEdgeNodes`, and `getAssetHashMap`, of a direct one. -/
inductive Returned (R : Type) where
  | nothing
  | cachedRoute (route : Option CachedRoute)
  | network (edgeNodes : Option (Except Crash (List (EdgeNode R)))) (hashes : List (String × String))
deriving DecidableEq

inductive Seen (R : Type) where
  | request (q : Incoming) (addrOk : Bool) (now : Bool) (returned : Returned R)
  | callback (e : GladiusMasternode.Event)
deriving DecidableEq

variable [Field R] {env : Env R}

def returned (env : Env R) (s : Server R) (q : Incoming) : Returned R :=
  match route env q with
  | .proxy => .cachedRoute
      (Exchange.cachedRouteFor env.ext s.system.shared.cache (q.m.ensureHostHeader env.url))
  | .direct => .network (s.state_.map fun st => DirectHandler.edgeNodes env.lib st q.clientIP)
      s.system.shared.cache.getAssetHashMap
  | _ => .nothing

/-- What handler `i` sees of a step: of its own events all but what the map and the file system
answer, of the others and of polls nothing. -/
def seen (env : Env R) (i : Nat) (s : Server R) : Event → Option (Seen R)
  | .request j q addrOk now =>
    if j = i then some (.request q addrOk now.isSome (s.returned env q)) else none
  | .callback j e => if j = i then some (.callback e.blind) else none
  | .poll _ => none

theorem seen_cases {e : Event} {o : Seen R} (h : seen env i s e = some o) :
    (∃ q addrOk now, e = .request i q addrOk now ∧
      o = .request q addrOk now.isSome (s.returned env q)) ∨
    ∃ f, e = .callback i f ∧ o = .callback f.blind := by
  cases e with
  | request j q addrOk now =>
    obtain ⟨rfl, ho⟩ := Option.ite_none_right_eq_some.1 h
    exact .inl ⟨q, addrOk, now, rfl, (Option.some.inj ho).symm⟩
  | callback j f =>
    obtain ⟨rfl, ho⟩ := Option.ite_none_right_eq_some.1 h
    exact .inr ⟨f, rfl, (Option.some.inj ho).symm⟩
  | poll p => cases h

/-! ## Each step -/

theorem view_unseen {e : Event} (h : step env s e = some s') (hseen : seen env i s e = none) :
    s'.view i = s.view i := by
  have hother : ∀ {j : Nat} {o : Seen R}, (if j = i then some o else none) = none → i ≠ j := by
    rintro j o hnone rfl
    simp at hnone
  cases step_cases h with
  | @proxied j q addrOk now system hfree hroute hsys =>
    rw [view_setSlot_other _ (hother hseen), view, System.handlers_other hsys (hother hseen)]
    rfl
  | answered hfree hroute hsent => exact view_setSlot_other _ (hother hseen)
  | called hslot hnew hsys =>
    rw [view, System.handlers_other hsys (hother hseen)]
    rfl
  | told hslot hdel => exact view_setSlot_other _ (hother hseen)
  | polled p => rfl

/-- An answer on the spot is made from what was returned. -/
theorem answer_eq_of_returned {q : Incoming} (hret : s.returned env q = t.returned env q) :
    s.answer env q (route env q) = t.answer env q (route env q) := by
  unfold returned at hret
  cases hroute : route env q with
  | direct =>
    simp only [hroute, Returned.network.injEq] at hret
    obtain ⟨hnodes, hhashes⟩ := hret
    have hwith : DirectHandler.withEdgeNodes env.lib (s.masternode env) q.clientIP (.object []) =
        DirectHandler.withEdgeNodes env.lib (t.masternode env) q.clientIP (.object []) := by
      unfold DirectHandler.withEdgeNodes masternode
      cases env.config.enableP2P <;> cases hs : s.state_ <;> cases ht : t.state_ <;> simp_all
    have hmap : DirectHandler.assetHashes (s.masternode env).cache_ =
        DirectHandler.assetHashes (t.masternode env).cache_ := by
      unfold DirectHandler.assetHashes masternode
      rw [hhashes]
    simp only [answer, DirectHandler.onRequest, DirectHandler.jsonRes, hwith, hmap]
  | _ => rfl

theorem view_request {q : Incoming} {addrOk : Bool} {now now' : Option AddIO}
    (hs : step env s (.request i q addrOk now) = some s')
    (ht : step env t (.request i q addrOk now') = some t') (hnow : now.isSome = now'.isSome)
    (hret : s.returned env q = t.returned env q) (hview : s.view i = t.view i) :
    s'.view i = t'.view i := by
  have hown := own_eq_of_view hview
  cases step_cases hs with
  | proxied hfree hroute hsys =>
    cases step_cases ht with
    | proxied hfree' hroute' hsys' =>
      obtain ⟨hesc, hown₁⟩ := System.own_step hsys
      obtain ⟨hesc', hown₂⟩ := System.own_step hsys'
      unfold returned at hret
      simp only [hroute, Returned.cachedRoute.injEq] at hret
      have hnew := congrArg (fun x : Exchange =>
        { x with client.request := some (q.m.ensureHostHeader env.url) }) hown
      refine Prod.ext (by simp [view]) ?_
      exact hown₁.trans ((Exchange.own_onRequest hnew hnow hret hesc hesc').trans hown₂.symm)
    | answered hfree' hroute' hsent' => exact absurd hroute hroute'
  | answered hfree hroute hsent =>
    cases step_cases ht with
    | proxied hfree' hroute' hsys' => exact absurd hroute' hroute
    | answered hfree' hroute' hsent' =>
      obtain rfl := Option.some.inj (hsent.symm.trans ((answer_eq_of_returned hret).trans hsent'))
      exact Prod.ext (by simp [view]) hown

theorem view_callback {e f : GladiusMasternode.Event}
    (hs : step env s (.callback i e) = some s') (ht : step env t (.callback i f) = some t')
    (hblind : e.blind = f.blind) (hview : s.view i = t.view i) : s'.view i = t'.view i := by
  have hown := own_eq_of_view hview
  have hslots : s.slots i = t.slots i := (Prod.mk.inj hview).1
  cases step_cases hs with
  | called hslot hnew hsys =>
    cases step_cases ht with
    | called hslot' hnew' hsys' =>
      obtain ⟨hesc, hown₁⟩ := System.own_step hsys
      obtain ⟨hesc', hown₂⟩ := System.own_step hsys'
      refine Prod.ext hslots ?_
      show (System.handlers _ i).own = (System.handlers _ i).own
      rw [hown₁, hown₂, Exchange.own_deliver hnew hesc, Exchange.own_deliver hnew' hesc', hown, hblind]
    | told hslot' hdel' =>
      rw [hslots, hslot'] at hslot
      cases hslot
  | @told _ _ g g' hslot hdel =>
    cases step_cases ht with
    | called hslot' hnew' hsys' =>
      rw [hslots, hslot'] at hslot
      cases hslot
    | told hslot' hdel' =>
      rw [hslots, hslot', Option.some.injEq, Slot.immediate.injEq] at hslot
      subst hslot
      rw [← Immediate.deliver_blind, hblind, Immediate.deliver_blind, hdel', Option.some.injEq] at hdel
      subst hdel
      exact Prod.ext (by simp [view]) hown

/-! ## Each run -/

theorem unwinds (env : Env R) (i : Nat) : Run.Unwinds (step env) (view i) (seen env i) where
  unseen := view_unseen
  alike hs ht hseen hseen' hview := by
    obtain ⟨q, addrOk, now, rfl, rfl⟩ | ⟨e, rfl, rfl⟩ := seen_cases hseen
    · obtain ⟨q', addrOk', now', rfl, ho⟩ | ⟨f, rfl, ho⟩ := seen_cases hseen'
      · obtain ⟨rfl, rfl, hnow, hret⟩ := Seen.request.inj ho
        exact view_request hs ht hnow hret hview
      · cases ho
    · obtain ⟨q', addrOk', now', rfl, ho⟩ | ⟨f, rfl, ho⟩ := seen_cases hseen'
      · cases ho
      · exact view_callback hs ht (Seen.callback.inj ho) hview

/-- **Isolation.** Take two masternodes at work, from any two states that are the same for handler
`i`, with whatever other clients, answers and polls in whatever order. If its own events and what
its calls on the shared objects return are the same, then it is in the same state at the end, and has
sent the same responses to its client and the same messages to the origin. -/
theorem isolated {es fs : List Event} (hs : Run.run (step env) s es = some s')
    (ht : Run.run (step env) t fs = some t') (hview : s.view i = t.view i)
    (hseen : Run.observed (step env) (seen env i) s es =
      Run.observed (step env) (seen env i) t fs) :
    s'.view i = t'.view i ∧ s'.responses i = t'.responses i ∧
      (s'.system.handlers i).origin.sent = (t'.system.handlers i).origin.sent := by
  have hend := (unwinds env i).view_eq_of_observed hs ht hseen hview
  have hown := own_eq_of_view hend
  have hslots : s'.slots i = t'.slots i := (Prod.mk.inj hend).1
  have hsent := congrArg (fun x : Exchange => x.origin.sent) hown
  have hres := congrArg Exchange.responses hown
  refine ⟨hend, ?_, hsent⟩
  unfold responses
  rw [hslots]
  split
  · exact hres
  · rfl
  · rfl

/-- Handler 0 has its response stored in one run. In the other, handler 1 gets there first. -/
theorem isolated_race : ∃ s t, Scenario.serve Scenario.visits = some s ∧
    Scenario.serve Scenario.race = some t ∧
    s.system.shared.adds.map (·.result) = [true] ∧ t.system.shared.adds.map (·.result) = [true, false] ∧
    s.view 0 = t.view 0 ∧ s.responses 0 = t.responses 0 ∧
      (s.system.handlers 0).origin.sent = (t.system.handlers 0).origin.sent := by
  obtain ⟨s, hs, hadds⟩ := Option.map_eq_some_iff.1 (show (Scenario.serve Scenario.visits).map
    (fun s => s.system.shared.adds.map (·.result)) = some [true] by decide +kernel)
  obtain ⟨t, ht, hadds'⟩ := Option.map_eq_some_iff.1 (show (Scenario.serve Scenario.race).map
    (fun s => s.system.shared.adds.map (·.result)) = some [true, false] by decide +kernel)
  exact ⟨s, t, hs, ht, hadds, hadds', isolated hs ht rfl (by decide +kernel)⟩

end Server

end GladiusMasternode
