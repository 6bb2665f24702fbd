import GladiusMasternode.Model.System
/-
# What one callback does

Every callback is taken apart once, here. `Called` lists the effect of each method on its own, with
the calls it makes not calling back; `Completed` and `Detached` are the last callbacks of the two
transactions. A call that delivers the last callback on the spot, at the end of a method, is the
method followed by that callback (`Delivered.completedInside`, `Delivered.detachedInside`). The one
exception is `onError`, which goes on after `originTxn_->sendAbort()`: `Delivered.abortedInside`.

`Inv` is what holds of an exchange between any two callbacks, in every run.
-/

namespace GladiusMasternode

/-- What the cache key and the cache decision read of a request. -/
def HTTPMessage.line (m : HTTPMessage) : HTTPMethod × String := (m.method, m.url)

namespace Exchange

def responseSite (u : Use) : Option Site :=
  match u.act with
  | .response site _ => some site
  | _ => none

/-- The sites of the responses sent so far. -/
def sites (x : Exchange) : List Site := x.client.uses.filterMap responseSite

/-! ## The invariant -/

structure Inv (ext : External) (x : Exchange) : Prop where
  terminated : x.this.clientTerminated_ = x.client.done
  txn : x.this.originTxn_ = x.origin.attached
  freed : x.deletes ≠ 0 ↔ x.client.done = true ∧ x.origin.attached = false
  deref : x.nullDeref = false
  request : x.this.request_.map HTTPMessage.line = x.client.request.map HTTPMessage.line
  idle : x.client.request = none → x.client = {} ∧ x.origin = {}
  waiting : x.origin.connecting = true → x.origin.sent = [] ∧ x.client.chunks = [] ∧
    x.client.eom = false ∧ x.client.ingressPaused = true ∧ x.sites = [] ∧
    x.this.request_ = x.client.request.map (HTTPMessage.stripPerHopHeaders ext)
  unsent : x.origin.sent = [] → x.origin.attached = false ∧ x.origin.headers = none ∧
    x.origin.chunks = [] ∧ x.origin.eom = false ∧ x.origin.failed = false
  content : x.this.clientTerminated_ = false →
    x.this.contentBody_ = IOBuf.concat x.origin.chunks ∧ x.this.contentHeaders_ = x.origin.headers
  inTime : ∀ u ∈ x.client.uses, u.terminated = false
  answered : x.sites = [] ∨ x.origin.connecting = false ∧
    ((∃ site, site ≠ .originEOM ∧ x.sites = [site] ∧ x.origin.sent = []) ∨
      x.sites = [.originEOM] ∧ x.origin.eom = true)

theorem inv_init (ext : External) (i : Nat) : Inv ext { id := i } := by
  refine ⟨rfl, rfl, by simp, rfl, rfl, fun _ => ⟨rfl, rfl⟩, by simp,
    fun _ => ⟨rfl, rfl, rfl, rfl, rfl⟩, fun _ => ⟨rfl, rfl⟩, by simp, .inl rfl⟩

section
variable {ext : External} {x : Exchange}

theorem Inv.request_ne_none (hI : Inv ext x) (hreq : x.client.request ≠ none) :
    x.this.request_ ≠ none := by
  intro hr
  have hline := hI.request
  rw [hr] at hline
  exact hreq (by simpa using hline.symm)

theorem Inv.requested_of_connecting (hI : Inv ext x) (hconn : x.origin.connecting = true) :
    x.client.request ≠ none := by
  intro hc
  rw [(hI.idle hc).2] at hconn
  cases hconn

theorem Inv.requested_of_attached (hI : Inv ext x) (hatt : x.origin.attached = true) :
    x.client.request ≠ none := by
  intro hc
  rw [(hI.idle hc).2] at hatt
  cases hatt

theorem Inv.request_of_attached (hI : Inv ext x) (hatt : x.origin.attached = true) :
    x.this.request_ ≠ none := hI.request_ne_none (hI.requested_of_attached hatt)

end

/-! ## The shared cache under `requestComplete` -/

/-- What `requestComplete` of handler `i` may leave in the shared cache. -/
inductive Stored (ext : External) (i : Nat) (h : ProxyHandler) (sh : Shared) : Shared → Prop
  | nothing (hno : ∀ req, h.request_ = some req → req.method = .get →
      h.contentBody_ = none ∨ h.contentHeaders_ = none) : Stored ext i h sh sh
  | route {io : AddIO} {req : HTTPMessage} {body : IOBuf} {headers : HTTPMessage}
      {cache : ContentCache} {b : Bool} (hreq : h.request_ = some req) (hget : req.method = .get)
      (hbody : h.contentBody_ = some body) (hheaders : h.contentHeaders_ = some headers)
      (hadd : sh.cache.addCachedRoute ext io (ext.getUrl req.url) body.cloneCoalesced headers
        = (cache, .ok b)) :
      Stored ext i h sh
        ⟨cache, sh.adds ++ [⟨i, ext.getUrl req.url, body.cloneCoalesced, headers, b⟩]⟩

section
variable {ext : External} {cfg : Config} {io : AddIO} {x : Exchange}

theorem touch_touch (x : Exchange) : x.touch.touch = x.touch := by
  simp only [touch, Bool.or_assoc, Bool.or_self]

theorem checkForShutdown_eq (x : Exchange) :
    (checkForShutdown x).2 = { x.touch with
      deletes :=
        if x.this.clientTerminated_ && !x.this.originTxn_ then x.deletes + 1 else x.deletes } := by
  unfold checkForShutdown deleteThis
  dsimp only [touch]
  split <;> rfl

theorem storeContent_eq {req : HTTPMessage} (hreq : x.this.request_ = some req)
    (hesc : (x.touch.storeContent ext io req).escaped = false) :
    ∃ sh, Stored ext x.id x.this x.shared sh ∧
      x.touch.storeContent ext io req = { x.touch with shared := sh } := by
  revert hesc
  unfold storeContent
  split
  · rename_i body headers hb hh
    split
    · rename_i hget
      unfold addCachedRoute
      split
      · rename_i cache b hadd
        intro _
        exact ⟨_, .route hreq hget hb hh hadd, by rw [touch_touch]; rfl⟩
      · intro h; simp at h
    · rename_i hget
      intro _
      refine ⟨_, .nothing fun req' hreq' hget' => ?_, rfl⟩
      rw [hreq, Option.some.injEq] at hreq'
      exact absurd (hreq' ▸ hget') hget
  · rename_i hno
    intro _
    refine ⟨_, .nothing fun _ _ _ => ?_, rfl⟩
    cases hb : x.this.contentBody_ with
    | none => exact .inl rfl
    | some body =>
      cases hh : x.this.contentHeaders_ with
      | none => exact .inr rfl
      | some headers => exact absurd hh (hno body headers hb)

theorem requestComplete_eq {req : HTTPMessage} (hreq : x.this.request_ = some req)
    (hesc : (requestComplete ext io x).escaped = false) :
    ∃ sh, Stored ext x.id x.this x.shared sh ∧ requestComplete ext io x = { x.touch with
      this.clientTerminated_ := true
      shared := sh
      deletes := if x.this.originTxn_ then x.deletes else x.deletes + 1 } := by
  have hrun : requestComplete ext io x =
      if (x.touch.storeContent ext io req).escaped then x.touch.storeContent ext io req
      else (checkForShutdown ((x.touch.storeContent ext io req).set
        fun h => { h with clientTerminated_ := true })).2 := by
    unfold requestComplete
    simp only [show x.touch.this.request_ = some req from hreq]
  rw [hrun] at hesc ⊢
  cases h : (x.touch.storeContent ext io req).escaped with
  | true => simp [h] at hesc
  | false =>
    obtain ⟨sh, hst, he⟩ := storeContent_eq hreq h
    refine ⟨sh, hst, ?_⟩
    rw [if_neg (by simp), he, checkForShutdown_eq]
    cases ht : x.this.originTxn_ <;> simp [set, touch, ht]

end

/-! ## The effects -/

/-- A method whose calls do not call back. -/
inductive Called (ext : External) (cfg : Config) (x : Exchange) : Exchange → Prop
  /-- `onRequest`, from the cache -/
  | hit (headers : HTTPMessage) (route : CachedRoute) (hnew : x.client.request = none)
      (hroute : cachedRouteFor ext x.shared.cache headers = some route) :
      Called ext cfg x { x.touch with
        this.request_ := some headers
        client.request := some headers
        client.uses := x.client.uses ++
          [⟨.response .cacheHit (cachedResponse ext cfg route), x.this.clientTerminated_⟩] }
  /-- `onRequest`, `setFromHostPort` throws -/
  | badAddress (headers : HTTPMessage) (hnew : x.client.request = none)
      (hroute : cachedRouteFor ext x.shared.cache headers = none) :
      Called ext cfg x { x.touch with
        this.request_ := some (headers.stripPerHopHeaders ext)
        client.request := some headers
        client.uses := x.client.uses ++
          [⟨.response .badAddress badGateway, x.this.clientTerminated_⟩] }
  /-- `onRequest`, connecting to the origin -/
  | connect (headers : HTTPMessage) (hnew : x.client.request = none)
      (hroute : cachedRouteFor ext x.shared.cache headers = none) :
      Called ext cfg x { x.touch with
        this.request_ := some (headers.stripPerHopHeaders ext)
        client.request := some headers
        client.uses := x.client.uses ++ [⟨.pauseIngress, x.this.clientTerminated_⟩]
        client.ingressPaused := true
        origin.connecting := true }
  | onBody (body : IOBuf) (hreq : x.client.request ≠ none) (hopen : x.client.done = false)
      (heom : x.client.eom = false) (hpause : x.client.ingressPaused = false) :
      Called ext cfg x { x.touch with
        client.chunks := x.client.chunks ++ [body]
        origin.sent := x.origin.sent ++ if x.origin.attached then [.body body] else [] }
  | onEOM (hreq : x.client.request ≠ none) (hopen : x.client.done = false)
      (heom : x.client.eom = false) (hpause : x.client.ingressPaused = false) :
      Called ext cfg x { x.touch with
        client.eom := true
        origin.sent := x.origin.sent ++ if x.origin.attached then [.eom] else [] }
  | onError (hreq : x.client.request ≠ none) (hopen : x.client.done = false) :
      Called ext cfg x { x.touch with
        this.clientTerminated_ := true
        client.done := true
        origin.sent := x.origin.sent ++ if x.origin.attached then [.abort] else []
        deletes := if x.origin.attached then x.deletes else x.deletes + 1 }
  | connectSuccess (req : HTTPMessage) (hconn : x.origin.connecting = true) (hlive : x.deletes = 0)
      (hreq : x.this.request_ = some req) :
      Called ext cfg x { x.touch with
        this.originTxn_ := true
        this.request_ := some (req.removeHeader "Accept-Encoding")
        client.uses := x.client.uses ++ [⟨.resumeIngress, x.this.clientTerminated_⟩]
        client.ingressPaused := false
        origin.connecting := false
        origin.attached := true
        origin.sent := x.origin.sent ++ [.headers (req.removeHeader "Accept-Encoding")] }
  | connectError (hconn : x.origin.connecting = true) (hlive : x.deletes = 0)
      (hopen : x.client.done = false) :
      Called ext cfg x { x.touch with
        client.uses := x.client.uses ++
          [⟨.response .connectError badGateway, x.this.clientTerminated_⟩]
        origin.connecting := false }
  | originOnHeadersComplete (msg : HTTPMessage) (hatt : x.origin.attached = true)
      (hnone : x.origin.headers = none) (heom : x.origin.eom = false)
      (hok : x.origin.failed = false) :
      Called ext cfg x { x.touch with
        this.contentHeaders_ := if x.client.done then x.this.contentHeaders_ else some msg
        origin.headers := some msg }
  | originOnBody (chain : IOBuf) (hatt : x.origin.attached = true)
      (hheaders : x.origin.headers ≠ none) (heom : x.origin.eom = false)
      (hok : x.origin.failed = false) :
      Called ext cfg x { x.touch with
        this.contentBody_ :=
          if x.client.done then x.this.contentBody_ else IOBuf.addChunk x.this.contentBody_ chain
        origin.chunks := x.origin.chunks ++ [chain] }
  /-- `originOnEOM` with a response -/
  | originAnswered (headers : HTTPMessage) (body : IOBuf) (hatt : x.origin.attached = true)
      (heom : x.origin.eom = false) (hok : x.origin.failed = false) (hopen : x.client.done = false)
      (hheaders : x.this.contentHeaders_ = some headers) (hbody : x.this.contentBody_ = some body) :
      Called ext cfg x { x.touch with
        client.uses := x.client.uses ++
          [⟨.response .originEOM (originResponse headers body), x.this.clientTerminated_⟩]
        origin.eom := true }
  /-- `originOnEOM` without one -/
  | originUnanswered (hatt : x.origin.attached = true) (heom : x.origin.eom = false)
      (hok : x.origin.failed = false)
      (hno : x.client.done = true ∨ x.this.contentHeaders_ = none ∨ x.this.contentBody_ = none) :
      Called ext cfg x { x.touch with origin.eom := true }
  | originOnError (hatt : x.origin.attached = true) (hok : x.origin.failed = false) :
      Called ext cfg x { x.touch with
        client.uses := x.client.uses ++
          if x.client.done then [] else [⟨.sendAbort, x.this.clientTerminated_⟩]
        origin.failed := true }
  /-- `originOnEgressPaused` and `originOnEgressResumed` -/
  | originFlow (m : Upstream) (hm : m = .pauseIngress ∨ m = .resumeIngress)
      (hatt : x.origin.attached = true) :
      Called ext cfg x { x.touch with
        origin.sent := x.origin.sent ++ if x.client.done then [] else [m] }
  /-- the callbacks that do nothing -/
  | ignored : Called ext cfg x x

/-- `requestComplete`. -/
structure Completed (ext : External) (x y : Exchange) : Prop where
  hreq : x.client.request ≠ none
  hopen : x.client.done = false
  heq : ∃ sh, Stored ext x.id x.this x.shared sh ∧ y = { x.touch with
    this.clientTerminated_ := true
    client.done := true
    shared := sh
    deletes := if x.origin.attached then x.deletes else x.deletes + 1 }

/-- `originDetachTransaction`. -/
structure Detached (x y : Exchange) : Prop where
  hatt : x.origin.attached = true
  heq : y = { x.touch with
    this.originTxn_ := false
    origin.attached := false
    deletes := if x.client.done then x.deletes + 1 else x.deletes }

/-- `onError` when `originTxn_->sendAbort()` delivers the detach before it returns: the handler is
deleted inside, and `checkForShutdown` then runs on it a second time. -/
def Aborted (x y : Exchange) : Prop :=
  y = { x with
    this.clientTerminated_ := true
    this.originTxn_ := false
    client.done := true
    origin.attached := false
    origin.sent := x.origin.sent ++ [.abort]
    deletes := x.deletes + 2
    touched := true }

/-- The event makes `onError` abort an attached origin transaction that detaches at once. -/
def AbortsInside (x : Exchange) (e : Event) : Prop := e = .onError true ∧ x.origin.attached = true

/-- Everything a callback can amount to. -/
inductive Delivered (ext : External) (cfg : Config) (x : Exchange) (e : Event) : Exchange → Prop
  | called {y} (h : Called ext cfg x y) : Delivered ext cfg x e y
  | completed {y} (io : AddIO) (he : e = .requestComplete io) (h : Completed ext x y) :
      Delivered ext cfg x e y
  | detached {y} (h : Detached x y) : Delivered ext cfg x e y
  | completedInside {y z} (h : Called ext cfg x y)
      (hout : y.sites ≠ [] ∨
        (∃ io, e = .originOnError (some io)) ∧ y.origin = { x.origin with failed := true })
      (hc : Completed ext y z) : Delivered ext cfg x e z
  | detachedInside {y z} (h : Called ext cfg x y) (hd : Detached y z) : Delivered ext cfg x e z
  | abortedInside {y} (hin : AbortsInside x e) (hopen : x.client.done = false)
      (hreq : x.client.request ≠ none) (h : Aborted x y) : Delivered ext cfg x e y

/-! ## Every callback is one of them -/

section
variable {ext : External} {cfg : Config} {x y : Exchange} {e : Event}

theorem completed_of {io : AddIO} (hreq : x.client.request ≠ none) (hopen : x.client.done = false)
    (hr : x.this.request_ ≠ none) (htxn : x.this.originTxn_ = x.origin.attached)
    (hesc : (x.deliverRequestComplete ext io).escaped = false) :
    Completed ext x (x.deliverRequestComplete ext io) := by
  obtain ⟨req, hr⟩ := Option.ne_none_iff_exists'.1 hr
  obtain ⟨sh, hst, he⟩ := @requestComplete_eq ext io { x with client.done := true } req hr hesc
  refine ⟨hreq, hopen, sh, hst, ?_⟩
  rw [deliverRequestComplete, he, ← htxn]
  rfl

theorem detached_of (hatt : x.origin.attached = true)
    (hterm : x.this.clientTerminated_ = x.client.done) : Detached x x.deliverDetach := by
  refine ⟨hatt, ?_⟩
  simp [deliverDetach, originDetachTransaction, checkForShutdown_eq, set, touch, hterm]

/-- A call on `downstream_` that may complete the request ends its method. -/
theorem delivered_out {now : Option AddIO} (h : Called ext cfg x y)
    (hout : y.sites ≠ [] ∨ e = .originOnError now ∧ y.origin = { x.origin with failed := true })
    (hreq : y.client.request ≠ none) (hopen : y.client.done = false) (hr : y.this.request_ ≠ none)
    (htxn : y.this.originTxn_ = y.origin.attached)
    (hesc : (y.mayComplete ext now).escaped = false) :
    Delivered ext cfg x e (y.mayComplete ext now) := by
  cases now with
  | none => exact .called h
  | some io =>
    exact .completedInside h (hout.imp_right fun ⟨he, ho⟩ => ⟨⟨io, he⟩, ho⟩)
      (completed_of hreq hopen hr htxn hesc)

theorem sites_of_response {site : Site} {r : Response} {b : Bool} {us : List Use}
    (h : y.client.uses = us ++ [⟨.response site r, b⟩]) : y.sites ≠ [] := by
  simp [sites, responseSite, h]

theorem delivered_onRequest {headers : HTTPMessage} {addrOk : Bool} {now : Option AddIO}
    (hI : Inv ext x) (hadm : x.admissible (.onRequest headers addrOk now) = true)
    (hesc : (x.deliver ext cfg (.onRequest headers addrOk now)).escaped = false) :
    Delivered ext cfg x e (x.deliver ext cfg (.onRequest headers addrOk now)) := by
  have hnew : x.client.request = none := by simpa [admissible] using hadm
  have hopen : x.client.done = false := by rw [(hI.idle hnew).1]
  cases hroute : cachedRouteFor ext x.shared.cache headers with
  | some route =>
    have hd : x.deliver ext cfg (.onRequest headers addrOk now) = mayComplete ext now { x.touch with
        this.request_ := some headers
        client.request := some headers
        client.uses := x.client.uses ++
          [⟨.response .cacheHit (cachedResponse ext cfg route), x.this.clientTerminated_⟩] } := by
      simp only [deliver, onRequest, set, touch, hroute, sendWithEOM, use, Bool.or_assoc,
        Bool.or_self]
    rw [hd] at hesc ⊢
    exact delivered_out (.hit headers route hnew hroute) (.inl (sites_of_response rfl)) (by simp)
      hopen (by simp) hI.txn hesc
  | none =>
    cases addrOk with
    | true =>
      have hd : x.deliver ext cfg (.onRequest headers true now) = { x.touch with
          this.request_ := some (headers.stripPerHopHeaders ext)
          client.request := some headers
          client.uses := x.client.uses ++ [⟨.pauseIngress, x.this.clientTerminated_⟩]
          client.ingressPaused := true
          origin.connecting := true } := by
        simp only [deliver, onRequest, set, touch, hroute, use, Bool.or_assoc, Bool.or_self,
          if_true]
      rw [hd]
      exact .called (.connect headers hnew hroute)
    | false =>
      have hd : x.deliver ext cfg (.onRequest headers false now) = mayComplete ext now { x.touch with
          this.request_ := some (headers.stripPerHopHeaders ext)
          client.request := some headers
          client.uses := x.client.uses ++
            [⟨.response .badAddress badGateway, x.this.clientTerminated_⟩] } := by
        simp only [deliver, onRequest, set, touch, hroute, sendWithEOM, use, Bool.or_assoc,
          Bool.or_self, if_false, Bool.false_eq_true]
      rw [hd] at hesc ⊢
      exact delivered_out (.badAddress headers hnew hroute) (.inl (sites_of_response rfl)) (by simp)
        hopen (by simp) hI.txn hesc

theorem Called.of_eq {z : Exchange} (h : Called ext cfg x y) (he : z = y) : Called ext cfg x z :=
  he ▸ h

theorem delivered_onBody {body : IOBuf} (hI : Inv ext x)
    (hadm : x.admissible (.onBody body) = true) :
    Called ext cfg x (x.deliver ext cfg (.onBody body)) := by
  simp only [admissible, Bool.and_eq_true, Bool.not_eq_true', Option.isSome_iff_ne_none] at hadm
  obtain ⟨⟨⟨hreq, hopen⟩, heom⟩, hpause⟩ := hadm
  apply (Called.onBody body hreq hopen heom hpause).of_eq
  cases hatt : x.origin.attached with
  | false =>
    simp [deliver, onBody, touch, hI.txn, hatt]
    rw [← hatt]
  | true => simp [deliver, onBody, touch, send, hI.txn, hatt]

theorem delivered_onEOM {now : Bool} (hI : Inv ext x) (hadm : x.admissible (.onEOM now) = true) :
    Delivered ext cfg x e (x.deliver ext cfg (.onEOM now)) := by
  simp only [admissible, Bool.and_eq_true, Bool.not_eq_true', Option.isSome_iff_ne_none] at hadm
  obtain ⟨⟨⟨hreq, hopen⟩, heom⟩, hpause⟩ := hadm
  have h : Called ext cfg x _ := .onEOM hreq hopen heom hpause
  cases hatt : x.origin.attached with
  | false =>
    refine .called (h.of_eq ?_)
    simp [deliver, onEOM, touch, hI.txn, hatt]
    rw [← hatt]
  | true =>
    have hd : x.deliver ext cfg (.onEOM now) = mayDetach now { x.touch with
        client.eom := true
        origin.sent := x.origin.sent ++ if x.origin.attached then [.eom] else [] } := by
      simp [deliver, onEOM, originSendEOM, touch, send, hI.txn, hatt]
    rw [hd]
    cases now with
    | false => exact .called h
    | true => exact .detachedInside h (detached_of hatt hI.terminated)

theorem aborted_of (hI : Inv ext x) (hin : AbortsInside x e) : Aborted x (x.deliver ext cfg e) := by
  obtain ⟨rfl, hatt⟩ := hin
  simp [Aborted, deliver, onError, originSendAbort, mayDetach, deliverDetach,
    originDetachTransaction, set, touch, send, checkForShutdown_eq, hI.txn, hatt]

theorem delivered_onError {now : Bool} (hI : Inv ext x) (hadm : x.admissible (.onError now) = true) :
    Delivered ext cfg x (.onError now) (x.deliver ext cfg (.onError now)) := by
  simp only [admissible, Bool.and_eq_true, Bool.not_eq_true', Option.isSome_iff_ne_none] at hadm
  obtain ⟨hreq, hopen⟩ := hadm
  have h : Called ext cfg x _ := .onError hreq hopen
  cases hatt : x.origin.attached with
  | false =>
    refine .called (h.of_eq ?_)
    simp [deliver, onError, set, touch, checkForShutdown_eq, hI.txn, hatt]
    rw [← hatt]
  | true =>
    cases now with
    | false =>
      refine .called (h.of_eq ?_)
      simp [deliver, onError, originSendAbort, mayDetach, set, touch, send, checkForShutdown_eq,
        hI.txn, hatt]
    | true => exact .abortedInside ⟨rfl, hatt⟩ hopen hreq (aborted_of hI ⟨rfl, hatt⟩)

theorem delivered_connectSuccess (hI : Inv ext x)
    (hadm : x.admissible .connectSuccess = true) :
    Called ext cfg x (x.deliver ext cfg .connectSuccess) := by
  simp only [admissible, Bool.and_eq_true, beq_iff_eq] at hadm
  obtain ⟨hconn, hlive⟩ := hadm
  obtain ⟨-, -, -, -, -, hr⟩ := hI.waiting hconn
  cases hc : x.client.request with
  | none => rw [(hI.idle hc).2] at hconn; cases hconn
  | some req =>
    rw [hc] at hr
    apply (Called.connectSuccess _ hconn hlive hr).of_eq
    simp [deliver, connectSuccess, originSetTransaction, set, touch, send, use, hr]

/-- The connector calls back while there is a client: without one the handler would be gone. -/
theorem open_of_connecting (hI : Inv ext x) (hconn : x.origin.connecting = true)
    (hlive : x.deletes = 0) : x.client.done = false := by
  by_contra hd
  exact hI.freed.2 ⟨by simpa using hd, (hI.unsent (hI.waiting hconn).1).1⟩ hlive

theorem deliver_connectError (now : Option AddIO) (hI : Inv ext x) (hopen : x.client.done = false) :
    x.deliver ext cfg (.connectError now) = mayComplete ext now { x.touch with
      client.uses := x.client.uses ++
        [⟨.response .connectError badGateway, x.this.clientTerminated_⟩]
      origin.connecting := false } := by
  simp [deliver, connectError, sendWithEOM, touch, use, hI.terminated, hopen]

theorem delivered_connectError {now : Option AddIO} (hI : Inv ext x)
    (hadm : x.admissible (.connectError now) = true)
    (hesc : (x.deliver ext cfg (.connectError now)).escaped = false) :
    Delivered ext cfg x e (x.deliver ext cfg (.connectError now)) := by
  simp only [admissible, Bool.and_eq_true, beq_iff_eq] at hadm
  obtain ⟨hconn, hlive⟩ := hadm
  have hopen := open_of_connecting hI hconn hlive
  have hreq := hI.requested_of_connecting hconn
  rw [deliver_connectError now hI hopen] at hesc ⊢
  exact delivered_out (.connectError hconn hlive hopen) (.inl (sites_of_response rfl)) hreq hopen
    (hI.request_ne_none hreq) hI.txn hesc

theorem delivered_originOnHeadersComplete {msg : HTTPMessage} (hI : Inv ext x)
    (hadm : x.admissible (.originOnHeadersComplete msg) = true) :
    Called ext cfg x (x.deliver ext cfg (.originOnHeadersComplete msg)) := by
  simp only [admissible, Bool.and_eq_true, Bool.not_eq_true', Option.isNone_iff_eq_none] at hadm
  obtain ⟨⟨⟨hatt, hnone⟩, heom⟩, hok⟩ := hadm
  apply (Called.originOnHeadersComplete msg hatt hnone heom hok).of_eq
  cases hopen : x.client.done with
  | false => simp [deliver, originOnHeadersComplete, touch, set, hI.terminated, hopen]
  | true =>
    simp [deliver, originOnHeadersComplete, touch, hI.terminated, hopen]
    rw [← hopen, ← hI.terminated]

theorem delivered_originOnBody {chain : IOBuf} (hI : Inv ext x)
    (hadm : x.admissible (.originOnBody chain) = true) :
    Called ext cfg x (x.deliver ext cfg (.originOnBody chain)) := by
  simp only [admissible, Bool.and_eq_true, Bool.not_eq_true', Option.isSome_iff_ne_none] at hadm
  obtain ⟨⟨⟨hatt, hheaders⟩, heom⟩, hok⟩ := hadm
  apply (Called.originOnBody chain hatt hheaders heom hok).of_eq
  cases hopen : x.client.done with
  | false => simp [deliver, originOnBody, touch, set, hI.terminated, hopen]
  | true =>
    simp [deliver, originOnBody, touch, hI.terminated, hopen]
    rw [← hopen, ← hI.terminated]

theorem delivered_originOnEOM {now : Option AddIO} (hI : Inv ext x)
    (hadm : x.admissible (.originOnEOM now) = true)
    (hesc : (x.deliver ext cfg (.originOnEOM now)).escaped = false) :
    Delivered ext cfg x e (x.deliver ext cfg (.originOnEOM now)) := by
  simp only [admissible, Bool.and_eq_true, Bool.not_eq_true'] at hadm
  obtain ⟨⟨hatt, heom⟩, hok⟩ := hadm
  cases hh : x.this.contentHeaders_ with
  | none =>
    refine .called ((Called.originUnanswered hatt heom hok (.inr (.inl hh))).of_eq ?_)
    simp [deliver, originOnEOM, touch, hh]
  | some headers =>
    cases hb : x.this.contentBody_ with
    | none =>
      refine .called ((Called.originUnanswered hatt heom hok (.inr (.inr hb))).of_eq ?_)
      simp [deliver, originOnEOM, touch, hh, hb]
    | some body =>
      cases hopen : x.client.done with
      | true =>
        refine .called ((Called.originUnanswered hatt heom hok (.inl hopen)).of_eq ?_)
        simp [deliver, originOnEOM, touch, hh, hb, hI.terminated, hopen]
      | false =>
        have hd : x.deliver ext cfg (.originOnEOM now) = mayComplete ext now { x.touch with
            client.uses := x.client.uses ++
              [⟨.response .originEOM (originResponse headers body), x.this.clientTerminated_⟩]
            origin.eom := true } := by
          simp [deliver, originOnEOM, sendWithEOM, touch, use, hh, hb, hI.terminated, hopen]
        rw [hd] at hesc ⊢
        exact delivered_out (.originAnswered headers body hatt heom hok hopen hh hb)
          (.inl (sites_of_response rfl)) (hI.requested_of_attached hatt) hopen
          (hI.request_of_attached hatt) hI.txn hesc

theorem deliver_originOnError {now : Option AddIO} (hI : Inv ext x) (hopen : x.client.done = false) :
    x.deliver ext cfg (.originOnError now) = mayComplete ext now { x.touch with
      client.uses := x.client.uses ++
        if x.client.done then [] else [⟨.sendAbort, x.this.clientTerminated_⟩]
      origin.failed := true } := by
  simp [deliver, originOnError, abortDownstream, sendAbort, use, touch, hI.terminated, hopen]

theorem delivered_originOnError {now : Option AddIO} (hI : Inv ext x)
    (hadm : x.admissible (.originOnError now) = true)
    (hesc : (x.deliver ext cfg (.originOnError now)).escaped = false) :
    Delivered ext cfg x (.originOnError now) (x.deliver ext cfg (.originOnError now)) := by
  simp only [admissible, Bool.and_eq_true, Bool.not_eq_true'] at hadm
  obtain ⟨hatt, hok⟩ := hadm
  have h : Called ext cfg x _ := .originOnError hatt hok
  cases hopen : x.client.done with
  | true =>
    refine .called (h.of_eq ?_)
    simp [deliver, originOnError, abortDownstream, touch, hI.terminated, hopen]
    rw [← hopen]
  | false =>
    rw [deliver_originOnError hI hopen] at hesc ⊢
    exact delivered_out h (.inr ⟨rfl, rfl⟩) (hI.requested_of_attached hatt) hopen
      (hI.request_of_attached hatt) hI.txn hesc

theorem delivered_originFlow {m : Upstream} (hm : m = .pauseIngress ∨ m = .resumeIngress)
    (hI : Inv ext x) (hatt : x.origin.attached = true) :
    Called ext cfg x
      (if !x.touch.this.clientTerminated_ && x.touch.this.originTxn_ then x.touch.send m
       else x.touch) := by
  apply (Called.originFlow m hm hatt).of_eq
  cases hopen : x.client.done with
  | true =>
    simp [touch, hI.terminated, hopen]
  | false => simp [touch, send, hI.terminated, hI.txn, hatt, hopen]

/-- **Inversion.** An admissible callback from which no exception escapes is one of the effects. -/
theorem deliver_cases (hI : Inv ext x) (hadm : x.admissible e = true)
    (hesc : (x.deliver ext cfg e).escaped = false) :
    Delivered ext cfg x e (x.deliver ext cfg e) := by
  cases e with
  | onRequest headers addrOk now => exact delivered_onRequest hI hadm hesc
  | onBody body => exact .called (delivered_onBody hI hadm)
  | onUpgrade => exact .called .ignored
  | onEOM now => exact delivered_onEOM hI hadm
  | requestComplete io =>
    simp only [admissible, Bool.and_eq_true, Bool.not_eq_true', Option.isSome_iff_ne_none] at hadm
    exact .completed io rfl (completed_of hadm.1 hadm.2 (hI.request_ne_none hadm.1) hI.txn hesc)
  | onError now => exact delivered_onError hI hadm
  | connectSuccess => exact .called (delivered_connectSuccess hI hadm)
  | connectError now => exact delivered_connectError hI hadm hesc
  | originDetachTransaction => exact .detached (detached_of hadm hI.terminated)
  | originOnHeadersComplete msg => exact .called (delivered_originOnHeadersComplete hI hadm)
  | originOnBody chain => exact .called (delivered_originOnBody hI hadm)
  | originOnEOM now => exact delivered_originOnEOM hI hadm hesc
  | originOnError now => exact delivered_originOnError hI hadm hesc
  | originOnEgressPaused => exact .called (delivered_originFlow (.inl rfl) hI hadm)
  | originOnEgressResumed => exact .called (delivered_originFlow (.inr rfl) hI hadm)
  | originIgnored => exact .called .ignored

end

end Exchange

end GladiusMasternode
