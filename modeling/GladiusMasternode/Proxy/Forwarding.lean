import GladiusMasternode.Proxy.Invariant
/-
# Forwarding the request to the origin

`onBody` and `onEOM` drop what they get while `originTxn_` is null. Nothing is lost all the same:
from `pauseIngress` in `onRequest` to `resumeIngress` in `connectSuccess` the client delivers nothing,
and the transaction is attached in between.

| here | there |
| --- | --- |
| `forwardedRequest` | what `sendHeaders` should get (`ProxyHandler.cpp:76`, `:160`) |
| `messages`         | what the client's callbacks have delivered so far, as messages to the origin |
| `forwarded`        | the calls on `originTxn_` that carry the request; aborts and flow control do not |
-/

namespace GladiusMasternode

def Upstream.isMessage : Upstream → Bool
  | .headers _ | .body _ | .eom => true
  | .abort | .pauseIngress | .resumeIngress => false

/-- The client's message without per-hop fields and `Accept-Encoding`. -/
def forwardedRequest (ext : External) (m : HTTPMessage) : HTTPMessage :=
  { m with headers := m.headers.filter fun h =>
      !ext.perHop m.headers h.1 && !sameName h.1 "Accept-Encoding" }

theorem forwardedRequest_eq (ext : External) (m : HTTPMessage) :
    (m.stripPerHopHeaders ext).removeHeader "Accept-Encoding" = forwardedRequest ext m := by
  simp only [HTTPMessage.stripPerHopHeaders, HTTPMessage.removeHeader, HTTPHeaders.remove,
    forwardedRequest, List.filter_filter, Bool.and_comm]

def Client.messages (ext : External) (c : Client) : List Upstream :=
  match c.request with
  | none => []
  | some headers =>
    .headers (forwardedRequest ext headers) :: c.chunks.map .body ++ if c.eom then [.eom] else []

namespace Exchange

section
variable {ext : External} {cfg : Config} {x y : Exchange} {e : Event}

def forwarded (x : Exchange) : List Upstream := x.origin.sent.filter Upstream.isMessage

theorem messages_chunk {c : Client} (hreq : c.request ≠ none) (heom : c.eom = false) (b : IOBuf) :
    Client.messages ext { c with chunks := c.chunks ++ [b] } = c.messages ext ++ [.body b] := by
  obtain ⟨headers, hr⟩ := Option.ne_none_iff_exists'.1 hreq
  simp [Client.messages, hr, heom]

theorem messages_eom {c : Client} (hreq : c.request ≠ none) (heom : c.eom = false) :
    Client.messages ext { c with eom := true } = c.messages ext ++ [.eom] := by
  obtain ⟨headers, hr⟩ := Option.ne_none_iff_exists'.1 hreq
  simp [Client.messages, hr, heom]

theorem forwarded_append {ms : List Upstream} (h : y.origin.sent = x.origin.sent ++ ms) :
    y.forwarded = x.forwarded ++ ms.filter Upstream.isMessage := by
  simp [forwarded, h]

/-- The request is forwarded in order, and without loss while the origin is attached. -/
structure Forwards (ext : External) (x : Exchange) : Prop where
  inOrder : x.forwarded <+: x.client.messages ext
  complete : x.origin.attached = true → x.forwarded = x.client.messages ext
  aborts : x.origin.sent.count .abort ≤ if x.client.done then 1 else 0

theorem forwards_init (ext : External) (i : Nat) : Forwards ext { id := i } :=
  ⟨List.prefix_refl _, fun h => (by cases h), by simp⟩

/-- The client has delivered one more message, and it was sent on if there is an origin. -/
theorem forwards_message {m : Upstream} {c : Client} (hF : Forwards ext x)
    (hm : m.isMessage = true) (hc : c.messages ext = x.client.messages ext ++ [m])
    (hd : c.done = x.client.done) :
    Forwards ext { x.touch with
      client := c
      origin.sent := x.origin.sent ++ if x.origin.attached then [m] else [] } := by
  cases hatt : x.origin.attached with
  | true =>
    have hfwd : x.forwarded ++ [m].filter Upstream.isMessage = c.messages ext := by
      rw [hF.complete hatt, hc]
      simp [hm]
    refine ⟨⟨[], ?_⟩, fun _ => ?_, ?_⟩
    · rw [List.append_nil, @forwarded_append x _ [m] rfl, hfwd]
    · rw [@forwarded_append x _ [m] rfl, hfwd]
    · have hna : m ≠ .abort := by
        rintro rfl
        cases hm
      have ha := hF.aborts
      simp only [if_true, hd, List.count_append, List.count_singleton, beq_iff_eq, hna, if_false,
        Nat.add_zero]
      exact ha
  | false =>
    refine ⟨?_, fun h => ?_, ?_⟩
    · rw [@forwarded_append x _ [] rfl, List.filter_nil, List.append_nil, hc]
      exact hF.inOrder.trans (List.prefix_append _ _)
    · rw [show x.origin.attached = true from h] at hatt
      cases hatt
    · simpa [hd] using hF.aborts

/-- An abort is no message of the request, and the client's end allows one. -/
theorem forwards_abort {ms : List Upstream} (hF : Forwards ext x) (hopen : x.client.done = false)
    (hms : ms = [.abort] ∨ ms = []) (hsent : y.origin.sent = x.origin.sent ++ ms)
    (hc : y.client = { x.client with done := true })
    (hatt : y.origin.attached = true → x.origin.attached = true) : Forwards ext y := by
  have hfwd : y.forwarded = x.forwarded := by
    rw [forwarded_append hsent]
    rcases hms with rfl | rfl <;> simp [Upstream.isMessage]
  have hm : y.client.messages ext = x.client.messages ext := by rw [hc]; rfl
  refine ⟨by rw [hfwd, hm]; exact hF.inOrder, fun h => by rw [hfwd, hm]; exact hF.complete (hatt h), ?_⟩
  have ha := hF.aborts
  rw [hopen] at ha
  rw [hsent, hc, List.count_append]
  rcases hms with rfl | rfl <;> simp at ha ⊢ <;> omega

theorem forwards_unsent (hsent : x.origin.sent = []) (hatt : x.origin.attached = false) :
    Forwards ext x := by
  have hfwd : x.forwarded = [] := by rw [forwarded, hsent]; rfl
  refine ⟨by rw [hfwd]; exact List.nil_prefix, fun h => ?_, by simp [hsent]⟩
  rw [hatt] at h
  cases h

/-- Before its request a handler has no origin. -/
theorem forwards_of_new (hI : Inv ext x) (hnew : x.client.request = none)
    (hsent : y.origin.sent = x.origin.sent) (hatt : y.origin.attached = x.origin.attached) :
    Forwards ext y := by
  obtain ⟨-, ho⟩ := hI.idle hnew
  rw [ho] at hsent hatt
  exact forwards_unsent hsent hatt

theorem forwards_called (hI : Inv ext x) (hF : Forwards ext x) (h : Called ext cfg x y) :
    Forwards ext y := by
  cases h with
  | hit headers route hnew hroute => exact forwards_of_new hI hnew rfl rfl
  | badAddress headers hnew hroute => exact forwards_of_new hI hnew rfl rfl
  | connect headers hnew hroute => exact forwards_of_new hI hnew rfl rfl
  | onBody body hreq hopen heom hpause =>
    exact forwards_message hF rfl (messages_chunk hreq heom body) rfl
  | onEOM hreq hopen heom hpause => exact forwards_message hF rfl (messages_eom hreq heom) rfl
  | onError hreq hopen =>
    refine forwards_abort hF hopen ?_ rfl rfl fun h => h
    cases x.origin.attached
    · exact .inr rfl
    · exact .inl rfl
  | connectSuccess req hconn hlive hreq =>
    -- connected while ingress was paused: the head is all the client has delivered
    obtain ⟨hns, hchunks, heom, -, -, hr⟩ := hI.waiting hconn
    obtain ⟨headers, hc⟩ := Option.ne_none_iff_exists'.1 (hI.requested_of_connecting hconn)
    rw [hreq, hc, Option.map_some, Option.some.injEq] at hr
    have hm : x.client.messages ext = [.headers (req.removeHeader "Accept-Encoding")] := by
      simp [Client.messages, hc, hchunks, heom, hr, forwardedRequest_eq]
    have hfwd : [Upstream.headers (req.removeHeader "Accept-Encoding")].filter Upstream.isMessage =
        x.client.messages ext := by rw [hm]; rfl
    refine ⟨?_, fun _ => ?_, ?_⟩
    · simp only [forwarded, hns, List.nil_append]
      rw [hfwd]
      exact List.prefix_refl _
    · simp only [forwarded, hns, List.nil_append]
      exact hfwd
    · simp [hns]
  | connectError hconn hlive hopen => exact { hF with }
  | originOnHeadersComplete msg hatt hnone heom hok => exact { hF with }
  | originOnBody chain hatt hheaders heom hok => exact { hF with }
  | originAnswered headers body hatt heom hok hopen hheaders hbody => exact { hF with }
  | originUnanswered hatt heom hok hno => exact { hF with }
  | originOnError hatt hok => exact { hF with }
  | originFlow m hm hatt =>
    have hfwd : (if x.client.done then [] else [m]).filter Upstream.isMessage = [] := by
      rcases hm with rfl | rfl <;> cases x.client.done <;> rfl
    have hab : (if x.client.done then [] else [m]).count .abort = 0 := by
      rcases hm with rfl | rfl <;> cases x.client.done <;> rfl
    refine ⟨?_, fun h => ?_, ?_⟩
    · rw [@forwarded_append x _ _ rfl, hfwd, List.append_nil]
      exact hF.inOrder
    · rw [@forwarded_append x _ _ rfl, hfwd, List.append_nil]
      exact hF.complete h
    · dsimp only
      rw [List.count_append, hab]
      exact hF.aborts
  | ignored => exact hF

theorem forwards_completed (hF : Forwards ext x) (h : Completed ext x y) : Forwards ext y := by
  obtain ⟨hreq, hopen, sh, -, rfl⟩ := h
  exact forwards_abort hF hopen (.inr rfl) (List.append_nil _).symm rfl fun h => h

theorem forwards_detached (hF : Forwards ext x) (h : Detached x y) : Forwards ext y := by
  obtain ⟨hatt, rfl⟩ := h
  exact { hF with complete := fun h => by cases h }

theorem forwards_delivered (hI : Inv ext x) (hF : Forwards ext x) (h : Delivered ext cfg x e y) :
    Forwards ext y := by
  refine h.rule hI hF ?_ ?_ ?_ ?_
  · intro y h
    exact forwards_called hI hF h
  · intro y z _ hy h
    exact forwards_completed hy h
  · intro y z _ hy h
    exact forwards_detached hy h
  · intro y _ hopen _ h
    rw [Aborted] at h
    subst h
    exact forwards_abort hF hopen (.inl rfl) rfl rfl fun h => by cases h

/-- A handler that answers without the origin has sent it nothing. -/
theorem Inv.sent_eq_nil (hI : Inv ext x) {site : Site} (hsite : site ∈ x.sites)
    (hne : site ≠ .originEOM) : x.origin.sent = [] := by
  rcases hI.answered with hs | ⟨-, ⟨site', -, -, hns⟩ | ⟨hs, -⟩⟩
  · rw [hs] at hsite; cases hsite
  · exact hns
  · rw [hs] at hsite
    exact absurd (List.mem_singleton.1 hsite) hne

end

end Exchange

namespace System

section
variable {ext : External} {cfg : Config} {s : System}

/-- **Faithful forwarding.** In every reachable state the origin has got a prefix of the request the
client has delivered so far, all of it while the origin transaction is attached, and at most one
abort; and a request answered from the cache or with a 503 sends nothing. -/
theorem forwarding (h : Reachable ext cfg s) (i : Nat) :
    let x := s.handlers i
    x.forwarded <+: x.client.messages ext ∧
    (x.origin.attached = true → x.forwarded = x.client.messages ext) ∧
    x.origin.sent.count .abort ≤ 1 ∧
    (∀ site ∈ x.sites, site ≠ .originEOM → x.origin.sent = []) := by
  have hI := (handlersInv_reachable h i).1
  have hF : Exchange.Forwards ext (s.handlers i) :=
    handler_inv (fun _ _ hF => { hF with }) (Exchange.forwards_init ext)
      (fun _ _ _ hI hF hd => Exchange.forwards_delivered hI hF hd) h i
  refine ⟨hF.inOrder, hF.complete, Nat.le_trans hF.aborts ?_, fun site hs => hI.sent_eq_nil hs⟩
  split <;> omega

/-- A POST in two chunks with per-hop fields; the client fails after its EOM. -/
theorem forwarding_upload : ∃ s, Scenario.run (Scenario.upload 0 ++ [(0, .onError false)]) = some s ∧
    let x := s.handlers 0
    x.origin.attached = true ∧
    x.origin.sent = [.headers { Scenario.post with headers :=
        [("Host", "a.org"), ("Content-Type", "text/plain")] },
      .body ⟨[104], []⟩, .pauseIngress, .body ⟨[105], []⟩, .eom, .abort] ∧
    x.forwarded <+: x.client.messages Scenario.ext ∧
    (x.origin.attached = true → x.forwarded = x.client.messages Scenario.ext) ∧
    x.origin.sent.count .abort ≤ 1 ∧
    (∀ site ∈ x.sites, site ≠ .originEOM → x.origin.sent = []) := by
  obtain ⟨s, hs, hsent⟩ := Option.map_eq_some_iff.1
    (show (Scenario.run (Scenario.upload 0 ++ [(0, .onError false)])).map
      (fun s => ((s.handlers 0).origin.attached, (s.handlers 0).origin.sent)) = some (true,
        [.headers { Scenario.post with headers :=
            [("Host", "a.org"), ("Content-Type", "text/plain")] },
          .body ⟨[104], []⟩, .pauseIngress, .body ⟨[105], []⟩, .eom, .abort]) by decide)
  obtain ⟨hattached, hsent⟩ := Prod.mk.inj hsent
  exact ⟨s, hs, hattached, hsent, forwarding ⟨_, _, _, hs⟩ 0⟩

end

end System

end GladiusMasternode
