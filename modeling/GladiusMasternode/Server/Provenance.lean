import GladiusMasternode.Cache.Origins
import GladiusMasternode.Router.Redirect
import GladiusMasternode.Server.Step
/-
# Who gets to the origin

`Router` looks at a request once, when it creates the handler. That this one look is enough is a
property of whole runs: the proxy handlers are called for the requests it let through and for no
others, so what is sent to the origin, what is sent of its answers and what is cached all comes from
requests that are `Allowed`.
-/

namespace GladiusMasternode

theorem HTTPMessage.ensureHostHeader_method (lib : UrlLib) (m : HTTPMessage) :
    (m.ensureHostHeader lib).method = m.method := by
  unfold ensureHostHeader
  split <;> rfl

/-- The field that is added is not the one that asks for the masternode itself. -/
theorem HTTPMessage.any_ensureHostHeader (lib : UrlLib) (m : HTTPMessage) :
    ((m.ensureHostHeader lib).headers.any fun h => sameName h.1 Router.DIRECT_HEADER_NAME) =
      m.headers.any fun h => sameName h.1 Router.DIRECT_HEADER_NAME := by
  unfold ensureHostHeader
  split
  · have hhost : sameName "Host" Router.DIRECT_HEADER_NAME = false := by decide
    simp [hhost]
  · rfl

namespace Server

variable {R : Type} {env : Env R}

/-- A request for the protected domain, secure where that is asked for, and neither for the
masternode itself nor for the service worker's file. -/
structure Allowed (env : Env R) (q : Incoming) : Prop where
  host : Router.requestIsValid env.config
    ((q.m.ensureHostHeader env.url).headers.getSingleOrEmpty "Host") = true
  secure : env.config.upgrade_insecure = true → q.secure = true
  proxied : (q.m.headers.any fun h => sameName h.1 Router.DIRECT_HEADER_NAME) = false
  file : env.config.enableServiceWorker = true → q.m.url ≠ "/gladius-service-worker.js"

theorem route_proxy_iff {q : Incoming} : route env q = .proxy ↔ Allowed env q := by
  unfold route Router.onRequest
  dsimp only
  rw [HTTPMessage.any_ensureHostHeader, HTTPMessage.ensureHostHeader_url]
  constructor
  · intro h
    split at h
    · cases h
    · rename_i hhost
      split at h
      · cases h
      · rename_i hsecure
        split at h
        · cases h
        · rename_i hdirect
          split at h
          · cases h
          · rename_i hfile
            refine ⟨by simpa using hhost, fun hup => ?_, by simpa using hdirect, fun hsw hurl => ?_⟩
            · simpa [hup] using hsecure
            · simp [hsw, hurl] at hfile
  · rintro ⟨hhost, hsecure, hdirect, hfile⟩
    have hup : (env.config.upgrade_insecure && !q.secure) = false := by
      cases hon : env.config.upgrade_insecure with
      | false => rfl
      | true => simp [hsecure hon]
    simpa [hhost, hup, hdirect] using hfile

variable {s : Server R}

/-- A handler that has its request is the proxy handler of an allowed one. -/
theorem Sound.allowed (hs : Sound env s) {i : Nat}
    (hreq : (s.system.handlers i).client.request ≠ none) :
    ∃ q, s.slots i = some (.proxy q) ∧ Allowed env q ∧
      (s.system.handlers i).client.request = some (q.m.ensureHostHeader env.url) := by
  by_cases hq : ∃ q, s.slots i = some (.proxy q)
  · obtain ⟨q, hq⟩ := hq
    obtain ⟨hroute, hsome⟩ := hs.proxied i q hq
    exact ⟨q, hq, route_proxy_iff.1 hroute, hsome⟩
  · refine absurd (hs.unused i fun q h => hq ⟨q, h⟩) hreq

variable [Field R]

/-- **Only allowed requests.** In every reachable state of a masternode: a handler that has connected
to the origin, or sent or received anything there, or used its client transaction, is the proxy
handler of an allowed request; and a cached route was put in by the handler of an allowed GET for its
url, with the headers the origin sent to that handler and, as content, the first chunks of the body
it sent. -/
theorem only_allowed (h : Reachable env s) :
    (∀ i, (s.system.handlers i).origin ≠ {} ∨ (s.system.handlers i).client ≠ {} →
      ∃ q, s.slots i = some (.proxy q) ∧ Allowed env q) ∧
    (∀ url route, s.system.shared.cache.getCachedRoute url = some route →
      ∃ i q, s.slots i = some (.proxy q) ∧ Allowed env q ∧ q.m.method = .get ∧
        env.ext.getUrl q.m.url = url ∧
        System.FromOrigin (s.system.handlers i) route.headers_ route.content_.bytes) := by
  have hs := sound_reachable h
  constructor
  · intro i hused
    obtain ⟨q, hslot, hallowed, -⟩ := hs.allowed (i := i) (by
      intro hnone
      obtain ⟨hc, ho⟩ := (System.handlersInv_reachable h.system i).1.idle hnone
      exact hused.elim (fun hne => hne ho) (fun hne => hne hc))
    exact ⟨q, hslot, hallowed⟩
  · intro url route hroute
    obtain ⟨i, req, hreq, hget, hurl, hfrom⟩ := System.cached_from_origin h.system hroute
    obtain ⟨q, hslot, hallowed, hreq'⟩ := hs.allowed (i := i) (by rw [hreq]; simp)
    obtain rfl : req = q.m.ensureHostHeader env.url := Option.some.inj (hreq.symm.trans hreq')
    rw [HTTPMessage.ensureHostHeader_method] at hget
    rw [HTTPMessage.ensureHostHeader_url] at hurl
    exact ⟨i, q, hslot, hallowed, hget, hurl, hfrom⟩

theorem only_allowed_visits : ∃ s route, Scenario.serve Scenario.visits = some s ∧
    s.system.shared.cache.getCachedRoute "/a" = some route ∧
    (∃ i q, s.slots i = some (.proxy q) ∧ Allowed Scenario.env q ∧ q.m.method = .get ∧
      Scenario.env.ext.getUrl q.m.url = "/a" ∧
      System.FromOrigin (s.system.handlers i) route.headers_ route.content_.bytes) := by
  obtain ⟨s, hs, hd⟩ := Option.map_eq_some_iff.1 (show (Scenario.serve Scenario.visits).map
    (fun s => (s.system.shared.cache.getCachedRoute "/a").isSome) = some true by decide +kernel)
  obtain ⟨route, hroute⟩ := Option.isSome_iff_exists.1 hd
  exact ⟨s, route, hs, hroute, (only_allowed ⟨_, _, _, _, hs⟩).2 "/a" route hroute⟩

end Server

end GladiusMasternode
