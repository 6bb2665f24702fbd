import GladiusMasternode.Cache.Inserts
import GladiusMasternode.Model.DirectHandler
/-
# Cached routes and the asset table

A route that is in the cache stays as it is, is the one whose insert succeeded, keeps every later GET
for its url away from the origin, and is advertised under the hash of its content: by
`getAssetHashMap`, and by the direct handler, which copies that table key by key.
-/

namespace GladiusMasternode

namespace Exchange

section
variable {ext : External} {cfg : Config} {x y : Exchange} {e : Event}

/-! ## Requests that stay away from the origin -/

/-- The handler neither connects to the origin nor has sent it anything. -/
def Local (x : Exchange) : Prop := x.origin.connecting = false ∧ x.origin.sent = []

theorem Local.not_attached (hI : Inv ext x) (hl : Local x) : ¬ x.origin.attached = true := by
  intro hatt
  exact hI.sent_ne_nil hatt hl.2

/-- Once a handler has its request, only `onRequest` could have taken it to the origin. -/
theorem local_called (hI : Inv ext x) (hl : Local x) (hreq : x.client.request ≠ none)
    (h : Called ext cfg x y) : Local y := by
  have hatt := hl.not_attached hI
  cases h with
  | hit headers route hnew hroute => exact absurd hnew hreq
  | badAddress headers hnew hroute => exact absurd hnew hreq
  | connect headers hnew hroute => exact absurd hnew hreq
  | onBody body hr hopen heom hpause => exact ⟨hl.1, by simp [hatt, hl.2]⟩
  | onEOM hr hopen heom hpause => exact ⟨hl.1, by simp [hatt, hl.2]⟩
  | onError hr hopen => exact ⟨hl.1, by simp [hatt, hl.2]⟩
  | connectSuccess req hconn hlive hr => rw [hl.1] at hconn; cases hconn
  | connectError hconn hlive hopen => rw [hl.1] at hconn; cases hconn
  | originOnHeadersComplete msg h hnone heom hok => exact absurd h hatt
  | originOnBody chain h hheaders heom hok => exact absurd h hatt
  | originAnswered headers body h heom hok hopen hheaders hbody => exact absurd h hatt
  | originUnanswered h heom hok hno => exact absurd h hatt
  | originOnError h hok => exact absurd h hatt
  | originFlow m hm h => exact absurd h hatt
  | ignored => exact hl

/-- `onRequest` of a GET whose url is cached does not go to the origin. -/
theorem local_of_new (hI : Inv ext x) (hnew : x.client.request = none) {req : HTTPMessage}
    (hreq : y.client.request = some req) (hget : req.method = .get)
    (hcached : x.shared.cache.getCachedRoute (ext.getUrl req.url) ≠ none)
    (h : Called ext cfg x y) : Local y := by
  obtain ⟨-, ho⟩ := hI.idle hnew
  have hl : Local x := by rw [Local, ho]; exact ⟨rfl, rfl⟩
  have hatt := hl.not_attached hI
  cases h with
  | hit headers route _ hroute => exact hl
  | badAddress headers _ hroute => exact hl
  | connect headers _ hroute =>
    obtain rfl : headers = req := Option.some.inj hreq
    rw [cachedRouteFor, if_pos hget] at hroute
    exact absurd hroute hcached
  | onBody body hr hopen heom hpause => exact absurd hnew hr
  | onEOM hr hopen heom hpause => exact absurd hnew hr
  | onError hr hopen => exact absurd hnew hr
  | connectSuccess r hconn hlive hr => exact absurd hnew (hI.requested_of_connecting hconn)
  | connectError hconn hlive hopen => exact absurd hnew (hI.requested_of_connecting hconn)
  | originOnHeadersComplete msg h hnone heom hok => exact absurd h hatt
  | originOnBody chain h hheaders heom hok => exact absurd h hatt
  | originAnswered headers body h heom hok hopen hheaders hbody => exact absurd h hatt
  | originUnanswered h heom hok hno => exact absurd h hatt
  | originOnError h hok => exact absurd h hatt
  | originFlow m hm h => exact absurd h hatt
  | ignored => exact hl

/-- A GET for this url stays away from the origin. -/
def StaysLocal (ext : External) (url : String) (x : Exchange) : Prop :=
  ∀ req, x.client.request = some req → req.method = .get → ext.getUrl req.url = url → Local x

theorem staysLocal_called {url : String} (hI : Inv ext x)
    (hcached : x.shared.cache.getCachedRoute url ≠ none) (hs : StaysLocal ext url x)
    (h : Called ext cfg x y) : StaysLocal ext url y := by
  intro req hreq hget hurl
  by_cases hnew : x.client.request = none
  · exact local_of_new hI hnew hreq hget (by rw [hurl]; exact hcached) h
  · rw [(progress_called hI h).request hnew] at hreq
    exact local_called hI (hs req hreq hget hurl) hnew h

theorem staysLocal_delivered {url : String} (hI : Inv ext x)
    (hcached : x.shared.cache.getCachedRoute url ≠ none) (hs : StaysLocal ext url x)
    (h : Delivered ext cfg x e y) : StaysLocal ext url y := by
  refine h.rule hI hs ?_ ?_ ?_ ?_
  · intro y h
    exact staysLocal_called hI hcached hs h
  · rintro y z - hy ⟨-, -, sh, -, rfl⟩
    exact hy
  · rintro y z - hy ⟨-, rfl⟩
    exact hy
  · intro y hin _ _ h
    rw [Aborted] at h
    subst h
    intro req hr hget hurl
    exact absurd hin.2 ((hs req hr hget hurl).not_attached hI)

end

end Exchange

namespace System

section
variable {ext : External} {cfg : Config} {s s' t : System} {e : Nat × Event}

/-- While a url is cached, the GETs for it that arrive stay local. -/
theorem staysLocal_run {es : List (Nat × Event)} (h : Reachable ext cfg s)
    (hrun : Run.run (step ext cfg) s es = some t) {url : String} {route : CachedRoute}
    (hroute : s.shared.cache.getCachedRoute url = some route) {j : Nat}
    (hnew : (s.handlers j).client.request = none) :
    Exchange.StaysLocal ext url (t.handlers j) := by
  let P : System → Prop := fun t => HandlersInv ext t ∧
    t.shared.cache.getCachedRoute url = some route ∧ Exchange.StaysLocal ext url (t.handlers j)
  have hstep : ∀ t e t', P t → step ext cfg t e = some t' → P t' := by
    rintro t e t' ⟨hs, hr, hl⟩ he
    refine ⟨handlersInv_step hs he, lookup_step hs he _ _ hr, ?_⟩
    obtain ⟨y, hd, rfl⟩ := step_cases hs he
    by_cases hj : j = e.1
    · subst hj
      simp only [if_true]
      refine Exchange.staysLocal_delivered (inv_exchange hs e.1) ?_ hl hd
      rw [show (t.exchange e.1).shared = t.shared from rfl, hr]
      simp
    · simp only [if_neg hj]
      exact hl
  have hinit : P s := ⟨handlersInv_reachable h, hroute, fun req hreq => by rw [hnew] at hreq; cases hreq⟩
  exact (Run.run_inv hstep es hinit hrun).2.2

/-! ## The asset table -/

/-- A cached route is what the one successful insert for its url has put in. -/
theorem Recorded.inserted (hr : Recorded ext s) {url : String} {route : CachedRoute}
    (h : s.shared.cache.getCachedRoute url = some route) :
    ∃ call ∈ s.shared.adds, call.url = url ∧
      route = CachedRoute.new ext call.url call.chain call.headers := by
  have hw := hr.winners_eq url
  rw [show s.shared.cache.map_.lookup url = some route from h] at hw
  have hmem : route ∈ WriteOnce.winners (s.shared.adds.map (AddCall.toCall ext)) url := by
    rw [hw]
    simp
  obtain ⟨c, hc, rfl⟩ := List.mem_map.1 hmem
  obtain ⟨hc, hkey⟩ := List.mem_filter.1 hc
  obtain ⟨call, hcall, rfl⟩ := List.mem_map.1 hc
  exact ⟨call, hcall, (of_decide_eq_true hkey).1, rfl⟩

/-- Exactly the cached urls, each once, with the hash of the stored content. -/
def ExactAssets (ext : External) (cache : ContentCache) (table : List (String × String)) : Prop :=
  (table.map Prod.fst).Nodup ∧ ∀ url hash, (url, hash) ∈ table ↔
    ∃ route, cache.getCachedRoute url = some route ∧
      hash = hexlify (ext.sha256 route.content_.bytes)

theorem exactAssets_getAssetHashMap (hr : Recorded ext s) :
    ExactAssets ext s.shared.cache s.shared.cache.getAssetHashMap := by
  refine ⟨ContentCache.nodup_getAssetHashMap _, fun url hash => ?_⟩
  rw [WriteOnce.mem_iff_lookup (ContentCache.nodup_getAssetHashMap _),
    ContentCache.lookup_getAssetHashMap, Option.map_eq_some_iff]
  refine exists_congr fun route => and_congr_right fun hroute => ?_
  obtain ⟨call, -, -, rfl⟩ := hr.inserted hroute
  exact eq_comm

/-- Entry by entry under new keys, the object is the table. -/
theorem foldl_setEntry (kvs : List (String × String)) :
    ∀ acc : List (String × String), ((acc ++ kvs).map Prod.fst).Nodup →
      kvs.foldl (fun o kv => Dynamic.setEntry o kv.1 kv.2) acc = acc ++ kvs := by
  induction kvs with
  | nil => intro acc _; rw [List.append_nil]; rfl
  | cons kv kvs ih =>
    intro acc hnodup
    have habsent : acc.lookup kv.1 = none := by
      by_contra hne
      have hmem := WriteOnce.lookup_ne_none_iff.1 hne
      rw [List.map_append, List.nodup_append] at hnodup
      exact hnodup.2.2 _ hmem _ (by simp) rfl
    have hset : Dynamic.setEntry acc kv.1 kv.2 = acc ++ [kv] := by
      rw [Dynamic.setEntry, habsent]
      rfl
    rw [List.foldl_cons, hset, ih (acc ++ [kv]) (by simpa using hnodup), List.append_assoc]
    rfl

theorem assetHashes_eq (cache : ContentCache) :
    DirectHandler.assetHashes cache = cache.getAssetHashMap :=
  (foldl_setEntry cache.getAssetHashMap [] (ContentCache.nodup_getAssetHashMap cache)).trans
    (List.nil_append _)

/-- **Write-once routes and an exact table.** In every reachable state: a cached route is returned in
every later state, and the GETs for its url that have yet to arrive never reach the origin; of all
the inserts on record for a url exactly one succeeded, and its route is the one served; and the
asset table, as well as the object the direct handler makes of it, lists exactly the cached urls
with the hash of the stored content. -/
theorem write_once (h : Reachable ext cfg s) :
    (∀ url route, s.shared.cache.getCachedRoute url = some route →
      ∀ es t, Run.run (step ext cfg) s es = some t →
        t.shared.cache.getCachedRoute url = some route ∧
        ∀ j req, (s.handlers j).client.request = none → (t.handlers j).client.request = some req →
          req.method = .get → ext.getUrl req.url = url →
          (t.handlers j).origin.connecting = false ∧ (t.handlers j).origin.sent = []) ∧
    (∀ call ∈ s.shared.adds, ∃ w,
      (s.shared.adds.filter fun c => c.url = call.url ∧ c.result) = [w] ∧
      s.shared.cache.getCachedRoute call.url = some (CachedRoute.new ext w.url w.chain w.headers)) ∧
    ExactAssets ext s.shared.cache s.shared.cache.getAssetHashMap ∧
    ExactAssets ext s.shared.cache (DirectHandler.assetHashes s.shared.cache) := by
  have hr := recorded_reachable h
  have hexact := exactAssets_getAssetHashMap hr
  refine ⟨fun url route hroute es t hrun => ⟨lookup_run h hrun _ _ hroute, ?_⟩, fun call hcall => ?_,
    hexact, by rw [assetHashes_eq]; exact hexact⟩
  · intro j req hnew hreq hget hurl
    exact staysLocal_run h hrun hroute hnew req hreq hget hurl
  · obtain ⟨b, hw, hlook⟩ := hr.unique_winner (List.mem_map_of_mem hcall)
    rw [WriteOnce.winners, List.filter_map, List.map_map] at hw
    obtain ⟨w, hfilter, rfl⟩ := List.map_eq_singleton_iff.1 hw
    exact ⟨w, hfilter, hlook⟩

/-- Two handlers ask for the same url before either has its answer; both insert, one wins. -/
theorem write_once_race : ∃ s, Scenario.run (Scenario.connected 0 ++ Scenario.connected 1 ++
      [(0, .originOnBody ⟨[111, 107], []⟩), (1, .originOnBody ⟨[110, 111], []⟩),
        (1, .originOnEOM none), (0, .originOnEOM none), (1, .requestComplete Scenario.io),
        (0, .requestComplete Scenario.io)]) = some s ∧
    s.shared.adds.map (fun c => (c.handler, c.url, c.result)) = [(1, "/a", true), (0, "/a", false)] ∧
    (∀ call ∈ s.shared.adds, ∃ w,
      (s.shared.adds.filter fun c => c.url = call.url ∧ c.result) = [w] ∧
      s.shared.cache.getCachedRoute call.url =
        some (CachedRoute.new Scenario.ext w.url w.chain w.headers)) ∧
    ExactAssets Scenario.ext s.shared.cache (DirectHandler.assetHashes s.shared.cache) := by
  obtain ⟨s, hs, hadds⟩ := Option.map_eq_some_iff.1 (show (Scenario.run (Scenario.connected 0 ++
    Scenario.connected 1 ++ [(0, .originOnBody ⟨[111, 107], []⟩), (1, .originOnBody ⟨[110, 111], []⟩),
      (1, .originOnEOM none), (0, .originOnEOM none), (1, .requestComplete Scenario.io),
      (0, .requestComplete Scenario.io)])).map
    (fun s => s.shared.adds.map fun c => (c.handler, c.url, c.result)) =
    some [(1, "/a", true), (0, "/a", false)] by decide)
  obtain ⟨-, hwin, -, hassets⟩ := write_once ⟨_, _, _, hs⟩
  exact ⟨s, hs, hadds, hwin, hassets⟩

end

end System

end GladiusMasternode
