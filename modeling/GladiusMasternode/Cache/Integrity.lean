import GladiusMasternode.Cache.Inserts
/-
# What is in the cache

`requestComplete` stores whatever body has been collected by then. That is the whole body of the
origin's response exactly if the origin has finished, which nothing in the handler checks: after
`originOnError` in the middle of a body the handler aborts `downstream_`, Proxygen completes the
request, and what is there is stored.
-/

namespace GladiusMasternode

namespace Exchange

section
variable {ext : External} {cfg : Config} {x y : Exchange} {e : Event} {call : AddCall}

/-- `requestComplete`, by itself or inside the `sendAbort()` of `originOnError`, reaches the handler
of a GET that has got some of the origin's body but not its EOM, while the url is not cached. -/
structure Truncates (ext : External) (x : Exchange) (e : Event) : Prop where
  event : (∃ io, e = .requestComplete io) ∨ ∃ io, e = .originOnError (some io)
  opened : x.client.done = false
  request : ∃ req, x.client.request = some req ∧ req.method = .get ∧
    x.shared.cache.getCachedRoute (ext.getUrl req.url) = none
  headers : x.origin.headers ≠ none
  body : x.origin.chunks ≠ []
  unfinished : x.origin.eom = false

/-- A successful insert found the url free. -/
theorem Added.absent (ha : Added ext x y call) (hres : call.result = true) :
    x.shared.cache.getCachedRoute call.url = none := by
  have hins := congrArg Prod.snd ha.insert
  exact WriteOnce.insertNew_snd_iff.1 (hins.trans hres)

/-- What an insert stores was either finished, or the step found it as it is. -/
theorem Added.finished_or (hI : Inv ext x) (hd : Delivered ext cfg x e y) (ha : Added ext x y call) :
    y.origin.eom = true ∨ ((∃ io, e = .requestComplete io) ∨ ∃ io, e = .originOnError (some io)) ∧
      y.origin.chunks = x.origin.chunks ∧ y.origin.headers = x.origin.headers ∧
      y.origin.eom = x.origin.eom ∧ y.client.request = x.client.request := by
  cases hd with
  | called h => exact absurd (shared_called h) ha.shared_ne
  | completed io he h =>
    obtain ⟨-, -, sh, -, rfl⟩ := h
    exact .inr ⟨.inl ⟨io, he⟩, rfl, rfl, rfl, rfl⟩
  | detached h => obtain ⟨-, rfl⟩ := h; exact absurd rfl ha.shared_ne
  | @completedInside z _ h hout hc =>
    have hIz := inv_called hI h
    have hP := progress_called hI h
    have hcol := ha.collected
    obtain ⟨hzreq, -, sh, -, rfl⟩ := hc
    rcases hout with hsites | ⟨he, ho⟩
    · -- a response from `originOnEOM` comes with the EOM, any other one without a body
      rcases hIz.answered with hs | ⟨-, ⟨site, -, -, hns⟩ | ⟨-, heom⟩⟩
      · exact absurd hs hsites
      · exact absurd (hIz.unsent hns).2.2.1 hcol.2
      · exact .inl heom
    · have hatt : x.client.request ≠ none := by
        intro hnone
        apply hcol.2
        show z.origin.chunks = []
        rw [ho, (hI.idle hnone).2]
      have hz : z.client.request = x.client.request := hP.request hatt
      refine .inr ⟨.inr he, ?_, ?_, ?_, hz⟩ <;> simp [ho]
  | detachedInside h hd =>
    have hsh := shared_called h
    obtain ⟨-, rfl⟩ := hd
    exact absurd hsh ha.shared_ne
  | abortedInside hin hopen hreq h => rw [Aborted] at h; subst h; exact absurd rfl ha.shared_ne

/-- Unless the step truncates, a route that goes in is whole. -/
theorem Added.finished (hI : Inv ext x) (hd : Delivered ext cfg x e y) (ha : Added ext x y call)
    (hres : call.result = true) (ht : ¬ Truncates ext x e) : y.origin.eom = true := by
  rcases ha.finished_or hI hd with heom | ⟨he, hchunks, hheaders, heom, hreq⟩
  · exact heom
  · by_contra hne
    obtain ⟨req, hr, hget, hurl⟩ := ha.request
    obtain ⟨hcolh, hcolb⟩ := ha.collected
    refine ht ⟨he, ha.opened, ⟨req, hreq ▸ hr, hget, hurl ▸ ha.absent hres⟩, ?_, ?_, ?_⟩
    · rw [← hheaders]
      exact hcolh
    · rw [← hchunks]
      exact hcolb
    · rw [← heom]
      simpa using hne

/-- `requestComplete` of a GET with headers and a body inserts. -/
theorem added_of_completed (hI : Inv ext x) (h : Completed ext x y) {req : HTTPMessage}
    (hreq : x.client.request = some req) (hget : req.method = .get)
    (hheaders : x.origin.headers ≠ none) (hbody : x.origin.chunks ≠ []) :
    ∃ call, Added ext x y call := by
  refine (shared_completed hI h).resolve_left fun hsh => ?_
  obtain ⟨-, hopen, sh, hst, rfl⟩ := h
  obtain ⟨hb, hh⟩ := hI.content (hI.terminated.trans hopen)
  cases hst with
  | nothing hno =>
    obtain ⟨req', hreq'⟩ := Option.ne_none_iff_exists'.1
      (hI.request_ne_none (by rw [hreq]; simp))
    have hline := hI.request
    simp only [hreq', hreq, Option.map_some, Option.some.injEq, HTTPMessage.line,
      Prod.mk.injEq] at hline
    rcases hno req' hreq' (hline.1.trans hget) with hn | hn
    · exact hbody (IOBuf.concat_eq_none.1 (hb.symm.trans hn))
    · exact hheaders (hh.symm.trans hn)
  | route hreq' hget' hbody' hheaders' hadd =>
    have hadds := congrArg Shared.adds hsh
    simp at hadds

/-- A truncating step inserts what it has got. -/
theorem added_of_truncates (hI : Inv ext x) (hadm : x.admissible e = true)
    (hesc : (x.deliver ext cfg e).escaped = false) (ht : Truncates ext x e) :
    ∃ call, Added ext x (x.deliver ext cfg e) call ∧ call.result = true ∧
      (x.deliver ext cfg e).origin.eom = false := by
  obtain ⟨he, hopen, ⟨req, hreq, hget, hfree⟩, hheaders, hbody, heom⟩ := ht
  have hsome : x.client.request ≠ none := by rw [hreq]; simp
  have key : ∃ call, Added ext x (x.deliver ext cfg e) call ∧
      (x.deliver ext cfg e).origin.eom = false ∧
      (x.deliver ext cfg e).client.request = x.client.request := by
    rcases he with ⟨io, rfl⟩ | ⟨io, rfl⟩
    · have hc : Completed ext x (x.deliver ext cfg (.requestComplete io)) :=
        completed_of hsome hopen (hI.request_ne_none hsome) hI.txn hesc
      obtain ⟨call, ha⟩ := added_of_completed hI hc hreq hget hheaders hbody
      obtain ⟨-, -, sh, -, heq⟩ := hc
      exact ⟨call, ha, by rw [heq]; exact heom, by rw [heq]; rfl⟩
    · simp only [admissible, Bool.and_eq_true, Bool.not_eq_true'] at hadm
      have hz : Called ext cfg x _ := .originOnError hadm.1 hadm.2
      rw [deliver_originOnError hI hopen] at hesc ⊢
      have hIz := inv_called hI hz
      have hc := completed_of (by exact hsome) (by exact hopen) (hIz.request_ne_none hsome) hIz.txn
        hesc
      obtain ⟨call, ha⟩ := added_of_completed hIz hc hreq hget hheaders hbody
      refine ⟨call, ha.of_called rfl (progress_called hI hz), ?_⟩
      obtain ⟨-, -, sh, -, heq⟩ := hc
      rw [mayComplete, heq]
      exact ⟨heom, rfl⟩
  obtain ⟨call, ha, heom', hreq'⟩ := key
  refine ⟨call, ha, ?_, heom'⟩
  obtain ⟨req', hr, -, hurl⟩ := ha.request
  rw [hreq', hreq, Option.some.injEq] at hr
  subst hr
  rw [hurl] at hfree
  exact (congrArg Prod.snd ha.insert).symm.trans (WriteOnce.insertNew_snd_iff.2 hfree)

end

end Exchange

namespace System

section
variable {ext : External} {cfg : Config} {s s' : System} {e : Nat × Event}

/-- The route was put in by the handler of a GET for that url, whose origin has finished, and its
content is all of the origin's body. -/
def Whole (ext : External) (s : System) (url : String) (route : CachedRoute) : Prop :=
  ∃ call ∈ s.shared.adds, call.url = url ∧ call.result = true ∧ call.chain = route.content_ ∧
    (∃ req, (s.handlers call.handler).client.request = some req ∧ req.method = .get ∧
      ext.getUrl req.url = url) ∧
    (s.handlers call.handler).origin.eom = true ∧
    route.content_.bytes = ((s.handlers call.handler).origin.chunks.map IOBuf.bytes).flatten

def CacheIntegrity (ext : External) (s : System) : Prop :=
  ∀ url route, (url, route) ∈ s.shared.cache.map_ → Whole ext s url route

/-- What is whole stays whole. -/
theorem Whole.step {url : String} {route : CachedRoute} (hw : Whole ext s url route)
    (hs : HandlersInv ext s) (h : step ext cfg s e = some s') : Whole ext s' url route := by
  obtain ⟨call, hmem, hurl, hres, hchain, ⟨req, hreq, hget, hgurl⟩, heom, hbytes⟩ := hw
  have hP := progress_step hs h call.handler
  obtain ⟨heom', hchunks, -⟩ := hP.eom heom
  have hreq' := hP.request (by rw [hreq]; simp)
  refine ⟨call, ?_, hurl, hres, hchain, ⟨req, hreq'.trans hreq, hget, hgurl⟩, heom',
    by rw [hchunks]; exact hbytes⟩
  rcases step_shared hs h with hsh | ⟨call', ha⟩
  · rw [hsh]; exact hmem
  · rw [adds_of_added ha]
    exact List.mem_append_left _ hmem

/-- Unless the step truncates, what it puts in is whole. -/
theorem whole_of_added (hs : HandlersInv ext s) (h : step ext cfg s e = some s') {call : AddCall}
    (ha : Exchange.Added ext (s.exchange e.1) (s'.exchange e.1) call) (hres : call.result = true)
    (ht : ¬ Exchange.Truncates ext (s.exchange e.1) e.2) :
    Whole ext s' call.url (CachedRoute.new ext call.url call.chain call.headers) := by
  have heom := ha.finished (inv_exchange hs e.1) (delivered_step hs h) hres ht
  obtain ⟨body, hbody, hchain⟩ := ha.chain
  refine ⟨call, ?_, rfl, hres, rfl, ?_, ?_, ?_⟩
  · rw [adds_of_added ha]
    simp
  · rw [handler_of_added ha hs]
    exact ha.request
  · rw [handler_of_added ha hs]
    exact heom
  · rw [handler_of_added ha hs]
    calc call.chain.bytes
      _ = body.bytes := by rw [hchain, IOBuf.bytes_cloneCoalesced]
      _ = _ := IOBuf.bytes_concat hbody

/-- A truncating step caches a body whose origin has not finished. -/
theorem not_integrity_of_truncates (hs : HandlersInv ext s) (hr : Recorded ext s)
    (h : step ext cfg s e = some s') (ht : Exchange.Truncates ext (s.exchange e.1) e.2) :
    ¬ CacheIntegrity ext s' := by
  intro hg'
  obtain ⟨hadm, hesc, hs'⟩ := step_some h
  obtain ⟨call, ha, hres, heom⟩ := Exchange.added_of_truncates (inv_exchange hs e.1) hadm hesc ht
  rw [show (s.exchange e.1).deliver ext cfg e.2 = s'.exchange e.1 by simp [exchange, hs']]
    at ha heom
  have hmem : (call.url, CachedRoute.new ext call.url call.chain call.headers) ∈
      s'.shared.cache.map_ := (mem_of_added ha).2 (.inr ⟨rfl, hres⟩)
  -- the insert that is whole would have to be this one
  obtain ⟨w, hw, hwurl, hwres, -, -, hweom, -⟩ := hg' _ _ hmem
  have hcall : call ∈ s'.shared.adds := by rw [adds_of_added ha]; simp
  obtain rfl := (recorded_step hs hr h).winner_unique hw hcall hwurl hwres hres
  have heom' : (s'.handlers e.1).origin.eom = false := heom
  rw [handler_of_added ha hs, heom'] at hweom
  cases hweom

theorem integrity_step_iff (hs : HandlersInv ext s) (hr : Recorded ext s)
    (hg : CacheIntegrity ext s) (h : step ext cfg s e = some s') :
    CacheIntegrity ext s' ↔ ¬ Exchange.Truncates ext (s.exchange e.1) e.2 := by
  constructor
  · intro hg' ht
    exact not_integrity_of_truncates hs hr h ht hg'
  · intro ht url route hmem
    rcases step_shared hs h with hsh | ⟨call, ha⟩
    · rw [hsh] at hmem
      exact (hg url route hmem).step hs h
    · rcases (mem_of_added ha).1 hmem with hold | ⟨heq, hres⟩
      · exact (hg url route hold).step hs h
      · rw [Prod.mk.injEq] at heq
        obtain ⟨rfl, rfl⟩ := heq
        exact whole_of_added hs h ha hres ht

/-- **Cache integrity.** Along a run every cached route is, in every state passed through, the whole
body of a finished origin response to a GET for its url, exactly if no step truncates. -/
theorem integrity_iff_never_truncates {dir : String} {writeToDisk : Bool} {es : List (Nat × Event)}
    {t : System} (hrun : Run.run (step ext cfg) (init dir writeToDisk) es = some t) :
    (∀ fs s, fs <+: es → Run.run (step ext cfg) (init dir writeToDisk) fs = some s →
      CacheIntegrity ext s) ↔
    Run.Meets (step ext cfg) (fun s e => ¬ Exchange.Truncates ext (s.exchange e.1) e.2)
      (init dir writeToDisk) es := by
  let P : System → Prop := fun s => HandlersInv ext s ∧ Recorded ext s
  have hinv : ∀ s e s', P s → step ext cfg s e = some s' → P s' := fun s e s' hp h =>
    ⟨handlersInv_step hp.1 h, recorded_step hp.1 hp.2 h⟩
  exact Run.good_throughout_iff hinv (fun s e s' hp hg h => integrity_step_iff hp.1 hp.2 hg h) es
    ⟨handlersInv_init ext dir writeToDisk, WriteOnce.recorded_empty⟩
    (fun _ _ hmem => by cases hmem) hrun

/-- The origin fails after the first of its chunks, and the client, aborted, completes. -/
def brokenOff : List (Nat × Event) := Scenario.connected 0 ++
  [(0, .originOnBody ⟨[111], []⟩), (0, .originOnError (some Scenario.io)),
    (0, .originDetachTransaction)]

theorem integrity_iff_of_fetch : ∃ t, Scenario.run (Scenario.fetch 0) = some t ∧
    ((∀ fs s, fs <+: Scenario.fetch 0 → Scenario.run fs = some s →
      CacheIntegrity Scenario.ext s) ↔
    Run.Meets (step Scenario.ext {})
      (fun s e => ¬ Exchange.Truncates Scenario.ext (s.exchange e.1) e.2)
      (init "/dev/null" false) (Scenario.fetch 0)) := by
  obtain ⟨t, ht⟩ := Option.isSome_iff_exists.1
    (show (Scenario.run (Scenario.fetch 0)).isSome = true by decide)
  exact ⟨t, ht, integrity_iff_never_truncates ht⟩

/-- The first chunk is cached as the page; the only handler's origin has not finished. -/
theorem broken_off_cached : ∃ s, Scenario.run brokenOff = some s ∧
    s.shared.cache.map_.map (fun e => (e.1, e.2.content_.bytes)) = [("/a", [111])] ∧
    ¬ CacheIntegrity Scenario.ext s := by
  obtain ⟨s, hs, hd⟩ := Option.map_eq_some_iff.1 (show (Scenario.run brokenOff).map (fun s =>
    (s.shared.cache.map_.map (fun e => (e.1, e.2.content_.bytes)),
      s.shared.adds.map AddCall.handler, (s.handlers 0).origin.eom)) =
    some ([("/a", [111])], [0], false) by decide)
  simp only [Prod.mk.injEq] at hd
  obtain ⟨hmap, hadds, heom⟩ := hd
  refine ⟨s, hs, hmap, fun hg => ?_⟩
  obtain ⟨e, he, -⟩ := List.map_eq_singleton_iff.1 hmap
  obtain ⟨call, hcall, -, -, -, -, hfin, -⟩ := hg e.1 e.2 (by rw [he]; simp)
  have hzero : call.handler = 0 := by
    have hmem := @List.mem_map_of_mem _ _ _ _ AddCall.handler hcall
    rw [hadds] at hmem
    exact List.mem_singleton.1 hmem
  rw [hzero, heom] at hfin
  cases hfin

end

end System

end GladiusMasternode
