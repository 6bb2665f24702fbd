import GladiusMasternode.Proxy.Invariant
/-
# The inserts of a run

Only `requestComplete` writes to the shared cache, so a step makes at most one `addCachedRoute`
(`Added`), and every step reads or writes the cache once. `recorded_reachable` ties the map to the
calls on record.
-/

namespace GladiusMasternode

/-- An `addCachedRoute` as an insert into a write-once map. -/
def AddCall.toCall (ext : External) (c : AddCall) : WriteOnce.Call String CachedRoute :=
  ⟨c.url, CachedRoute.new ext c.url c.chain c.headers, c.result⟩

namespace Exchange

section
variable {ext : External} {cfg : Config} {x y z : Exchange} {e : Event}

/-- A step from `x` to `y` has made this one call. -/
structure Added (ext : External) (x y : Exchange) (call : AddCall) : Prop where
  handler : call.handler = x.id
  request : ∃ req, y.client.request = some req ∧ req.method = .get ∧ ext.getUrl req.url = call.url
  chain : ∃ body, IOBuf.concat y.origin.chunks = some body ∧ call.chain = body.cloneCoalesced
  headers : y.origin.headers = some call.headers
  opened : x.client.done = false
  done : y.client.done = true
  adds : y.shared.adds = x.shared.adds ++ [call]
  insert : WriteOnce.insertNew x.shared.cache.map_ call.url
    (CachedRoute.new ext call.url call.chain call.headers) = (y.shared.cache.map_, call.result)

/-- The call may be the nested end of a method that has not written to the cache itself. -/
theorem Added.of_called {call : AddCall} (ha : Added ext z y call) (hsh : z.shared = x.shared)
    (hP : Progress x z) : Added ext x y call :=
  { ha with
    handler := ha.handler.trans hP.id
    opened := by
      cases hd : x.client.done with
      | false => rfl
      | true => rw [← (hP.done hd).1]; exact ha.opened
    adds := by rw [ha.adds, hsh]
    insert := by rw [← hsh]; exact ha.insert }

theorem Added.shared_ne {call : AddCall} (ha : Added ext x y call) : y.shared ≠ x.shared := by
  intro h
  have hadds := ha.adds
  rw [h] at hadds
  simp at hadds

/-- What goes in has headers and at least one chunk. -/
theorem Added.collected {call : AddCall} (ha : Added ext x y call) :
    y.origin.headers ≠ none ∧ y.origin.chunks ≠ [] := by
  obtain ⟨body, hbody, -⟩ := ha.chain
  refine ⟨by rw [ha.headers]; simp, ?_⟩
  intro hc
  rw [IOBuf.concat_eq_none.2 hc] at hbody
  cases hbody

theorem shared_called (h : Called ext cfg x y) : y.shared = x.shared := by
  cases h <;> rfl

theorem shared_completed (hI : Inv ext x) (h : Completed ext x y) :
    y.shared = x.shared ∨ ∃ call, Added ext x y call := by
  obtain ⟨hreq, hopen, sh, hst, rfl⟩ := h
  cases hst with
  | nothing hno => exact .inl rfl
  | @route io req body headers cache b hreq' hget hbody hheaders hadd =>
    obtain ⟨hb, hh⟩ := hI.content (hI.terminated.trans hopen)
    obtain ⟨m, hm⟩ := Option.ne_none_iff_exists'.1 hreq
    have hline := hI.request
    simp only [hreq', hm, Option.map_some, Option.some.injEq, HTTPMessage.line,
      Prod.mk.injEq] at hline
    refine .inr ⟨⟨x.id, ext.getUrl req.url, body.cloneCoalesced, headers, b⟩, rfl,
      ⟨m, hm, hline.1 ▸ hget, by rw [← hline.2]⟩, ⟨body, hb.symm.trans hbody, rfl⟩,
      hh.symm.trans hheaders, hopen, rfl, rfl, ContentCache.addCachedRoute_ok hadd⟩

theorem shared_delivered (hI : Inv ext x) (h : Delivered ext cfg x e y) :
    y.shared = x.shared ∨ ∃ call, Added ext x y call := by
  cases h with
  | called h => exact .inl (shared_called h)
  | completed io he h => exact shared_completed hI h
  | detached h => obtain ⟨-, rfl⟩ := h; exact .inl rfl
  | @completedInside z _ h hout hc =>
    have hsh := shared_called h
    have hP := progress_called hI h
    rcases shared_completed (inv_called hI h) hc with hs | ⟨call, ha⟩
    · exact .inl (hs.trans hsh)
    · exact .inr ⟨call, ha.of_called hsh hP⟩
  | detachedInside h hd =>
    have hsh := shared_called h
    obtain ⟨-, rfl⟩ := hd
    exact .inl hsh
  | abortedInside hin hopen hreq h => rw [Aborted] at h; subst h; exact .inl rfl

end

end Exchange

namespace System

section
variable {ext : External} {cfg : Config} {s s' t : System} {e : Nat × Event}

theorem step_shared (hs : HandlersInv ext s) (h : step ext cfg s e = some s') :
    s'.shared = s.shared ∨ ∃ call, Exchange.Added ext (s.exchange e.1) (s'.exchange e.1) call :=
  Exchange.shared_delivered (inv_exchange hs e.1) (delivered_step hs h)

section
variable {call : AddCall} (ha : Exchange.Added ext (s.exchange e.1) (s'.exchange e.1) call)
include ha

theorem handler_of_added (hs : HandlersInv ext s) : call.handler = e.1 :=
  ha.handler.trans (hs e.1).2

theorem adds_of_added : s'.shared.adds = s.shared.adds ++ [call] := ha.adds

theorem insert_of_added : WriteOnce.insertNew s.shared.cache.map_ call.url
    (CachedRoute.new ext call.url call.chain call.headers) =
      (s'.shared.cache.map_, call.result) := ha.insert

theorem mem_of_added {e : String × CachedRoute} : e ∈ s'.shared.cache.map_ ↔
    e ∈ s.shared.cache.map_ ∨
      e = (call.url, CachedRoute.new ext call.url call.chain call.headers) ∧
        call.result = true := by
  have hmem := @WriteOnce.mem_insertNew_iff _ _ _ s.shared.cache.map_ call.url
    (CachedRoute.new ext call.url call.chain call.headers) e
  rw [insert_of_added ha] at hmem
  exact hmem

end

/-- The cache is what the calls on record have made of the empty one. -/
def Recorded (ext : External) (s : System) : Prop :=
  WriteOnce.Recorded s.shared.cache.map_ (s.shared.adds.map (AddCall.toCall ext))

theorem recorded_step (hs : HandlersInv ext s) (hr : Recorded ext s)
    (h : step ext cfg s e = some s') : Recorded ext s' := by
  rcases step_shared hs h with hsh | ⟨call, ha⟩
  · rw [Recorded, hsh]; exact hr
  · have hrec := WriteOnce.recorded_insertNew hr call.url
      (CachedRoute.new ext call.url call.chain call.headers)
    rw [insert_of_added ha] at hrec
    rw [Recorded, adds_of_added ha, List.map_append]
    exact hrec

theorem recorded_reachable (h : Reachable ext cfg s) : Recorded ext s := by
  obtain ⟨dir, writeToDisk, es, hrun⟩ := h
  exact (Run.run_inv (fun s e s' (hp : HandlersInv ext s ∧ Recorded ext s) he =>
    ⟨handlersInv_step hp.1 he, recorded_step hp.1 hp.2 he⟩) es
    ⟨handlersInv_init ext dir writeToDisk, WriteOnce.recorded_empty⟩ hrun).2

/-- Two successful calls for one url are the same call. -/
theorem Recorded.winner_unique (hr : Recorded ext s) {c c' : AddCall} (hc : c ∈ s.shared.adds)
    (hc' : c' ∈ s.shared.adds) (hurl : c.url = c'.url) (hres : c.result = true)
    (hres' : c'.result = true) : c = c' := by
  obtain ⟨b, hw, -⟩ := hr.unique_winner (List.mem_map_of_mem hc)
  rw [WriteOnce.winners, List.filter_map, List.map_map] at hw
  obtain ⟨w, hw, -⟩ := List.map_eq_singleton_iff.1 hw
  have key : ∀ d ∈ s.shared.adds, d.url = c.url → d.result = true → d = w := by
    intro d hd hu hb
    refine List.mem_singleton.1 (hw ▸ List.mem_filter.2 ⟨hd, ?_⟩)
    simp [AddCall.toCall, hu, hb]
  rw [key c hc rfl hres, key c' hc' hurl.symm hres']

/-- What is cached stays cached, as it is. -/
theorem lookup_step (hs : HandlersInv ext s) (h : step ext cfg s e = some s') :
    WriteOnce.Extends s.shared.cache.getCachedRoute s'.shared.cache.getCachedRoute := by
  rcases step_shared hs h with hsh | ⟨call, ha⟩
  · rw [hsh]; exact WriteOnce.Extends.refl _
  · have hext := WriteOnce.insertNew_extends s.shared.cache.map_ call.url
      (CachedRoute.new ext call.url call.chain call.headers)
    rw [insert_of_added ha] at hext
    exact hext

theorem lookup_run {es : List (Nat × Event)} (h : Reachable ext cfg s)
    (hrun : Run.run (step ext cfg) s es = some t) :
    WriteOnce.Extends s.shared.cache.getCachedRoute t.shared.cache.getCachedRoute :=
  @Run.run_rel System _ (step ext cfg) (HandlersInv ext)
    (fun s t => WriteOnce.Extends s.shared.cache.getCachedRoute t.shared.cache.getCachedRoute)
    (fun _ => WriteOnce.Extends.refl _) (fun _ _ _ => WriteOnce.Extends.trans)
    (fun _ _ _ hs => handlersInv_step hs) (fun _ _ _ hs => lookup_step hs) es _ _
    (handlersInv_reachable h) hrun

end

end System

end GladiusMasternode
