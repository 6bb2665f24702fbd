import GladiusMasternode.Cache.Assets
/-
# Where cached content comes from

What a handler has got from its origin stays what it is and only gets longer (`Collects`). So the
body of an insert, whole or not, is for ever the beginning of what the origin of its handler has
sent, and comes with that origin's headers.
-/

namespace GladiusMasternode

namespace Exchange

section
variable {ext : External} {cfg : Config} {x y : Exchange} {e : Event}

structure Collects (x y : Exchange) : Prop where
  headers : x.origin.headers ≠ none → y.origin.headers = x.origin.headers
  chunks : x.origin.chunks <+: y.origin.chunks

theorem Collects.refl (x : Exchange) : Collects x x := ⟨fun _ => rfl, List.prefix_refl _⟩

theorem Collects.trans {z : Exchange} (h : Collects x y) (h' : Collects y z) : Collects x z where
  headers hne := by
    have hy := h.headers hne
    rw [h'.headers (by rw [hy]; exact hne), hy]
  chunks := h.chunks.trans h'.chunks

theorem collects_called (h : Called ext cfg x y) : Collects x y := by
  cases h with
  | originOnHeadersComplete msg hatt hnone heom hok =>
    exact ⟨fun hne => absurd hnone hne, List.prefix_refl _⟩
  | originOnBody chain hatt hheaders heom hok => exact ⟨fun _ => rfl, List.prefix_append _ _⟩
  | _ => exact ⟨fun _ => rfl, List.prefix_refl _⟩

theorem collects_delivered (hI : Inv ext x) (h : Delivered ext cfg x e y) : Collects x y := by
  refine h.rule hI (Collects.refl x) ?_ ?_ ?_ ?_
  · intro y h
    exact collects_called h
  · rintro y z - hy ⟨-, -, sh, -, rfl⟩
    exact ⟨hy.headers, hy.chunks⟩
  · rintro y z - hy ⟨-, rfl⟩
    exact ⟨hy.headers, hy.chunks⟩
  · intro y _ _ _ h
    rw [Aborted] at h
    subst h
    exact ⟨fun _ => rfl, List.prefix_refl _⟩

end

end Exchange

namespace System

section
variable {ext : External} {cfg : Config} {s s' : System} {e : Nat × Event}

theorem collects_step (hs : HandlersInv ext s) (h : step ext cfg s e = some s') (i : Nat) :
    Exchange.Collects (s.handlers i) (s'.handlers i) := by
  obtain ⟨y, hd, rfl⟩ := step_cases hs h
  by_cases hi : i = e.1
  · simp only [hi, if_true]
    exact { Exchange.collects_delivered (inv_exchange hs e.1) hd with }
  · simp only [if_neg hi]
    exact Exchange.Collects.refl _

/-- These headers and these bytes are what the origin of the handler has sent, as far as it had got
when the handler made its insert. -/
structure FromOrigin (x : Exchange) (headers : HTTPMessage) (bytes : Bytes) : Prop where
  contacted : x.origin.sent ≠ []
  headers : x.origin.headers = some headers
  body : ∃ part, part ≠ [] ∧ part <+: x.origin.chunks ∧ bytes = (part.map IOBuf.bytes).flatten

/-- Every insert on record was made by the handler of a GET for its url, out of what the origin
sent to that handler. -/
def InsertsFromOrigins (ext : External) (s : System) : Prop :=
  ∀ call ∈ s.shared.adds, (∃ req, (s.handlers call.handler).client.request = some req ∧
      req.method = .get ∧ ext.getUrl req.url = call.url) ∧
    FromOrigin (s.handlers call.handler) call.headers call.chain.bytes

theorem insertsFromOrigins_step (hs : HandlersInv ext s) (hf : InsertsFromOrigins ext s)
    (h : step ext cfg s e = some s') : InsertsFromOrigins ext s' := by
  have hold : ∀ call ∈ s.shared.adds, (∃ req, (s'.handlers call.handler).client.request = some req ∧
        req.method = .get ∧ ext.getUrl req.url = call.url) ∧
      FromOrigin (s'.handlers call.handler) call.headers call.chain.bytes := by
    intro call hcall
    obtain ⟨⟨req, hreq, hget, hurl⟩, -, hheaders, part, hne, hpart, hbytes⟩ := hf call hcall
    have hC := collects_step hs h call.handler
    have hpart' := hpart.trans hC.chunks
    refine ⟨⟨req, ?_, hget, hurl⟩, ?_, ?_, part, hne, hpart', hbytes⟩
    · exact ((progress_step hs h call.handler).request (by rw [hreq]; simp)).trans hreq
    · intro hsent
      rw [((handlersInv_step hs h call.handler).1.unsent hsent).2.2.1] at hpart'
      exact hne (List.prefix_nil.1 hpart')
    · exact (hC.headers (by rw [hheaders]; simp)).trans hheaders
  intro call hcall
  rcases step_shared hs h with hsh | ⟨call', ha⟩
  · rw [hsh] at hcall
    exact hold call hcall
  · rw [adds_of_added ha] at hcall
    rcases List.mem_append.1 hcall with hcall | hcall
    · exact hold call hcall
    · obtain rfl := List.mem_singleton.1 hcall
      obtain ⟨body, hbody, hchain⟩ := ha.chain
      rw [handler_of_added ha hs]
      refine ⟨ha.request, ?_, ha.headers, _, ha.collected.2, List.prefix_refl _, ?_⟩
      · intro hsent
        exact ha.collected.2 ((handlersInv_step hs h e.1).1.unsent hsent).2.2.1
      · rw [hchain, IOBuf.bytes_cloneCoalesced, IOBuf.bytes_concat hbody]

theorem insertsFromOrigins_reachable (h : Reachable ext cfg s) : InsertsFromOrigins ext s := by
  obtain ⟨dir, writeToDisk, es, hrun⟩ := h
  have hstep : ∀ s e s', HandlersInv ext s ∧ InsertsFromOrigins ext s →
      step ext cfg s e = some s' → HandlersInv ext s' ∧ InsertsFromOrigins ext s' :=
    fun s e s' hp he => ⟨handlersInv_step hp.1 he, insertsFromOrigins_step hp.1 hp.2 he⟩
  exact (Run.run_inv hstep es ⟨handlersInv_init ext dir writeToDisk, fun _ hc => by cases hc⟩ hrun).2

/-- A cached route is the insert of the handler of a GET for its url. -/
theorem cached_from_origin (h : Reachable ext cfg s) {url : String} {route : CachedRoute}
    (hroute : s.shared.cache.getCachedRoute url = some route) :
    ∃ i req, (s.handlers i).client.request = some req ∧ req.method = .get ∧
      ext.getUrl req.url = url ∧ FromOrigin (s.handlers i) route.headers_ route.content_.bytes := by
  obtain ⟨call, hcall, rfl, rfl⟩ := (recorded_reachable h).inserted hroute
  obtain ⟨⟨req, hreq, hget, hurl⟩, hfrom⟩ := insertsFromOrigins_reachable h call hcall
  exact ⟨call.handler, req, hreq, hget, hurl, hfrom⟩

end

end System

end GladiusMasternode
