import GladiusMasternode.Cache.Inserts
import GladiusMasternode.Proxy.Response
/-
# Hit and miss agree

The first client gets a clone of the chain collected from the origin; the cache gets the chain
coalesced into one buffer, and every later client a clone of that. `MissesAgree` and `HitsAgree` tie
the two kinds of response to the cached route over whole runs, and the route never changes.
-/

namespace GladiusMasternode

namespace Exchange

section
variable {ext : External} {cfg : Config} {x y : Exchange} {e : Event} {u : Use} {r : Response}

/-- A cache hit is a response from the route cached at that moment. -/
theorem hit_of_called (h : Called ext cfg x y) (hu : u ∈ y.client.uses)
    (hr : u.act = .response .cacheHit r) : u ∈ x.client.uses ∨ ∃ headers route,
      y.client.request = some headers ∧ cachedRouteFor ext x.shared.cache headers = some route ∧
      r = cachedResponse ext cfg route := by
  have hold : ∀ (act : Down) (b : Bool), (∀ r, act ≠ .response .cacheHit r) →
      u ∈ x.client.uses ++ [⟨act, b⟩] → u ∈ x.client.uses := by
    intro act b hact hu
    rcases List.mem_append.1 hu with hu | hu
    · exact hu
    · rw [List.mem_singleton.1 hu] at hr
      exact absurd hr (hact r)
  cases h with
  | hit headers route hnew hroute =>
    rcases List.mem_append.1 hu with hu | hu
    · exact .inl hu
    · rw [List.mem_singleton.1 hu] at hr
      simp only [Down.response.injEq, true_and] at hr
      exact .inr ⟨headers, route, rfl, hroute, hr.symm⟩
  | badAddress headers hnew hroute => exact .inl (hold _ _ (by simp) hu)
  | connect headers hnew hroute => exact .inl (hold _ _ (by simp) hu)
  | connectSuccess req hconn hlive hreq => exact .inl (hold _ _ (by simp) hu)
  | connectError hconn hlive hopen => exact .inl (hold _ _ (by simp) hu)
  | originAnswered headers body hatt heom hok hopen hheaders hbody =>
    exact .inl (hold _ _ (by simp) hu)
  | originOnError hatt hok =>
    dsimp only at hu
    cases hd : x.client.done with
    | true => rw [hd] at hu; exact .inl (by simpa using hu)
    | false => rw [hd] at hu; exact .inl (hold _ _ (by simp) hu)
  | _ => exact .inl hu

theorem hit_of_delivered (h : Delivered ext cfg x e y) (hu : u ∈ y.client.uses)
    (hr : u.act = .response .cacheHit r) : u ∈ x.client.uses ∨ ∃ headers route,
      y.client.request = some headers ∧ cachedRouteFor ext x.shared.cache headers = some route ∧
      r = cachedResponse ext cfg route := by
  cases h with
  | called h => exact hit_of_called h hu hr
  | completed io he h => obtain ⟨-, -, sh, -, rfl⟩ := h; exact .inl hu
  | detached h => obtain ⟨-, rfl⟩ := h; exact .inl hu
  | completedInside h hout hc =>
    obtain ⟨-, -, sh, -, rfl⟩ := hc
    have hhit := hit_of_called h (by exact hu) hr
    exact hhit
  | detachedInside h hd =>
    obtain ⟨-, rfl⟩ := hd
    have hhit := hit_of_called h (by exact hu) hr
    exact hhit
  | abortedInside hin hopen hreq h => rw [Aborted] at h; subst h; exact .inl hu

end

end Exchange

namespace System

section
variable {ext : External} {cfg : Config} {s s' t : System} {e : Nat × Event}

/-- Every cache hit sent was built from the route cached for its url. -/
def HitsAgree (ext : External) (cfg : Config) (s : System) : Prop :=
  ∀ j u r, u ∈ (s.handlers j).client.uses → u.act = .response .cacheHit r →
    ∃ req route, (s.handlers j).client.request = some req ∧
      s.shared.cache.getCachedRoute (ext.getUrl req.url) = some route ∧
      r = Exchange.cachedResponse ext cfg route

/-- Every handler that has answered from the origin and made its insert put in what it sent. -/
def MissesAgree (s : System) : Prop :=
  ∀ call ∈ s.shared.adds, call.chain.next = [] ∧
    (s.handlers call.handler).client.done = true ∧
    (.originEOM ∈ (s.handlers call.handler).sites →
      (s.handlers call.handler).origin.headers = some call.headers ∧
      ∃ body, IOBuf.concat (s.handlers call.handler).origin.chunks = some body ∧
        call.chain = body.cloneCoalesced)

theorem hitsAgree_step (hs : HandlersInv ext s) (ha : HitsAgree ext cfg s)
    (h : step ext cfg s e = some s') : HitsAgree ext cfg s' := by
  have hext := lookup_step hs h
  intro j u r hu hr
  by_cases hj : j = e.1
  · subst hj
    have hP := progress_step hs h e.1
    rcases Exchange.hit_of_delivered (delivered_step hs h) hu hr with hu | ⟨req, route, hq, hroute, hc⟩
    · obtain ⟨req, route, hq, hroute, hc⟩ := ha e.1 u r hu hr
      exact ⟨req, route, (hP.request (by rw [hq]; simp)).trans hq, hext _ _ hroute, hc⟩
    · refine ⟨req, route, hq, hext _ _ ?_, hc⟩
      unfold Exchange.cachedRouteFor at hroute
      split at hroute
      · exact hroute
      · cases hroute
  · obtain ⟨y, -, rfl⟩ := step_cases hs h
    simp only [if_neg hj] at hu ⊢
    obtain ⟨req, route, hq, hroute, hc⟩ := ha j u r hu hr
    exact ⟨req, route, hq, hext _ _ hroute, hc⟩

theorem missesAgree_step (hs : HandlersInv ext s) (ha : MissesAgree s)
    (h : step ext cfg s e = some s') : MissesAgree s' := by
  -- a call on record: its handler's client is done, so what it has sent is settled
  have hold : ∀ call ∈ s.shared.adds, call.chain.next = [] ∧
      (s'.handlers call.handler).client.done = true ∧
      (.originEOM ∈ (s'.handlers call.handler).sites →
        (s'.handlers call.handler).origin.headers = some call.headers ∧
        ∃ body, IOBuf.concat (s'.handlers call.handler).origin.chunks = some body ∧
          call.chain = body.cloneCoalesced) := by
    intro call hcall
    obtain ⟨hnext, hdone, hsent⟩ := ha call hcall
    have hP := progress_step hs h call.handler
    obtain ⟨hdone', huses⟩ := hP.done hdone
    refine ⟨hnext, hdone', fun hsite => ?_⟩
    have hsites : (s'.handlers call.handler).sites = (s.handlers call.handler).sites := by
      rw [Exchange.sites, Exchange.sites, huses]
    rw [hsites] at hsite
    obtain ⟨hh, body, hb, hc⟩ := hsent hsite
    have heom : (s.handlers call.handler).origin.eom = true := by
      rcases (hs call.handler).1.answered with he | ⟨-, ⟨site, hne, he, -⟩ | ⟨-, heom⟩⟩
      · rw [he] at hsite; cases hsite
      · rw [he] at hsite; exact absurd (List.mem_singleton.1 hsite).symm hne
      · exact heom
    obtain ⟨-, hchunks, hheaders⟩ := hP.eom heom
    exact ⟨hheaders.trans hh, body, by rw [hchunks]; exact hb, hc⟩
  intro call hcall
  rcases step_shared hs h with hsh | ⟨call', hadd⟩
  · rw [hsh] at hcall
    exact hold call hcall
  · rw [adds_of_added hadd] at hcall
    rcases List.mem_append.1 hcall with hcall | hcall
    · exact hold call hcall
    · obtain rfl := List.mem_singleton.1 hcall
      obtain ⟨body, hb, hc⟩ := hadd.chain
      rw [handler_of_added hadd hs]
      exact ⟨by rw [hc]; rfl, hadd.done, fun _ => ⟨hadd.headers, body, hb, hc⟩⟩

theorem agree_reachable (h : Reachable ext cfg s) : HitsAgree ext cfg s ∧ MissesAgree s := by
  obtain ⟨dir, writeToDisk, es, hrun⟩ := h
  let P : System → Prop := fun s => HandlersInv ext s ∧ HitsAgree ext cfg s ∧ MissesAgree s
  have hstep : ∀ s e s', P s → step ext cfg s e = some s' → P s' := fun s e s' hp he =>
    ⟨handlersInv_step hp.1 he, hitsAgree_step hp.1 hp.2.1 he, missesAgree_step hp.1 hp.2.2 he⟩
  have hinit : P (init dir writeToDisk) :=
    ⟨handlersInv_init ext dir writeToDisk, fun _ _ _ hu => (by cases hu), fun _ hc => (by cases hc)⟩
  exact (Run.run_inv hstep es hinit hrun).2

end

end System

end GladiusMasternode
