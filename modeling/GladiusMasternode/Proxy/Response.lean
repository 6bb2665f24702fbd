import GladiusMasternode.Proxy.Invariant
/-
# The answer to a finished origin response

`originOnEOM` answers only if `contentBody_` is set, and `contentBody_` is set by the first chunk. So
an origin response without a chunk is never passed on (`answered_iff_chunk`), and one with chunks
is passed on (`Replied`) with exactly their bytes (`Answered`).
-/

namespace GladiusMasternode

namespace Exchange

section
variable {ext : External} {cfg : Config} {x y : Exchange} {e : Event}

/-! ## `requestComplete` uses no transaction -/

theorem ends_checkForShutdown (x : Exchange) :
    (checkForShutdown x).2.client = x.client ∧ (checkForShutdown x).2.origin = x.origin := by
  rw [checkForShutdown_eq]
  exact ⟨rfl, rfl⟩

theorem ends_storeContent (io : AddIO) (req : HTTPMessage) (x : Exchange) :
    (storeContent ext io req x).client = x.client ∧ (storeContent ext io req x).origin = x.origin := by
  unfold storeContent addCachedRoute
  split
  · split
    · split <;> exact ⟨rfl, rfl⟩
    · exact ⟨rfl, rfl⟩
  · exact ⟨rfl, rfl⟩

theorem ends_requestComplete (io : AddIO) (x : Exchange) :
    (requestComplete ext io x).client = x.client ∧ (requestComplete ext io x).origin = x.origin := by
  unfold requestComplete
  dsimp only
  split
  · exact ⟨rfl, rfl⟩
  · split
    · exact ends_storeContent io _ _
    · rw [(ends_checkForShutdown _).1, (ends_checkForShutdown _).2]
      exact ends_storeContent io _ _

theorem origin_mayComplete (now : Option AddIO) (x : Exchange) :
    (mayComplete ext now x).origin = x.origin := by
  cases now with
  | none => rfl
  | some io =>
    simp only [mayComplete, deliverRequestComplete, (ends_requestComplete _ _).2]

theorem sites_mayComplete (now : Option AddIO) (x : Exchange) :
    (mayComplete ext now x).sites = x.sites := by
  cases now with
  | none => rfl
  | some io =>
    simp only [mayComplete, deliverRequestComplete, sites, (ends_requestComplete _ _).1]

theorem sites_sendWithEOM (now : Option AddIO) (site : Site) (r : Response) (x : Exchange) :
    (sendWithEOM ext now site r x).sites = x.sites ++ [site] := by
  rw [sendWithEOM, sites_mayComplete]
  simp [sites, use, responseSite]

/-! ## `originOnEOM` -/

theorem sites_originOnEOM {now : Option AddIO} (hI : Inv ext x) (hopen : x.client.done = false)
    (hheaders : x.origin.headers ≠ none) :
    (x.deliver ext cfg (.originOnEOM now)).sites =
      x.sites ++ if x.origin.chunks = [] then [] else [.originEOM] := by
  have hterm : x.this.clientTerminated_ = false := hI.terminated.trans hopen
  obtain ⟨hbody, hh⟩ := hI.content hterm
  obtain ⟨headers, hhd⟩ := Option.ne_none_iff_exists'.1 hheaders
  rw [hhd] at hh
  by_cases hc : x.origin.chunks = []
  · rw [IOBuf.concat_eq_none.2 hc] at hbody
    simp [deliver, originOnEOM, hh, hbody, hc]
    rfl
  · obtain ⟨body, hb⟩ := Option.ne_none_iff_exists'.1 (mt IOBuf.concat_eq_none.1 hc)
    rw [hb] at hbody
    simp [deliver, originOnEOM, hh, hbody, hc, hterm, sites_sendWithEOM]
    rfl

theorem origin_originOnEOM (now : Option AddIO) (x : Exchange) :
    (x.deliver ext cfg (.originOnEOM now)).origin = { x.origin with eom := true } := by
  unfold deliver originOnEOM
  dsimp only
  split
  · split
    · rw [sendWithEOM, origin_mayComplete]
      rfl
    · rfl
  · rfl

/-- What `originOnEOM` has sent is the origin's answer. -/
def Answered (x : Exchange) : Prop :=
  ∀ u ∈ x.client.uses, ∀ r, u.act = .response .originEOM r → x.origin.eom = true ∧
    ∃ headers body, x.origin.headers = some headers ∧ IOBuf.concat x.origin.chunks = some body ∧
      r = originResponse headers body

theorem Answered.of_append {us : List Use} (hA : Answered x) (hP : Progress x y)
    (huses : y.client.uses = x.client.uses ++ us) (hus : ∀ u ∈ us, responseSite u ≠ some .originEOM) :
    Answered y := by
  intro u hu r hr
  rw [huses] at hu
  rcases List.mem_append.1 hu with hu | hu
  · obtain ⟨heom, headers, body, hh, hb, he⟩ := hA u hu r hr
    obtain ⟨heom', hc, hh'⟩ := hP.eom heom
    exact ⟨heom', headers, body, hh'.trans hh, by rw [hc]; exact hb, he⟩
  · exact absurd (by rw [responseSite, hr]) (hus u hu)

theorem Answered.of_same (hA : Answered x) (hP : Progress x y)
    (huses : y.client.uses = x.client.uses) : Answered y :=
  hA.of_append hP (huses.trans (List.append_nil _).symm) (by simp)

theorem answered_called (hI : Inv ext x) (hA : Answered x) (h : Called ext cfg x y) : Answered y := by
  have hP := progress_called hI h
  cases h with
  | originAnswered headers body hatt heom hok hopen hheaders hbody =>
    obtain ⟨hb, hh⟩ := hI.content (hI.terminated.trans hopen)
    intro u hu r hr
    rcases List.mem_append.1 hu with hu | hu
    · rw [(hA u hu r hr).1] at heom; cases heom
    · rw [List.mem_singleton.1 hu] at hr
      simp only [Down.response.injEq, true_and] at hr
      exact ⟨rfl, headers, body, hh.symm.trans hheaders, hb.symm.trans hbody, hr.symm⟩
  | hit headers route hnew hroute => exact hA.of_append hP rfl (by simp [responseSite])
  | badAddress headers hnew hroute => exact hA.of_append hP rfl (by simp [responseSite])
  | connect headers hnew hroute => exact hA.of_append hP rfl (by simp [responseSite])
  | connectSuccess req hconn hlive hreq => exact hA.of_append hP rfl (by simp [responseSite])
  | connectError hconn hlive hopen => exact hA.of_append hP rfl (by simp [responseSite])
  | originOnError hatt hok =>
    exact hA.of_append hP rfl (by cases x.client.done <;> simp [responseSite])
  | _ => exact hA.of_same hP rfl

theorem answered_completed (hA : Answered x) (h : Completed ext x y) : Answered y := by
  apply hA.of_same (progress_completed h)
  obtain ⟨-, -, sh, -, rfl⟩ := h
  rfl

theorem answered_detached (hA : Answered x) (h : Detached x y) : Answered y := by
  apply hA.of_same (progress_detached h)
  obtain ⟨-, rfl⟩ := h
  rfl

theorem answered_delivered (hI : Inv ext x) (hA : Answered x) (h : Delivered ext cfg x e y) :
    Answered y := by
  refine h.rule hI hA ?_ ?_ ?_ ?_
  · intro y h
    exact answered_called hI hA h
  · intro y z _ hy h
    exact answered_completed hy h
  · intro y z _ hy h
    exact answered_detached hy h
  · intro y _ hopen _ h
    apply hA.of_same (progress_aborted hopen h)
    rw [Aborted] at h
    rw [h]

/-- What has come in full to a connected client has been answered. -/
def Replied (x : Exchange) : Prop :=
  x.origin.eom = true → x.client.done = false → x.origin.headers ≠ none → x.origin.chunks ≠ [] →
    .originEOM ∈ x.sites

/-- More uses of `downstream_` take no answer back. -/
theorem Replied.of_append {us : List Use} (hR : Replied x)
    (huses : y.client.uses = x.client.uses ++ us) (hdone : y.client.done = x.client.done)
    (heom : y.origin.eom = x.origin.eom) (hheaders : y.origin.headers = x.origin.headers)
    (hchunks : y.origin.chunks = x.origin.chunks) : Replied y := by
  unfold Replied
  rw [hdone, heom, hheaders, hchunks, sites_append huses]
  intro he ho hh hc
  exact List.mem_append_left _ (hR he ho hh hc)

end

end Exchange

namespace System

section
variable {ext : External} {cfg : Config} {s s' : System}

theorem answered_reachable (h : Reachable ext cfg s) (i : Nat) : Exchange.Answered (s.handlers i) :=
  handler_inv (fun _ _ hA => hA) (fun _ _ hu => by cases hu)
    (fun _ _ _ hI hA hd => Exchange.answered_delivered hI hA hd) h i

/-- **Answered or not.** When the origin's EOM reaches a handler with the origin's headers and a
connected client, the client has got exactly one response at the end of `originOnEOM` exactly if
the origin has sent at least one chunk of body. -/
theorem answered_iff_chunk {i : Nat} {now : Option AddIO} (h : Reachable ext cfg s)
    (hheaders : (s.handlers i).origin.headers ≠ none) (hopen : (s.handlers i).client.done = false)
    (hstep : step ext cfg s (i, .originOnEOM now) = some s') :
    (s'.handlers i).sites.length = 1 ↔ (s.handlers i).origin.chunks ≠ [] := by
  have hI := inv_exchange (handlersInv_reachable h) i
  obtain ⟨hadm, -, rfl⟩ := step_some hstep
  simp only [Exchange.admissible, Bool.and_eq_true, Bool.not_eq_true'] at hadm
  have hsites : (s.exchange i).sites = [] := hI.unanswered hadm.1.1 hadm.1.2
  simp only [if_true]
  rw [Exchange.sites_originOnEOM hI hopen hheaders, hsites]
  by_cases hc : (s.handlers i).origin.chunks = []
  · simp [exchange, hc]
  · simp [exchange, hc]

theorem answered_iff_chunk_ok : ∃ s s', Scenario.run (Scenario.connected 0 ++
      [(0, .originOnBody ⟨[111, 107], []⟩)]) = some s ∧
    step Scenario.ext {} s (0, .originOnEOM none) = some s' ∧
    ((s'.handlers 0).sites.length = 1 ↔ (s.handlers 0).origin.chunks ≠ []) := by
  obtain ⟨s, hs, hd⟩ := Option.map_eq_some_iff.1 (show (Scenario.run (Scenario.connected 0 ++
    [(0, .originOnBody ⟨[111, 107], []⟩)])).map (fun s => ((s.handlers 0).origin.headers.isSome,
      (s.handlers 0).client.done, (step Scenario.ext {} s (0, .originOnEOM none)).isSome)) =
    some (true, false, true) by decide)
  simp only [Prod.mk.injEq] at hd
  obtain ⟨s', hs'⟩ := Option.isSome_iff_exists.1 hd.2.2
  exact ⟨s, s', hs, hs', answered_iff_chunk ⟨_, _, _, hs⟩
    (Option.isSome_iff_ne_none.1 hd.1) hd.2.1 hs'⟩

/-- The origin answers 204, its EOM arrives, and the client is still connected and has got nothing. -/
theorem no_content_unanswered : ∃ s, Scenario.run [(0, .onRequest Scenario.get true none),
      (0, .connectSuccess), (0, .onEOM false), (0, .originOnHeadersComplete { statusCode := 204 }),
      (0, .originOnEOM none)] = some s ∧
    ((s.handlers 0).origin.headers.isSome, (s.handlers 0).origin.eom, (s.handlers 0).client.done,
      (s.handlers 0).sites) = (true, true, false, []) :=
  Option.map_eq_some_iff.1 (show (Scenario.run [(0, .onRequest Scenario.get true none),
      (0, .connectSuccess), (0, .onEOM false), (0, .originOnHeadersComplete { statusCode := 204 }),
      (0, .originOnEOM none)]).map
    (fun s => ((s.handlers 0).origin.headers.isSome, (s.handlers 0).origin.eom,
      (s.handlers 0).client.done, (s.handlers 0).sites)) = some (true, true, false, []) by decide)

/-- Nor is there an answer later. -/
theorem never_answered_of_no_chunk (h : Reachable ext cfg s) {i : Nat}
    (hc : (s.handlers i).origin.chunks = []) : .originEOM ∉ (s.handlers i).sites := by
  intro hmem
  obtain ⟨u, hu, r, hr⟩ := Exchange.mem_sites_iff.1 hmem
  obtain ⟨-, headers, body, -, hb, -⟩ := answered_reachable h i u hu r hr
  rw [IOBuf.concat_eq_none.2 hc] at hb
  cases hb

end

end System

end GladiusMasternode
