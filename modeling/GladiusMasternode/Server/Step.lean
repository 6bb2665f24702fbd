import GladiusMasternode.Proxy.Invariant
import GladiusMasternode.Model.Server
/-
# What one step of the server does

Every step is taken apart once (`step_cases`). The proxy handlers and the cache inside a server only
ever take steps of their own `System` (`system_run`), so what holds of a `System` in every reachable
state holds of them. `Sound` ties the slots to the proxy handlers behind them and says what each
handler was created for.
-/

namespace GladiusMasternode

namespace Exchange

section
variable {ext : External} {cfg : Config} {x : Exchange}

theorem client_storeContent (io : AddIO) (req : HTTPMessage) :
    (x.storeContent ext io req).client = x.client := by
  unfold storeContent addCachedRoute
  split
  · split
    · split <;> rfl
    · rfl
  · rfl

/-- The last callback of the client transaction leaves the request as it is. -/
theorem request_mayComplete (now : Option AddIO) :
    (x.mayComplete ext now).client.request = x.client.request := by
  unfold mayComplete
  cases now with
  | none => rfl
  | some io =>
    dsimp only [deliverRequestComplete]
    unfold requestComplete
    dsimp only
    split
    · rfl
    · split
      · rw [client_storeContent]
        rfl
      · rw [checkForShutdown_eq]
        show ((touch _).storeContent ext io _).client.request = _
        rw [client_storeContent]
        rfl

theorem request_onRequest (headers : HTTPMessage) (addrOk : Bool) (now : Option AddIO) :
    (x.deliver ext cfg (.onRequest headers addrOk now)).client.request = some headers := by
  unfold deliver onRequest
  dsimp only
  split
  · exact request_mayComplete now
  · split
    · rfl
    · exact request_mayComplete now

end

end Exchange

/-- A step leaves the handlers that are not called back as they are. -/
theorem System.handlers_other {ext : External} {cfg : Config} {s s' : System}
    {e : Nat × GladiusMasternode.Event} (h : s.step ext cfg e = some s') {j : Nat} (hj : j ≠ e.1) :
    s'.handlers j = s.handlers j := by
  obtain ⟨-, -, rfl⟩ := System.step_some h
  exact if_neg hj

namespace Server

variable {R : Type}

@[simp] theorem setSlot_same (s : Server R) (i : Nat) (slot : Slot) :
    (s.setSlot i slot).slots i = some slot := if_pos rfl

@[simp] theorem setSlot_system (s : Server R) (i : Nat) (slot : Slot) :
    (s.setSlot i slot).system = s.system := rfl

@[simp] theorem setSlot_state (s : Server R) (i : Nat) (slot : Slot) :
    (s.setSlot i slot).state_ = s.state_ := rfl

theorem setSlot_other (s : Server R) {i j : Nat} (slot : Slot) (hj : j ≠ i) :
    (s.setSlot i slot).slots j = s.slots j := if_neg hj

variable [Field R] {env : Env R} {s s' t : Server R} {e : Event}

/-! ## The steps -/

/-- Everything that can happen to a server. -/
inductive Stepped (env : Env R) (s : Server R) : Event → Server R → Prop
  /-- a request that gets a proxy handler -/
  | proxied {i : Nat} {q : Incoming} {addrOk : Bool} {now : Option AddIO} {system : System}
      (hfree : s.slots i = none) (hroute : route env q = .proxy)
      (hsys : s.system.step env.ext env.config.toConfig
        (i, .onRequest (q.m.ensureHostHeader env.url) addrOk now) = some system) :
      Stepped env s (.request i q addrOk now)
        (({ s with system := system } : Server R).setSlot i (.proxy q))
  /-- a request that is answered on the spot -/
  | answered {i : Nat} {q : Incoming} {addrOk : Bool} {now : Option AddIO} {sent : List Response}
      (hfree : s.slots i = none) (hroute : route env q ≠ .proxy)
      (hsent : s.answer env q (route env q) = some sent) :
      Stepped env s (.request i q addrOk now)
        (s.setSlot i (.immediate { routed := route env q, request := q, sent := sent }))
  /-- a callback on a proxy handler -/
  | called {i : Nat} {e : GladiusMasternode.Event} {q : Incoming} {system : System}
      (hslot : s.slots i = some (.proxy q)) (hnew : ∀ headers addrOk now,
        e ≠ .onRequest headers addrOk now)
      (hsys : s.system.step env.ext env.config.toConfig (i, e) = some system) :
      Stepped env s (.callback i e) { s with system := system }
  /-- a callback on another handler -/
  | told {i : Nat} {e : GladiusMasternode.Event} {h h' : Immediate}
      (hslot : s.slots i = some (.immediate h)) (hdel : h.deliver e = some h') :
      Stepped env s (.callback i e) (s.setSlot i (.immediate h'))
  | polled (p : GatewayPoll) :
      Stepped env s (.poll p)
        { s with state_ := s.state_.map fun st => st.poll env.lib p.res p.time }

theorem onRequest_cases {i : Nat} {q : Incoming} {addrOk : Bool} {now : Option AddIO}
    (hfree : s.slots i = none) (h : s.onRequest env i q addrOk now = some s') :
    Stepped env s (.request i q addrOk now) s' := by
  unfold onRequest at h
  split at h <;> rename_i hroute
  · obtain ⟨u, hu, rfl⟩ := Option.map_eq_some_iff.1 h
    obtain ⟨system, hsys, rfl⟩ := Option.map_eq_some_iff.1 hu
    exact .proxied hfree hroute hsys
  · obtain ⟨sent, hsent, rfl⟩ := Option.map_eq_some_iff.1 h
    exact .answered hfree hroute hsent

/-- **Inversion.** A step of the server is one of them. -/
theorem step_cases (h : step env s e = some s') : Stepped env s e s' := by
  cases e with
  | request i q addrOk now =>
    unfold step at h
    dsimp only at h
    split at h
    · rename_i hfree
      exact onRequest_cases hfree h
    · cases h
  | callback i e =>
    unfold step at h
    dsimp only at h
    split at h
    · cases h
    · rename_i q hslot hnew
      obtain ⟨system, hsys, rfl⟩ := Option.map_eq_some_iff.1 h
      exact .called hslot (fun headers addrOk now => hnew headers addrOk now) hsys
    · rename_i g hslot
      obtain ⟨g', hdel, rfl⟩ := Option.map_eq_some_iff.1 h
      exact .told hslot hdel
    · cases h
  | poll p =>
    obtain rfl := Option.some.inj h
    exact .polled p

/-! ## The system inside -/

theorem system_step (h : step env s e = some s') :
    ∃ es, Run.run (System.step env.ext env.config.toConfig) s.system es = some s'.system := by
  cases step_cases h with
  | proxied hfree hroute hsys => exact ⟨[_], Run.run_cons_some.2 ⟨_, hsys, rfl⟩⟩
  | answered hfree hroute hsent => exact ⟨[], rfl⟩
  | called hslot hnew hsys => exact ⟨[_], Run.run_cons_some.2 ⟨_, hsys, rfl⟩⟩
  | told hslot hdel => exact ⟨[], rfl⟩
  | polled p => exact ⟨[], rfl⟩

theorem system_run {es : List Event} (h : Run.run (step env) s es = some t) :
    ∃ es', Run.run (System.step env.ext env.config.toConfig) s.system es' = some t.system :=
  Run.run_inside (fun (_ : Server R) _ _ hstep => system_step hstep) es h

theorem Reachable.run {es : List Event} (h : Reachable env s)
    (hrun : Run.run (step env) s es = some t) : Reachable env t := by
  obtain ⟨dir, geo, db, fs, hfs⟩ := h
  exact ⟨dir, geo, db, fs ++ es, Run.run_append.2 ⟨s, hfs, hrun⟩⟩

theorem Reachable.step (h : Reachable env s) (hstep : step env s e = some s') : Reachable env s' :=
  h.run (Run.run_cons_some.2 ⟨s', hstep, Run.run_nil s'⟩)

/-- The proxy handlers of a server and their cache are a `System` of their own. -/
theorem Reachable.system (h : Reachable env s) :
    System.Reachable env.ext env.config.toConfig s.system := by
  obtain ⟨dir, geo, db, es, hrun⟩ := h
  obtain ⟨es', hrun'⟩ := system_run hrun
  exact ⟨dir, env.config.enableP2P, es', hrun'⟩

/-! ## What the handlers were created for -/

structure Sound (env : Env R) (s : Server R) : Prop where
  proxied : ∀ i q, s.slots i = some (.proxy q) → route env q = .proxy ∧
    (s.system.handlers i).client.request = some (q.m.ensureHostHeader env.url)
  unused : ∀ i, (∀ q, s.slots i ≠ some (.proxy q)) → (s.system.handlers i).client.request = none
  answered : ∀ i h, s.slots i = some (.immediate h) → h.routed = route env h.request ∧
    h.routed ≠ .proxy ∧ h.deletes = if h.done then 1 else 0

/-- A callback at the end of a handler deletes it; no other changes it, and none comes later. -/
theorem deliver_cases {h h' : Immediate} {e : GladiusMasternode.Event} (hd : h.deliver e = some h') :
    h.done = false ∧ (h' = h ∨ h' = { h with done := true, deletes := h.deletes + 1 }) := by
  unfold Immediate.deliver at hd
  split at hd
  all_goals
    cases hopen : h.done <;> simp_all

omit [Field R] in
theorem sound_init (dir : String) (geo_ip_enabled : Bool) (db : Option GeoLite) :
    Sound env (init env dir geo_ip_enabled db) where
  proxied i q h := by cases h
  unused i _ := rfl
  answered i h hslot := by cases hslot

omit [Field R] in
theorem sound_setSlot {i : Nat} {h : Immediate} (hs : Sound env s)
    (hnot : ∀ q, s.slots i ≠ some (.proxy q))
    (hnew : h.routed = route env h.request ∧ h.routed ≠ .proxy ∧
      h.deletes = if h.done then 1 else 0) : Sound env (s.setSlot i (.immediate h)) where
  proxied j q hj := by
    by_cases hji : j = i
    · rw [hji, setSlot_same] at hj
      cases hj
    · rw [setSlot_other s _ hji] at hj
      exact hs.proxied j q hj
  unused j hj := by
    by_cases hji : j = i
    · rw [hji]
      exact hs.unused i hnot
    · refine hs.unused j fun q hq => hj q ?_
      rw [setSlot_other s _ hji]
      exact hq
  answered j g hj := by
    by_cases hji : j = i
    · rw [hji, setSlot_same] at hj
      cases hj
      exact hnew
    · rw [setSlot_other s _ hji] at hj
      exact hs.answered j g hj

theorem sound_step (hR : Reachable env s) (hs : Sound env s) (h : step env s e = some s') :
    Sound env s' := by
  have hI := System.handlersInv_reachable hR.system
  cases step_cases h with
  | @proxied i q addrOk now system hfree hroute hsys =>
    have hreq : (system.handlers i).client.request = some (q.m.ensureHostHeader env.url) := by
      obtain ⟨-, -, rfl⟩ := System.step_some hsys
      simp only [if_true]
      exact Exchange.request_onRequest _ _ _
    refine ⟨fun j r hj => ?_, fun j hj => ?_, fun j g hj => ?_⟩
    · by_cases hji : j = i
      · rw [hji, setSlot_same] at hj
        cases hj
        rw [hji]
        exact ⟨hroute, hreq⟩
      · rw [setSlot_other _ _ hji] at hj
        rw [setSlot_system, System.handlers_other hsys hji]
        exact hs.proxied j r hj
    · by_cases hji : j = i
      · exact absurd (by rw [hji, setSlot_same]) (hj q)
      · rw [setSlot_system, System.handlers_other hsys hji]
        refine hs.unused j fun r hr => hj r ?_
        rw [setSlot_other _ _ hji]
        exact hr
    · by_cases hji : j = i
      · rw [hji, setSlot_same] at hj
        cases hj
      · rw [setSlot_other _ _ hji] at hj
        exact hs.answered j g hj
  | @answered i q addrOk now sent hfree hroute hsent =>
    exact sound_setSlot hs (by simp [hfree]) ⟨rfl, hroute, rfl⟩
  | @called i e q system hslot hnew hsys =>
    have hkeep : ∀ j, (s.system.handlers j).client.request ≠ none →
        (system.handlers j).client.request = (s.system.handlers j).client.request := fun j =>
      (System.progress_step hI hsys j).request
    refine ⟨fun j r hj => ?_, fun j hj => ?_, hs.answered⟩
    · obtain ⟨hroute, hreq⟩ := hs.proxied j r hj
      exact ⟨hroute, (hkeep j (by rw [hreq]; simp)).trans hreq⟩
    · have hji : j ≠ i := by
        rintro rfl
        exact hj q hslot
      show (system.handlers j).client.request = none
      rw [System.handlers_other hsys hji]
      exact hs.unused j hj
  | @told i e g g' hslot hdel =>
    obtain ⟨hrouted, hproxy, hdels⟩ := hs.answered i g hslot
    have hnot : ∀ q, s.slots i ≠ some (.proxy q) := by simp [hslot]
    obtain ⟨hopen, rfl | rfl⟩ := deliver_cases hdel
    · exact sound_setSlot hs hnot ⟨hrouted, hproxy, hdels⟩
    · refine sound_setSlot hs hnot ⟨hrouted, hproxy, ?_⟩
      rw [hopen] at hdels
      exact congrArg (· + 1) hdels
  | polled p => exact ⟨hs.proxied, hs.unused, hs.answered⟩

theorem sound_reachable (h : Reachable env s) : Sound env s := by
  obtain ⟨dir, geo, db, es, hrun⟩ := h
  have hstep : ∀ s e s', Reachable env s ∧ Sound env s → step env s e = some s' →
      Reachable env s' ∧ Sound env s' := fun s e s' hp he =>
    ⟨hp.1.step he, sound_step hp.1 hp.2 he⟩
  exact (Run.run_inv hstep es ⟨⟨dir, geo, db, [], rfl⟩, sound_init dir geo db⟩ hrun).2

/-- The request of a handler that answers on the spot is an event of the run, and its responses are
the answer of the state that the request came in. -/
theorem answered_at {dir : String} {geo_ip_enabled : Bool} {db : Option GeoLite} {es : List Event}
    (hrun : Run.run (step env) (init env dir geo_ip_enabled db) es = some s) {i : Nat} {g : Immediate}
    (hslot : s.slots i = some (.immediate g)) :
    ∃ before addrOk now after u, es = before ++ .request i g.request addrOk now :: after ∧
      Run.run (step env) (init env dir geo_ip_enabled db) before = some u ∧
      u.answer env g.request g.routed = some g.sent := by
  induction es using List.reverseRecOn generalizing s g with
  | nil =>
    cases hrun
    cases hslot
  | append_singleton es e ih =>
    obtain ⟨u, hu, hlast⟩ := Run.run_append.1 hrun
    obtain ⟨s', hstep, hs'⟩ := Run.run_cons_some.1 hlast
    obtain rfl := Option.some.inj hs'
    -- a slot that was filled before
    have hearlier : ∀ g', u.slots i = some (.immediate g') → g'.request = g.request →
        g'.routed = g.routed → g'.sent = g.sent →
        ∃ before addrOk now after u, es ++ [e] = before ++ .request i g.request addrOk now :: after ∧
          Run.run (step env) (init env dir geo_ip_enabled db) before = some u ∧
          u.answer env g.request g.routed = some g.sent := by
      intro g' hg' hreq hrouted hsent
      obtain ⟨before, addrOk, now, after, v, hes, hv, hans⟩ := ih hu hg'
      rw [hreq, hrouted, hsent] at hans
      exact ⟨before, addrOk, now, after ++ [e], v, by rw [hes, hreq]; simp, hv, hans⟩
    cases step_cases hstep with
    | @proxied j q addrOk now system hfree hroute hsys =>
      by_cases hij : i = j
      · rw [hij, setSlot_same] at hslot
        cases hslot
      · rw [setSlot_other _ _ hij] at hslot
        exact hearlier g hslot rfl rfl rfl
    | @answered j q addrOk now sent hfree hroute hsent =>
      by_cases hij : i = j
      · rw [hij, setSlot_same] at hslot
        cases hslot
        exact ⟨es, addrOk, now, [], u, by rw [hij], hu, hsent⟩
      · rw [setSlot_other _ _ hij] at hslot
        exact hearlier g hslot rfl rfl rfl
    | called hslot' hnew hsys => exact hearlier g hslot rfl rfl rfl
    | @told j e g' g'' hslot' hdel =>
      by_cases hij : i = j
      · rw [hij, setSlot_same] at hslot
        cases hslot
        obtain ⟨-, heq | heq⟩ := deliver_cases hdel
        · exact hearlier g' (hij ▸ hslot') (by rw [heq]) (by rw [heq]) (by rw [heq])
        · exact hearlier g' (hij ▸ hslot') (by rw [heq]) (by rw [heq]) (by rw [heq])
      · rw [setSlot_other _ _ hij] at hslot
        exact hearlier g hslot rfl rfl rfl
    | polled p => exact hearlier g hslot rfl rfl rfl

end Server

end GladiusMasternode
