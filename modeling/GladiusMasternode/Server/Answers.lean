import GladiusMasternode.Router.Redirect
import GladiusMasternode.Server.Step
/-
# One answer to each request

A handler keeps its request, and what it has sent stays sent (`Kept`). A proxy handler never sends a
second response (`Inv.answered`); the other handlers have sent theirs when `onRequest` is over, and
only `RedirectHandler` can send two, to a request whose empty Host passes for an empty domain.
-/

namespace GladiusMasternode

namespace Exchange

/-- The complete responses sent to the client. -/
def responses (x : Exchange) : List Response :=
  x.client.uses.filterMap fun u => match u.act with
    | .response _ r => some r
    | _ => none

theorem length_responses (x : Exchange) : x.responses.length = x.sites.length := by
  unfold responses sites
  induction x.client.uses with
  | nil => rfl
  | cons u us ih => cases hact : u.act <;> simp [responseSite, hact, ih]

/-- There is at most one. -/
theorem Inv.length_responses_le {ext : External} {x : Exchange} (hI : Inv ext x) :
    x.responses.length ≤ 1 := by
  rw [length_responses]
  rcases hI.answered with hs | ⟨-, ⟨site, -, hs, -⟩ | ⟨hs, -⟩⟩ <;> simp [hs]

theorem Progress.responses {x y : Exchange} (h : Progress x y) : x.responses <+: y.responses :=
  h.uses.filterMap _

end Exchange

namespace RedirectHandler

theorem early_of_host {url : URL} {host : String} (hhost : host ≠ "") : early url host = [] := by
  unfold early
  simp [String.isEmpty_iff, hhost]

end RedirectHandler

namespace Server

variable {R : Type} [Field R] {env : Env R} {s s' t : Server R} {e : Event}

/-- The complete responses sent to the client of a handler. -/
def responses (s : Server R) (i : Nat) : List Response :=
  match s.slots i with
  | some (.proxy _) => (s.system.handlers i).responses
  | some (.immediate h) => h.sent
  | none => []

/-! ## What becomes of a slot -/

inductive Kept : Option Slot → Option Slot → Prop
  | none (b : Option Slot) : Kept none b
  | proxy (q : Incoming) : Kept (some (.proxy q)) (some (.proxy q))
  | immediate {h h' : Immediate} (hrouted : h'.routed = h.routed) (hreq : h'.request = h.request)
      (hsent : h'.sent = h.sent) : Kept (some (.immediate h)) (some (.immediate h'))

theorem Kept.refl (a : Option Slot) : Kept a a := by
  rcases a with _ | ⟨q | h⟩
  · exact .none _
  · exact .proxy q
  · exact .immediate rfl rfl rfl

theorem Kept.trans {a b c : Option Slot} (h : Kept a b) (h' : Kept b c) : Kept a c := by
  cases h with
  | none => exact .none c
  | proxy q => exact h'
  | immediate hrouted hreq hsent =>
    cases h' with
    | immediate hrouted' hreq' hsent' =>
      exact .immediate (hrouted'.trans hrouted) (hreq'.trans hreq) (hsent'.trans hsent)

omit [Field R] in
theorem kept_setSlot {i : Nat} {slot : Slot} (h : Kept (s.slots i) (some slot)) (j : Nat) :
    Kept (s.slots j) ((s.setSlot i slot).slots j) := by
  by_cases hji : j = i
  · rw [hji, setSlot_same]
    exact h
  · rw [setSlot_other s slot hji]
    exact .refl _

theorem kept_step (h : step env s e = some s') (j : Nat) : Kept (s.slots j) (s'.slots j) := by
  cases step_cases h with
  | @proxied i q addrOk now system hfree hroute hsys =>
    refine kept_setSlot ?_ j
    rw [show (Server.mk system s.state_ s.slots).slots i = s.slots i from rfl, hfree]
    exact .none _
  | @answered i q addrOk now sent hfree hroute hsent =>
    refine kept_setSlot ?_ j
    rw [hfree]
    exact .none _
  | called hslot hnew hsys => exact .refl _
  | @told i e h h' hslot hdel =>
    refine kept_setSlot ?_ j
    rw [hslot]
    obtain ⟨-, rfl | rfl⟩ := deliver_cases hdel
    · exact .immediate rfl rfl rfl
    · exact .immediate rfl rfl rfl
  | polled p => exact .refl _

theorem kept_run {es : List Event} (h : Run.run (step env) s es = some t) (j : Nat) :
    Kept (s.slots j) (t.slots j) :=
  @Run.run_rel _ _ (step env) (fun _ => True) (fun s t => Kept (s.slots j) (t.slots j))
    (fun _ => .refl _) (fun _ _ _ => .trans) (fun _ _ _ _ _ => trivial)
    (fun _ _ _ _ h => kept_step h j) es s t trivial h

/-! ## The answers on the spot -/

omit [Field R] in
/-- A Host that passes for the domain is empty only if the domain is. -/
theorem domain_of_redirect {q : Incoming} (hroute : route env q = .redirect)
    (hhost : (q.m.ensureHostHeader env.url).headers.rawGet "Host" = "") :
    env.config.protected_domain = "" := by
  obtain ⟨hvalid, -⟩ := Router.onRequest_redirect_iff.1 hroute
  rw [hhost, Router.requestIsValid_iff] at hvalid
  have hport : ∀ port : String, "" ≠ env.config.protected_domain ++ ":" ++ port := by
    intro port heq
    have hlen := congrArg (fun s => s.toList.length) heq
    simp at hlen
  rcases hvalid with h | ⟨-, h⟩ | h
  · exact h.symm
  · exact absurd h (hport _)
  · exact absurd h (hport _)

theorem answer_redirect {q : Incoming} {sent : List Response}
    (h : s.answer env q .redirect = some sent) : ∃ location,
      sent = RedirectHandler.early (env.url.parse q.m.url)
        ((q.m.ensureHostHeader env.url).headers.rawGet "Host") ++
          [RedirectHandler.temporaryRedirect location] := by
  have heq := @RedirectHandler.onRequest_eq env.url env.config (q.m.ensureHostHeader env.url)
  dsimp only at heq
  rw [HTTPMessage.ensureHostHeader_url] at heq
  unfold answer at h
  dsimp only at h
  rw [heq] at h
  by_cases hpath : (env.url.parse q.m.url).path = ""
  · simp [hpath] at h
  · simp only [hpath, if_false, Bool.false_eq_true, Option.some.injEq] at h
    exact ⟨_, h.symm⟩

/-- A handler that answers on the spot answers once, but for the redirect of an empty host. -/
theorem length_answer {q : Incoming} {sent : List Response} (hroute : route env q ≠ .proxy)
    (h : s.answer env q (route env q) = some sent) : 1 ≤ sent.length ∧
      (sent.length ≤ 1 ∨ env.config.protected_domain = "" ∧ route env q = .redirect) := by
  cases hr : route env q with
  | reject statusCode msg =>
    rw [hr] at h
    obtain rfl := Option.some.inj h
    exact ⟨Nat.le_refl 1, .inl (Nat.le_refl 1)⟩
  | redirect =>
    rw [hr] at h
    obtain ⟨location, rfl⟩ := answer_redirect h
    refine ⟨by simp, ?_⟩
    by_cases hhost : (q.m.ensureHostHeader env.url).headers.rawGet "Host" = ""
    · exact .inr ⟨domain_of_redirect hr hhost, rfl⟩
    · rw [RedirectHandler.early_of_host hhost]
      exact .inl (Nat.le_refl 1)
  | direct =>
    rw [hr] at h
    obtain ⟨r, -, rfl⟩ := Option.map_eq_some_iff.1 h
    exact ⟨Nat.le_refl 1, .inl (Nat.le_refl 1)⟩
  | serviceWorker =>
    rw [hr] at h
    obtain rfl := Option.some.inj h
    exact ⟨Nat.le_refl 1, .inl (Nat.le_refl 1)⟩
  | proxy => exact absurd hr hroute

/-- **One answer to each request.** In every run of a masternode, whatever the handlers are doing at
the same time: the responses to a client are never taken back or changed; there is at most one, unless
the domain is empty and the request redirected; a handler that answers on the spot has sent one, and
is deleted once, at its end. -/
theorem answered_once (h : Reachable env s) {es : List Event}
    (hrun : Run.run (step env) s es = some t) (i : Nat) :
    s.responses i <+: t.responses i ∧
    ((t.responses i).length ≤ 1 ∨ env.config.protected_domain = "" ∧
      ∃ g, t.slots i = some (.immediate g) ∧ g.routed = .redirect) ∧
    ∀ g, t.slots i = some (.immediate g) →
      1 ≤ g.sent.length ∧ g.deletes = if g.done then 1 else 0 := by
  have ht := h.run hrun
  have hI := System.handlersInv_reachable ht.system
  have hfirst : ∀ g, t.slots i = some (.immediate g) → 1 ≤ g.sent.length ∧
      (g.sent.length ≤ 1 ∨ env.config.protected_domain = "" ∧ g.routed = .redirect) ∧
      g.deletes = if g.done then 1 else 0 := by
    intro g hg
    obtain ⟨hrouted, hproxy, hdel⟩ := (sound_reachable ht).answered i g hg
    obtain ⟨dir, geo_ip_enabled, db, fs, hfs⟩ := ht
    obtain ⟨-, -, -, -, u, -, -, hsent⟩ := answered_at hfs hg
    rw [hrouted] at hsent hproxy ⊢
    obtain ⟨hpos, hle⟩ := length_answer hproxy hsent
    exact ⟨hpos, hle, hdel⟩
  refine ⟨?_, ?_, fun g hg => ⟨(hfirst g hg).1, (hfirst g hg).2.2⟩⟩
  · have hkept := kept_run hrun i
    unfold responses
    cases hs : s.slots i with
    | none => exact List.nil_prefix
    | some slot =>
      rw [hs] at hkept
      generalize t.slots i = b at hkept ⊢
      cases hkept with
      | proxy q =>
        obtain ⟨es', hes'⟩ := system_run hrun
        exact (System.progress_run (System.handlersInv_reachable h.system) hes' i).responses
      | immediate hrouted hreq hsent =>
        dsimp only
        rw [hsent]
  · unfold responses
    cases hs : t.slots i with
    | none => exact .inl (Nat.zero_le 1)
    | some slot =>
      cases slot with
      | proxy q => exact .inl (hI i).1.length_responses_le
      | immediate g =>
        rcases (hfirst g hs).2.1 with hle | ⟨hdomain, hrouted⟩
        · exact .inl hle
        · exact .inr ⟨hdomain, g, rfl, hrouted⟩

theorem answered_once_visits : ∃ t, Scenario.serve Scenario.visits = some t ∧
    ((t.responses 1).length ≤ 1 ∨ Scenario.env.config.protected_domain = "" ∧
      ∃ g, t.slots 1 = some (.immediate g) ∧ g.routed = .redirect) ∧
    ∀ g, t.slots 1 = some (.immediate g) →
      1 ≤ g.sent.length ∧ g.deletes = if g.done then 1 else 0 := by
  obtain ⟨t, ht⟩ := Option.isSome_iff_exists.1
    (show (Scenario.serve Scenario.visits).isSome = true by decide +kernel)
  exact ⟨t, ht, (answered_once ⟨_, _, _, [], rfl⟩ ht 1).2⟩

end Server

end GladiusMasternode
