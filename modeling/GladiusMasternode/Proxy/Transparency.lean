import GladiusMasternode.Cache.Agreement
/-
# Status and header fields

Neither response is the origin's. `originOnEOM` builds a `200 OK` with the origin's Content-Type, and
a cache hit is a `200 OK` with five of the stored fields.

| here | there |
| --- | --- |
| `Carries`     | a field is among those sent, under its name in any case |
| `Transparent` | what the first client and the later ones would get from a proxy that passes things on |
| `Plain`       | the origin heads that come through |
-/

namespace GladiusMasternode

namespace Response

def Carries (r : Response) (field : String × String) : Prop :=
  ∃ sent ∈ r.sentHeaders, sameName sent.1 field.1 = true ∧ sent.2 = field.2

end Response

theorem sameName_comm (a b : String) : sameName a b = sameName b a := by
  unfold sameName
  exact Bool.beq_comm

/-- A head that `originOnEOM` repeats: a 200 whose end-to-end fields are one Content-Type, and the
length of the body if any. -/
def HTTPMessage.Plain (ext : External) (m : HTTPMessage) (length : Nat) : Prop :=
  m.statusCode = 200 ∧ ∀ field ∈ m.headers, ext.perHop m.headers field.1 = false →
    sameName field.1 "Content-Type" = true ∧
      (m.headers.values "Content-Type" = [field.2] ∨ field.2 = "") ∨
    sameName field.1 "Content-Length" = true ∧ field.2 = toString length

namespace Exchange

theorem carries_originResponse_iff {m : HTTPMessage} {body : IOBuf} {field : String × String}
    (hfield : field ∈ m.headers) : (originResponse m body).Carries field ↔
      sameName field.1 "Content-Type" = true ∧
        (m.headers.values "Content-Type" = [field.2] ∨ field.2 = "") ∨
      sameName field.1 "Content-Length" = true ∧ field.2 = toString body.bytes.length := by
  have hsent : (originResponse m body).sentHeaders =
      [("Content-Type", m.headers.rawGet "Content-Type"),
        ("Content-Length", toString body.bytes.length)] := rfl
  have htype : sameName field.1 "Content-Type" = true →
      (m.headers.rawGet "Content-Type" = field.2 ↔
        m.headers.values "Content-Type" = [field.2] ∨ field.2 = "") :=
    fun hname => HTTPHeaders.rawGet_eq_iff (HTTPHeaders.mem_values hfield hname)
  unfold Response.Carries
  rw [hsent]
  simp only [List.mem_cons, List.not_mem_nil, or_false, exists_eq_or_imp, exists_eq_left,
    sameName_comm _ field.1]
  refine or_congr (and_congr_right htype) (and_congr_right fun _ => eq_comm)

end Exchange

namespace System

section
variable {ext : External} {cfg : Config} {s s' : System}

/-- The origin's head `m` has come through at handler `i`: to its client, and in status to every
client that gets a hit for its url from then on. -/
structure Transparent (ext : External) (cfg : Config) (s : System) (i : Nat) (m : HTTPMessage) :
    Prop where
  sent : ∃ u ∈ (s.handlers i).client.uses, ∃ r, u.act = .response .originEOM r ∧
    r.status = m.statusCode ∧
    ∀ field ∈ m.headers, ext.perHop m.headers field.1 = false → r.Carries field
  hits : ∀ es t j u r req req', Run.run (step ext cfg) s es = some t →
    (s.handlers i).client.request = some req →
    (s.handlers j).sites = [] → (t.handlers j).client.request = some req' →
    ext.getUrl req'.url = ext.getUrl req.url → u ∈ (t.handlers j).client.uses →
    u.act = .response .cacheHit r → r.status = m.statusCode

/-- A hit has status 200, whatever the origin's was. -/
theorem status_of_hit (h : Reachable ext cfg s) {j : Nat} {u : Use} {r : Response}
    (hu : u ∈ (s.handlers j).client.uses) (hr : u.act = .response .cacheHit r) : r.status = 200 := by
  obtain ⟨req, route, -, -, hhit⟩ := (agree_reachable h).1 j u r hu hr
  rw [hhit]
  rfl

/-- After `originOnEOM` with the client connected there is the response built from the origin's head
and body, and no other one from this site. -/
theorem answered_of_originOnEOM {i : Nat} {now : Option AddIO} {m : HTTPMessage}
    (h : Reachable ext cfg s) (hheaders : (s.handlers i).origin.headers = some m)
    (hopen : (s.handlers i).client.done = false) (hbody : (s.handlers i).origin.chunks ≠ [])
    (hstep : step ext cfg s (i, .originOnEOM now) = some s') :
    ∃ body, IOBuf.concat (s.handlers i).origin.chunks = some body ∧
      (∃ u ∈ (s'.handlers i).client.uses,
        u.act = .response .originEOM (Exchange.originResponse m body)) ∧
      ∀ u ∈ (s'.handlers i).client.uses, ∀ r, u.act = .response .originEOM r →
        r = Exchange.originResponse m body := by
  have hI := inv_exchange (handlersInv_reachable h) i
  obtain ⟨hadm, -, hnext⟩ := step_some hstep
  have hx : s'.handlers i = (s.exchange i).deliver ext cfg (.originOnEOM now) := by
    rw [hnext]
    simp
  have horigin : (s'.handlers i).origin = { (s.handlers i).origin with eom := true } := by
    rw [hx, Exchange.origin_originOnEOM]
    rfl
  have hsite : .originEOM ∈ (s'.handlers i).sites := by
    have hsome : (s.exchange i).origin.headers ≠ none := by
      rw [show (s.exchange i).origin.headers = some m from hheaders]
      exact Option.some_ne_none m
    rw [hx, Exchange.sites_originOnEOM hI hopen hsome,
      if_neg (show ¬ (s.exchange i).origin.chunks = [] from hbody)]
    exact List.mem_append_right _ (List.mem_singleton_self _)
  obtain ⟨body, hb⟩ := Option.ne_none_iff_exists'.1 fun hnone => hbody (IOBuf.concat_eq_none.1 hnone)
  have honly : ∀ u ∈ (s'.handlers i).client.uses, ∀ r, u.act = .response .originEOM r →
      r = Exchange.originResponse m body := by
    intro u hu r hr
    obtain ⟨-, m', body', hm', hb', hresp⟩ := answered_reachable (h.step hstep) i u hu r hr
    rw [horigin] at hm' hb'
    obtain rfl : m = m' := Option.some.inj (hheaders.symm.trans hm')
    obtain rfl : body = body' := Option.some.inj (hb.symm.trans hb')
    exact hresp
  obtain ⟨u, hu, r, hr⟩ := Exchange.mem_sites_iff.1 hsite
  exact ⟨body, hb, ⟨u, hu, by rw [hr, honly u hu r hr]⟩, honly⟩

/-- **Transparent or not.** The origin's status and end-to-end fields reach the client, and its
status the later clients, exactly if the head is a plain one. -/
theorem transparent_iff_plain {i : Nat} {now : Option AddIO} {m : HTTPMessage}
    (h : Reachable ext cfg s) (hheaders : (s.handlers i).origin.headers = some m)
    (hopen : (s.handlers i).client.done = false) (hbody : (s.handlers i).origin.chunks ≠ [])
    (hstep : step ext cfg s (i, .originOnEOM now) = some s') :
    Transparent ext cfg s' i m ↔
      m.Plain ext ((s.handlers i).origin.chunks.map IOBuf.bytes).flatten.length := by
  obtain ⟨body, hb, ⟨u, hu, hr⟩, honly⟩ := answered_of_originOnEOM h hheaders hopen hbody hstep
  rw [← IOBuf.bytes_concat hb]
  constructor
  · rintro ⟨⟨v, hv, r, hr, hstatus, hfields⟩, -⟩
    obtain rfl := honly v hv r hr
    refine ⟨hstatus.symm, fun field hfield hend => ?_⟩
    exact (Exchange.carries_originResponse_iff hfield).1 (hfields field hfield hend)
  · rintro ⟨hstatus, hfields⟩
    constructor
    · refine ⟨u, hu, _, hr, hstatus.symm, fun field hfield hend => ?_⟩
      exact (Exchange.carries_originResponse_iff hfield).2 (hfields field hfield hend)
    · intro es t j u r req req' hrun hreq hnew hreq' hurl hu hr
      rw [hstatus]
      exact status_of_hit ((h.step hstep).run hrun) hu hr

theorem transparent_of_page : ∃ s s',
    Scenario.run (Scenario.connected 0 ++ [(0, .originOnBody ⟨[111, 107], []⟩)]) = some s ∧
    step Scenario.ext {} s (0, .originOnEOM none) = some s' ∧
    Transparent Scenario.ext {} s' 0 Scenario.page := by
  obtain ⟨s, hs, hd⟩ := Option.map_eq_some_iff.1 (show (Scenario.run (Scenario.connected 0 ++
      [(0, .originOnBody ⟨[111, 107], []⟩)])).map (fun s => ((s.handlers 0).origin.headers,
        (s.handlers 0).client.done, (s.handlers 0).origin.chunks,
        (step Scenario.ext {} s (0, .originOnEOM none)).isSome)) =
    some (some Scenario.page, false, [⟨[111, 107], []⟩], true) by decide)
  simp only [Prod.mk.injEq] at hd
  obtain ⟨hheaders, hopen, hchunks, hstep⟩ := hd
  obtain ⟨s', hs'⟩ := Option.isSome_iff_exists.1 hstep
  have hbody : (s.handlers 0).origin.chunks ≠ [] := by
    rw [hchunks]
    exact List.cons_ne_nil _ _
  refine ⟨s, s', hs, hs', (transparent_iff_plain ⟨_, _, _, hs⟩ hheaders hopen hbody hs').2 ⟨rfl, ?_⟩⟩
  intro field hfield _
  rw [List.mem_singleton.1 hfield]
  exact .inl ⟨by decide, .inl (by decide)⟩

/-- An error page with a cookie. -/
def notFound : HTTPMessage :=
  { statusCode := 404, headers := [("Content-Type", "text/plain"), ("Set-Cookie", "a=1")] }

/-- What `originOnEOM` makes of it, and what a hit does. -/
def notFoundReply : Response :=
  { status := 200, message := "OK", headers := [("Content-Type", "text/plain")]
    body := some ⟨[110, 111], []⟩ }

def notFoundHit : Response :=
  { notFoundReply with
    headers := [("Content-Type", "text/plain"), ("Cache-Control", ""), ("ETag", ""), ("Expires", ""),
      ("Last-Modified", "")] }

/-- The page an origin sends with 404 goes to its client as a 200, and to the next one from the
cache as another. -/
theorem not_found_replayed : ∃ s s' t,
    Scenario.run [(0, .onRequest Scenario.get true none), (0, .connectSuccess), (0, .onEOM false),
      (0, .originOnHeadersComplete notFound), (0, .originOnBody ⟨[110, 111], []⟩)] = some s ∧
    step Scenario.ext {} s (0, .originOnEOM none) = some s' ∧
    Run.run (step Scenario.ext {}) s'
      [(0, .requestComplete Scenario.io), (1, .onRequest Scenario.get true none)] = some t ∧
    (s'.handlers 0).client.uses.getLast? = some ⟨.response .originEOM notFoundReply, false⟩ ∧
    (t.handlers 1).client.uses = [⟨.response .cacheHit notFoundHit, false⟩] ∧
    ¬ Transparent Scenario.ext {} s' 0 notFound := by
  obtain ⟨s, hs, hd⟩ := Option.map_eq_some_iff.1 (show (Scenario.run
      [(0, .onRequest Scenario.get true none), (0, .connectSuccess), (0, .onEOM false),
        (0, .originOnHeadersComplete notFound), (0, .originOnBody ⟨[110, 111], []⟩)]).map
    (fun s => (step Scenario.ext {} s (0, .originOnEOM none)).map fun s' =>
      ((s'.handlers 0).client.uses.getLast?, (s'.handlers 0).client.request, (s'.handlers 1).sites,
        (Run.run (step Scenario.ext {}) s' [(0, .requestComplete Scenario.io),
          (1, .onRequest Scenario.get true none)]).map fun t =>
            ((t.handlers 1).client.request, (t.handlers 1).client.uses))) =
    some (some (some ⟨.response .originEOM notFoundReply, false⟩, some Scenario.get, [],
      some (some Scenario.get, [⟨.response .cacheHit notFoundHit, false⟩]))) by rfl)
  obtain ⟨s', hs', hd⟩ := Option.map_eq_some_iff.1 hd
  simp only [Prod.mk.injEq] at hd
  obtain ⟨hlast, hreq, hnew, hd⟩ := hd
  obtain ⟨t, ht, hd⟩ := Option.map_eq_some_iff.1 hd
  simp only [Prod.mk.injEq] at hd
  obtain ⟨hreq', huses⟩ := hd
  refine ⟨s, s', t, hs, hs', ht, hlast, huses, fun htrans => ?_⟩
  have hstatus := htrans.hits _ t 1 _ _ _ _ ht hreq hnew hreq' rfl
    (by rw [huses]; exact List.mem_singleton_self _) rfl
  exact absurd hstatus (by decide)

end

end System

end GladiusMasternode
