import GladiusMasternode.Proxy.Effects
/-
# The invariant of an exchange

Every effect keeps `Inv`, hence so does every callback and every run of any number of handlers
(`System.handlersInv_reachable`). This needs no assumption on which calls deliver their last callback
inside: even after the double delete of `onError` the two sides stay in step.
-/

namespace GladiusMasternode

namespace Exchange

section
variable {ext : External} {cfg : Config} {x y : Exchange} {e : Event}

theorem Inv.not_connecting (hI : Inv ext x) (hatt : x.origin.attached = true) :
    x.origin.connecting ≠ true := by
  intro hc
  rw [(hI.unsent (hI.waiting hc).1).1] at hatt
  cases hatt

theorem Inv.sent_ne_nil (hI : Inv ext x) (hatt : x.origin.attached = true) :
    x.origin.sent ≠ [] := by
  intro hs
  rw [(hI.unsent hs).1] at hatt
  cases hatt

/-- An attached origin transaction that has not ended leaves the answer to `originOnEOM`. -/
theorem Inv.unanswered (hI : Inv ext x) (hatt : x.origin.attached = true)
    (heom : x.origin.eom = false) : x.sites = [] := by
  rcases hI.answered with h | ⟨-, ⟨site, -, -, hs⟩ | ⟨-, he⟩⟩
  · exact h
  · exact absurd hs (hI.sent_ne_nil hatt)
  · rw [he] at heom; cases heom

/-- `answered` only asks of `sent` whether it is still empty. -/
theorem Inv.answered_sent {sent : List Upstream} (hI : Inv ext x)
    (h : x.origin.sent = [] → sent = []) :
    x.sites = [] ∨ x.origin.connecting = false ∧
      ((∃ site, site ≠ .originEOM ∧ x.sites = [site] ∧ sent = []) ∨
        x.sites = [.originEOM] ∧ x.origin.eom = true) := by
  rcases hI.answered with hs | ⟨hc, ⟨site, hsite, hs, hns⟩ | he⟩
  · exact .inl hs
  · exact .inr ⟨hc, .inl ⟨site, hsite, hs, h hns⟩⟩
  · exact .inr ⟨hc, .inr he⟩

theorem sites_append {us : List Use} (h : y.client.uses = x.client.uses ++ us) :
    y.sites = x.sites ++ us.filterMap responseSite := by
  simp [sites, h]

theorem mem_sites_iff {site : Site} :
    site ∈ x.sites ↔ ∃ u ∈ x.client.uses, ∃ r, u.act = .response site r := by
  unfold sites
  rw [List.mem_filterMap]
  refine exists_congr fun u => and_congr_right fun _ => ?_
  unfold responseSite
  cases u.act <;> simp

theorem inTime_append {us vs : List Use} (h : ∀ u ∈ us, u.terminated = false)
    (hv : ∀ v ∈ vs, v.terminated = false) : ∀ u ∈ us ++ vs, u.terminated = false := by
  intro u hu
  rcases List.mem_append.1 hu with hu | hu
  · exact h u hu
  · exact hv u hu

/-- What is left to check when `onRequest` has just stored the request and used `downstream_`. -/
theorem inv_answered_at_once {headers : HTTPMessage} {site : Site} {r : Response}
    (hI : Inv ext x) (hnew : x.client.request = none) (hsite : site ≠ .originEOM)
    {req : HTTPMessage} (hline : req.line = headers.line) :
    Inv ext { x.touch with
      this.request_ := some req
      client.request := some headers
      client.uses := x.client.uses ++ [⟨.response site r, x.this.clientTerminated_⟩] } := by
  obtain ⟨hc, ho⟩ := hI.idle hnew
  have hnc : x.origin.connecting = false := by rw [ho]
  have hns : x.origin.sent = [] := by rw [ho]
  have hsites : x.sites = [] := by simp [sites, hc]
  exact { hI with
    request := by simp [hline]
    idle := fun h => by cases h
    waiting := fun h => by rw [show x.origin.connecting = true from h] at hnc; cases hnc
    inTime := inTime_append hI.inTime (by simp [hI.terminated, hc])
    answered := .inr ⟨hnc, .inl ⟨site, hsite, by
      rw [@sites_append x _ _ rfl, hsites]; rfl, hns⟩⟩ }

theorem inv_called (hI : Inv ext x) (h : Called ext cfg x y) : Inv ext y := by
  cases h with
  | hit headers route hnew hroute => exact inv_answered_at_once hI hnew (by simp) rfl
  | badAddress headers hnew hroute => exact inv_answered_at_once hI hnew (by simp) rfl
  | connect headers hnew hroute =>
    obtain ⟨hc, ho⟩ := hI.idle hnew
    have hsites : x.sites = [] := by simp [sites, hc]
    have hs : sites { x.touch with
        this.request_ := some (headers.stripPerHopHeaders ext)
        client.request := some headers
        client.uses := x.client.uses ++ [⟨.pauseIngress, x.this.clientTerminated_⟩]
        client.ingressPaused := true
        origin.connecting := true } = [] := by
      rw [@sites_append x _ _ rfl, hsites]; rfl
    have hns : x.origin.sent = [] := by rw [ho]
    have hchunks : x.client.chunks = [] := by rw [hc]
    have heom : x.client.eom = false := by rw [hc]
    exact { hI with
      request := rfl
      idle := fun h => by cases h
      waiting := fun _ => ⟨hns, hchunks, heom, rfl, hs, rfl⟩
      inTime := inTime_append hI.inTime (by simp [hI.terminated, hc])
      answered := .inl hs }
  | onBody body hreq hopen heom hpause =>
    exact { hI with
      idle := fun h => absurd h hreq
      waiting := fun h => by rw [(hI.waiting h).2.2.2.1] at hpause; cases hpause
      unsent := fun h => hI.unsent (List.append_eq_nil_iff.1 h).1
      answered := hI.answered_sent fun hns => by simp [hns, (hI.unsent hns).1] }
  | onEOM hreq hopen heom hpause =>
    exact { hI with
      idle := fun h => absurd h hreq
      waiting := fun h => by rw [(hI.waiting h).2.2.2.1] at hpause; cases hpause
      unsent := fun h => hI.unsent (List.append_eq_nil_iff.1 h).1
      answered := hI.answered_sent fun hns => by simp [hns, (hI.unsent hns).1] }
  | onError hreq hopen =>
    exact { hI with
      terminated := rfl
      freed := by
        have hlive := hI.freed
        cases hatt : x.origin.attached <;> simp_all
      idle := fun h => absurd h hreq
      waiting := fun h => by
        obtain ⟨hns, hrest⟩ := hI.waiting h
        exact ⟨by simp [hns, (hI.unsent hns).1], hrest⟩
      unsent := fun h => hI.unsent (List.append_eq_nil_iff.1 h).1
      content := fun h => by cases h
      answered := hI.answered_sent fun hns => by simp [hns, (hI.unsent hns).1] }
  | connectSuccess req hconn hlive hreq =>
    obtain ⟨hns, hchunks, heom, hpause, hsites, -⟩ := hI.waiting hconn
    have hopen : x.client.done = false := by
      by_contra hd
      exact hI.freed.2 ⟨by simpa using hd, (hI.unsent hns).1⟩ hlive
    exact { hI with
      txn := rfl
      freed := by simp [hlive]
      request := by
        have hline := hI.request
        rw [hreq] at hline
        exact hline
      idle := fun h => absurd h (hI.requested_of_connecting hconn)
      waiting := fun h => by cases h
      unsent := fun h => by simp at h
      inTime := inTime_append hI.inTime (by simp [hI.terminated, hopen])
      answered := .inl (by rw [@sites_append x _ _ rfl, hsites]; rfl) }
  | connectError hconn hlive hopen =>
    obtain ⟨hns, hchunks, heom, hpause, hsites, -⟩ := hI.waiting hconn
    exact { hI with
      idle := fun h => absurd h (hI.requested_of_connecting hconn)
      waiting := fun h => by cases h
      inTime := inTime_append hI.inTime (by simp [hI.terminated, hopen])
      answered := .inr ⟨rfl, .inl ⟨.connectError, by simp, by
        rw [@sites_append x _ _ rfl, hsites]; rfl, hns⟩⟩ }
  | originOnHeadersComplete msg hatt hnone heom hok =>
    exact { hI with
      idle := fun h => absurd h (hI.requested_of_attached hatt)
      waiting := fun h => absurd h (hI.not_connecting hatt)
      unsent := fun h => absurd h (hI.sent_ne_nil hatt)
      content := fun h => by
        have hopen : x.client.done = false := by rw [← hI.terminated]; exact h
        exact ⟨(hI.content h).1, by simp [hopen]⟩ }
  | originOnBody chain hatt hheaders heom hok =>
    exact { hI with
      idle := fun h => absurd h (hI.requested_of_attached hatt)
      waiting := fun h => absurd h (hI.not_connecting hatt)
      unsent := fun h => absurd h (hI.sent_ne_nil hatt)
      content := fun h => by
        have hopen : x.client.done = false := by rw [← hI.terminated]; exact h
        obtain ⟨hb, hh⟩ := hI.content h
        exact ⟨by simp [hopen, hb, IOBuf.concat_append], hh⟩ }
  | originAnswered headers body hatt heom hok hopen hheaders hbody =>
    have hsites := hI.unanswered hatt heom
    exact { hI with
      idle := fun h => absurd h (hI.requested_of_attached hatt)
      waiting := fun h => absurd h (hI.not_connecting hatt)
      unsent := fun h => absurd h (hI.sent_ne_nil hatt)
      inTime := inTime_append hI.inTime (by simp [hI.terminated, hopen])
      answered := .inr ⟨by simpa using hI.not_connecting hatt, .inr ⟨by
        rw [@sites_append x _ _ rfl, hsites]; rfl, rfl⟩⟩ }
  | originUnanswered hatt heom hok hno =>
    exact { hI with
      idle := fun h => absurd h (hI.requested_of_attached hatt)
      waiting := fun h => absurd h (hI.not_connecting hatt)
      unsent := fun h => absurd h (hI.sent_ne_nil hatt)
      answered := .inl (hI.unanswered hatt heom) }
  | originOnError hatt hok =>
    have hs : sites { x.touch with
        client.uses := x.client.uses ++
          if x.client.done then [] else [⟨.sendAbort, x.this.clientTerminated_⟩]
        origin.failed := true } = x.sites := by
      rw [@sites_append x _ _ rfl]
      cases x.client.done <;> simp [responseSite]
    exact { hI with
      idle := fun h => absurd h (hI.requested_of_attached hatt)
      waiting := fun h => absurd h (hI.not_connecting hatt)
      unsent := fun h => absurd h (hI.sent_ne_nil hatt)
      inTime := inTime_append hI.inTime (by
        cases hopen : x.client.done <;> simp [hI.terminated, hopen])
      answered := by rw [hs]; exact hI.answered }
  | originFlow m hm hatt =>
    exact { hI with
      idle := fun h => absurd h (hI.requested_of_attached hatt)
      waiting := fun h => absurd h (hI.not_connecting hatt)
      unsent := fun h => absurd (List.append_eq_nil_iff.1 h).1 (hI.sent_ne_nil hatt)
      answered := hI.answered_sent fun hns => absurd hns (hI.sent_ne_nil hatt) }
  | ignored => exact hI

theorem inv_completed (hI : Inv ext x) (h : Completed ext x y) : Inv ext y := by
  obtain ⟨hreq, hopen, sh, -, rfl⟩ := h
  exact { hI with
    terminated := rfl
    freed := by
      have hlive := hI.freed
      cases hatt : x.origin.attached <;> simp_all
    idle := fun h => absurd h hreq
    content := fun h => by cases h }

theorem inv_detached (hI : Inv ext x) (h : Detached x y) : Inv ext y := by
  obtain ⟨hatt, rfl⟩ := h
  exact { hI with
    txn := rfl
    freed := by
      have hlive := hI.freed
      cases hopen : x.client.done <;> simp_all
    idle := fun h => absurd h (hI.requested_of_attached hatt)
    waiting := fun h => absurd h (hI.not_connecting hatt)
    unsent := fun h => absurd h (hI.sent_ne_nil hatt) }

theorem inv_aborted (hI : Inv ext x) (hreq : x.client.request ≠ none)
    (hatt : x.origin.attached = true) (h : Aborted x y) : Inv ext y := by
  rw [Aborted] at h
  subst h
  exact { hI with
    terminated := rfl
    txn := rfl
    freed := by simp
    idle := fun h => absurd h hreq
    waiting := fun h => absurd h (hI.not_connecting hatt)
    unsent := fun h => by simp at h
    content := fun h => by cases h
    answered := hI.answered_sent fun hns => absurd hns (hI.sent_ne_nil hatt) }

/-- What a method leads to and a last callback keeps holds after any callback; the double end of
`onError` has to be looked at by itself. -/
theorem Delivered.rule {Q : Exchange → Prop} (hI : Inv ext x) (hQ : Q x)
    (hcalled : ∀ y, Called ext cfg x y → Q y)
    (hcompleted : ∀ y z, Inv ext y → Q y → Completed ext y z → Q z)
    (hdetached : ∀ y z, Inv ext y → Q y → Detached y z → Q z)
    (haborted : ∀ y, AbortsInside x e → x.client.done = false → x.client.request ≠ none →
      Aborted x y → Q y)
    (h : Delivered ext cfg x e y) : Q y := by
  cases h with
  | called h => exact hcalled y h
  | completed io he h => exact hcompleted x y hI hQ h
  | detached h => exact hdetached x y hI hQ h
  | completedInside h hout hc => exact hcompleted _ y (inv_called hI h) (hcalled _ h) hc
  | detachedInside h hd => exact hdetached _ y (inv_called hI h) (hcalled _ h) hd
  | abortedInside hin hopen hreq h => exact haborted y hin hopen hreq h

theorem inv_delivered (hI : Inv ext x) (h : Delivered ext cfg x e y) : Inv ext y := by
  refine h.rule hI hI ?_ ?_ ?_ ?_
  · intro y h
    exact inv_called hI h
  · intro y z hy _ h
    exact inv_completed hy h
  · intro y z hy _ h
    exact inv_detached hy h
  · intro y hin _ hreq h
    exact inv_aborted hI hreq hin.2 h

/-! ## What only grows -/

/-- What a callback leaves as it was once it is there. -/
structure Progress (x y : Exchange) : Prop where
  id : y.id = x.id
  request : x.client.request ≠ none → y.client.request = x.client.request
  done : x.client.done = true → y.client.done = true ∧ y.client.uses = x.client.uses
  eom : x.origin.eom = true → y.origin.eom = true ∧ y.origin.chunks = x.origin.chunks ∧
    y.origin.headers = x.origin.headers
  uses : x.client.uses <+: y.client.uses
  deletes : x.deletes ≤ y.deletes
  touched : x.touched = true → y.touched = true

theorem Progress.refl (x : Exchange) : Progress x x :=
  ⟨rfl, fun _ => rfl, fun h => ⟨h, rfl⟩, fun h => ⟨h, rfl, rfl⟩, List.prefix_refl _, Nat.le_refl _,
    fun h => h⟩

theorem Progress.trans {z : Exchange} (h : Progress x y) (h' : Progress y z) : Progress x z where
  id := h'.id.trans h.id
  request hr := by rw [h'.request (by rwa [h.request hr]), h.request hr]
  done hd := by
    obtain ⟨hy, hu⟩ := h.done hd
    exact ⟨(h'.done hy).1, (h'.done hy).2.trans hu⟩
  eom he := by
    obtain ⟨hy, hc, hh⟩ := h.eom he
    obtain ⟨hz, hc', hh'⟩ := h'.eom hy
    exact ⟨hz, hc'.trans hc, hh'.trans hh⟩
  uses := h.uses.trans h'.uses
  deletes := Nat.le_trans h.deletes h'.deletes
  touched ht := h'.touched (h.touched ht)

theorem touched_of (h : x.touched = true) : x.touch.touched = true := by simp [touch, h]

/-- Before its request a handler has nothing that could change but its id. -/
theorem Progress.of_new (hI : Inv ext x) (hnew : x.client.request = none) (hid : y.id = x.id)
    (hdeletes : x.deletes ≤ y.deletes) (htouched : x.touched = true → y.touched = true) :
    Progress x y := by
  obtain ⟨hc, ho⟩ := hI.idle hnew
  refine ⟨hid, fun h => absurd hnew h, fun h => ?_, fun h => ?_, ?_, hdeletes, htouched⟩
  · rw [hc] at h
    cases h
  · rw [ho] at h
    cases h
  · rw [hc]
    exact List.nil_prefix

theorem progress_called (hI : Inv ext x) (h : Called ext cfg x y) : Progress x y := by
  have hr := Progress.refl x
  have hpre : ∀ us : List Use, x.client.uses <+: x.client.uses ++ us := fun us =>
    List.prefix_append _ us
  cases h with
  | hit headers route hnew hroute => exact .of_new hI hnew rfl (Nat.le_refl _) touched_of
  | badAddress headers hnew hroute => exact .of_new hI hnew rfl (Nat.le_refl _) touched_of
  | connect headers hnew hroute => exact .of_new hI hnew rfl (Nat.le_refl _) touched_of
  | onBody body hreq hopen heom hpause => exact { hr with touched := touched_of }
  | onEOM hreq hopen heom hpause => exact { hr with touched := touched_of }
  | onError hreq hopen =>
    exact { hr with
      done := fun h => by rw [hopen] at h; cases h
      deletes := by dsimp only; split <;> omega
      touched := touched_of }
  | connectSuccess req hconn hlive hreq =>
    exact { hr with
      done := fun h => absurd hlive (hI.freed.2 ⟨h, (hI.unsent (hI.waiting hconn).1).1⟩)
      uses := hpre _
      touched := touched_of }
  | connectError hconn hlive hopen =>
    exact { hr with
      done := fun h => by rw [hopen] at h; cases h
      uses := hpre _
      touched := touched_of }
  | originOnHeadersComplete msg hatt hnone heom hok =>
    exact { hr with
      eom := fun h => by rw [heom] at h; cases h
      touched := touched_of }
  | originOnBody chain hatt hheaders heom hok =>
    exact { hr with
      eom := fun h => by rw [heom] at h; cases h
      touched := touched_of }
  | originAnswered headers body hatt heom hok hopen hheaders hbody =>
    exact { hr with
      done := fun h => by rw [hopen] at h; cases h
      eom := fun h => by rw [heom] at h; cases h
      uses := hpre _
      touched := touched_of }
  | originUnanswered hatt heom hok hno =>
    exact { hr with
      eom := fun h => by rw [heom] at h; cases h
      touched := touched_of }
  | originOnError hatt hok =>
    exact { hr with
      done := fun h => ⟨h, by simp [h]⟩
      uses := hpre _
      touched := touched_of }
  | originFlow m hm hatt => exact { hr with touched := touched_of }
  | ignored => exact hr

theorem progress_completed (h : Completed ext x y) : Progress x y := by
  obtain ⟨hreq, hopen, sh, -, rfl⟩ := h
  exact { Progress.refl x with
    done := fun h => by rw [hopen] at h; cases h
    deletes := by dsimp only; split <;> omega
    touched := touched_of }

theorem progress_detached (h : Detached x y) : Progress x y := by
  obtain ⟨hatt, rfl⟩ := h
  exact { Progress.refl x with
    deletes := by dsimp only; split <;> omega
    touched := touched_of }

theorem progress_aborted (hopen : x.client.done = false) (h : Aborted x y) : Progress x y := by
  rw [Aborted] at h
  subst h
  exact { Progress.refl x with
    done := fun h => by rw [hopen] at h; cases h
    deletes := by dsimp only; omega
    touched := fun _ => rfl }

theorem progress_delivered (hI : Inv ext x) (h : Delivered ext cfg x e y) : Progress x y := by
  refine h.rule hI (Progress.refl x) ?_ ?_ ?_ ?_
  · intro y h
    exact progress_called hI h
  · intro y z _ hy h
    exact hy.trans (progress_completed h)
  · intro y z _ hy h
    exact hy.trans (progress_detached h)
  · intro y _ hopen _ h
    exact progress_aborted hopen h

end

end Exchange

/-! ## The system -/

namespace System

section
variable {ext : External} {cfg : Config} {s s' t : System} {e : Nat × Event}

/-- `Inv` of every handler. -/
def HandlersInv (ext : External) (s : System) : Prop :=
  ∀ i, Exchange.Inv ext (s.handlers i) ∧ (s.handlers i).id = i

theorem handlersInv_init (ext : External) (dir : String) (writeToDisk : Bool) :
    HandlersInv ext (init dir writeToDisk) := fun i => ⟨Exchange.inv_init ext i, rfl⟩

theorem inv_exchange (hs : HandlersInv ext s) (i : Nat) : Exchange.Inv ext (s.exchange i) :=
  { (hs i).1 with }

theorem step_some (h : step ext cfg s e = some s') :
    (s.exchange e.1).admissible e.2 = true ∧
    ((s.exchange e.1).deliver ext cfg e.2).escaped = false ∧
    s' = { shared := ((s.exchange e.1).deliver ext cfg e.2).shared
           handlers := fun j => if j = e.1 then (s.exchange e.1).deliver ext cfg e.2
             else s.handlers j } := by
  unfold step at h
  split at h <;> rename_i hadm
  · cases hesc : ((s.exchange e.1).deliver ext cfg e.2).escaped with
    | true => simp [hesc] at h
    | false =>
      simp only [hesc, Bool.false_eq_true, if_false, Option.some.injEq] at h
      exact ⟨hadm, rfl, h.symm⟩
  · cases h

/-- A step is one effect on one handler and the shared cache; the other handlers keep their
fields. -/
theorem step_cases (hs : HandlersInv ext s) (h : step ext cfg s e = some s') :
    ∃ y, Exchange.Delivered ext cfg (s.exchange e.1) e.2 y ∧
      s' = { shared := y.shared, handlers := fun j => if j = e.1 then y else s.handlers j } := by
  obtain ⟨hadm, hesc, rfl⟩ := step_some h
  exact ⟨_, Exchange.deliver_cases (inv_exchange hs e.1) hadm hesc, rfl⟩

theorem delivered_step (hs : HandlersInv ext s) (h : step ext cfg s e = some s') :
    Exchange.Delivered ext cfg (s.exchange e.1) e.2 (s'.exchange e.1) := by
  obtain ⟨y, hd, rfl⟩ := step_cases hs h
  have hy : exchange ⟨y.shared, fun j => if j = e.1 then y else s.handlers j⟩ e.1 = y := by
    simp [exchange]
  rw [hy]
  exact hd

theorem handlersInv_step (hs : HandlersInv ext s) (h : step ext cfg s e = some s') :
    HandlersInv ext s' := by
  obtain ⟨y, hd, rfl⟩ := step_cases hs h
  intro i
  by_cases hi : i = e.1
  · subst hi
    simp only [if_true]
    exact ⟨Exchange.inv_delivered (inv_exchange hs e.1) hd,
      (Exchange.progress_delivered (inv_exchange hs e.1) hd).id.trans (hs e.1).2⟩
  · simp only [if_neg hi]
    exact hs i

/-- **Every handler of every reachable state satisfies `Inv`.** -/
theorem handlersInv_reachable (h : Reachable ext cfg s) : HandlersInv ext s := by
  obtain ⟨dir, writeToDisk, es, hrun⟩ := h
  exact Run.run_inv (fun _ _ _ hs => handlersInv_step hs) es
    (handlersInv_init ext dir writeToDisk) hrun

/-- What one handler keeps under the effects that meet `ok` holds of it along the runs whose steps
do, from any state in which it holds. -/
theorem handler_inv_of {Q : Exchange → Prop} {ok : Exchange → Event → Prop}
    (hshared : ∀ x sh, Q x → Q { x with shared := sh })
    (hstep : ∀ x e y, Exchange.Inv ext x → Q x → ok x e → Exchange.Delivered ext cfg x e y → Q y)
    {es : List (Nat × Event)} (hs : HandlersInv ext s) (hQ : ∀ i, Q (s.handlers i))
    (hok : Run.Meets (step ext cfg) (fun s e => ok (s.exchange e.1) e.2) s es)
    (hrun : Run.run (step ext cfg) s es = some t) (i : Nat) : Q (t.handlers i) := by
  let P : System → Prop := fun s => HandlersInv ext s ∧ ∀ i, Q (s.handlers i)
  have hP : ∀ s e s', P s → ok (s.exchange e.1) e.2 → step ext cfg s e = some s' → P s' := by
    rintro s e s' ⟨hs, hQ⟩ hok h
    refine ⟨handlersInv_step hs h, fun j => ?_⟩
    obtain ⟨y, hd, rfl⟩ := step_cases hs h
    by_cases hj : j = e.1
    · simp only [hj, if_true]
      exact hstep _ _ _ (inv_exchange hs e.1) (hshared _ _ (hQ e.1)) hok hd
    · simp only [if_neg hj]
      exact hQ j
  exact (Run.run_inv_of hP es ⟨hs, hQ⟩ hok hrun).2 i

/-- What every effect keeps of one handler holds of every handler of every reachable state. -/
theorem handler_inv {Q : Exchange → Prop} (hshared : ∀ x sh, Q x → Q { x with shared := sh })
    (hinit : ∀ i, Q { id := i })
    (hstep : ∀ x e y, Exchange.Inv ext x → Q x → Exchange.Delivered ext cfg x e y → Q y)
    (h : Reachable ext cfg s) (i : Nat) : Q (s.handlers i) := by
  obtain ⟨dir, writeToDisk, es, hrun⟩ := h
  exact handler_inv_of hshared (fun x e y hI hQ (_ : True) hd => hstep x e y hI hQ hd)
    (handlersInv_init ext dir writeToDisk) hinit (Run.meets_true _ es) hrun i

theorem Reachable.run {es : List (Nat × Event)} (h : Reachable ext cfg s)
    (hrun : Run.run (step ext cfg) s es = some t) : Reachable ext cfg t := by
  obtain ⟨dir, writeToDisk, fs, hfs⟩ := h
  exact ⟨dir, writeToDisk, fs ++ es, Run.run_append.2 ⟨s, hfs, hrun⟩⟩

theorem Reachable.step (h : Reachable ext cfg s) (hstep : step ext cfg s e = some s') :
    Reachable ext cfg s' :=
  h.run (Run.run_cons_some.2 ⟨s', hstep, Run.run_nil s'⟩)

theorem progress_step (hs : HandlersInv ext s) (h : step ext cfg s e = some s') (i : Nat) :
    Exchange.Progress (s.handlers i) (s'.handlers i) := by
  obtain ⟨y, hd, rfl⟩ := step_cases hs h
  by_cases hi : i = e.1
  · simp only [hi, if_true]
    exact { Exchange.progress_delivered (inv_exchange hs e.1) hd with }
  · simp only [if_neg hi]
    exact Exchange.Progress.refl _

theorem progress_run {es : List (Nat × Event)} (hs : HandlersInv ext s)
    (hrun : Run.run (step ext cfg) s es = some t) (i : Nat) :
    Exchange.Progress (s.handlers i) (t.handlers i) :=
  @Run.run_rel System _ (step ext cfg) (HandlersInv ext)
    (fun s t => Exchange.Progress (s.handlers i) (t.handlers i))
    (fun s => Exchange.Progress.refl (s.handlers i)) (fun _ _ _ => Exchange.Progress.trans)
    (fun _ _ _ hs => handlersInv_step hs) (fun _ _ _ hs h => progress_step hs h i) es _ _ hs hrun

end

end System

end GladiusMasternode
