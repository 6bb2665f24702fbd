import GladiusMasternode.Proxy.Invariant
/-
# Exceptions that leave a callback

All callbacks are `noexcept`, and of all they call only `addCachedRoute` throws. `requestComplete`
calls it, by itself or at the end of a call on `downstream_`, with what has been collected from the
origin: so the process ends in the callback that completes such an exchange, if the shard of its url
is full or the file cannot be opened, and in no other.
-/

namespace GladiusMasternode

/-- What `addCachedRoute` meets makes it throw, if the url is new. -/
def AddIO.Fails (io : AddIO) (c : ContentCache) : Prop :=
  io.hasRoom = false ∨ c.writeToDisk_ = true ∧ io.fileOpens = false

theorem ContentCache.addCachedRoute_error_iff {ext : External} {io : AddIO} {c : ContentCache}
    {url : String} {chain : IOBuf} {headers : HTTPMessage} :
    (∃ c' err, c.addCachedRoute ext io url chain headers = (c', .error err)) ↔
      c.getCachedRoute url = none ∧ io.Fails c := by
  unfold addCachedRoute getCachedRoute AddIO.Fails
  cases hl : c.map_.lookup url with
  | some r => simp [WriteOnce.insertNew_present hl]
  | none =>
    simp only [WriteOnce.insertNew_absent hl, Option.isNone_none, Bool.and_true]
    cases hr : io.hasRoom with
    | false => simp
    | true => cases hw : c.writeToDisk_ <;> cases hf : io.fileOpens <;> simp

namespace Exchange

section
variable {ext : External} {cfg : Config} {x y : Exchange} {e : Event} {io : AddIO}

theorem escaped_storeContent_iff (hok : x.escaped = false) {req : HTTPMessage} :
    (x.storeContent ext io req).escaped = true ↔ ∃ body headers, x.this.contentBody_ = some body ∧
      x.this.contentHeaders_ = some headers ∧ req.method = .get ∧
      x.shared.cache.getCachedRoute (ext.getUrl req.url) = none ∧ io.Fails x.shared.cache := by
  unfold storeContent
  split
  · rename_i body headers hbody hheaders
    have hadd := @ContentCache.addCachedRoute_error_iff ext io x.shared.cache (ext.getUrl req.url)
      body.cloneCoalesced headers
    simp only [hbody, hheaders, Option.some.injEq, exists_and_left, exists_eq_left', ← hadd]
    split
    · rename_i hget
      unfold addCachedRoute
      split
      · rename_i c' b hrun
        rw [touch_shared] at hrun
        simp [hget, hrun, hok, touch]
      · rename_i c' err hrun
        rw [touch_shared] at hrun
        simp [hget, hrun]
    · rename_i hget
      simp [hok, hget]
  · rename_i hno
    refine iff_of_false (by simp [hok]) ?_
    rintro ⟨body, headers, hbody, hheaders, -⟩
    exact hno body headers hbody hheaders

theorem escaped_checkForShutdown : (checkForShutdown x).2.escaped = x.escaped := by
  rw [checkForShutdown_eq]
  rfl

theorem escaped_requestComplete {req : HTTPMessage} (hreq : x.this.request_ = some req) :
    (requestComplete ext io x).escaped = (x.touch.storeContent ext io req).escaped := by
  unfold requestComplete
  simp only [touch_this, hreq]
  split
  · rfl
  · rw [escaped_checkForShutdown]
    rfl

end

end Exchange

end GladiusMasternode
