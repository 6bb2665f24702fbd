import GladiusMasternode.Model.DiskCache
import GladiusMasternode.Model.System
/-
# Advertised files

A hash is advertised from the insert on, and its file is complete after the write, so in between an
asset table names a file that is not there, or is being written. Two urls with equal bodies share their
file, and the second call truncates what the first has written. `always_on_disk_iff` says when none of
this shows; `onDisk_at_rest` that nothing of it lasts, as long as the files can be opened.
-/

namespace GladiusMasternode

/-! ## Names of files -/

theorem hexDigit_inj {m n : Nat} (hm : m < 16) (hn : n < 16) (h : hexDigit m = hexDigit n) :
    m = n := by
  have hall : ∀ a b : Fin 16, hexDigit a = hexDigit b → a = b := by decide
  exact congrArg Fin.val (hall ⟨m, hm⟩ ⟨n, hn⟩ h)

theorem hexlify_inj : ∀ {bs cs : Bytes}, hexlify bs = hexlify cs → bs = cs := by
  intro bs cs h
  have hchars := String.ofList_injective h
  clear h
  induction bs generalizing cs with
  | nil =>
    cases cs with
    | nil => rfl
    | cons c cs => cases hchars
  | cons b bs ih =>
    cases cs with
    | nil => cases hchars
    | cons c cs =>
      simp only [List.flatMap_cons, List.cons_append, List.nil_append, List.cons.injEq] at hchars
      obtain ⟨hhigh, hlow, hrest⟩ := hchars
      have hb := b.toNat_lt
      have hc := c.toNat_lt
      have hdiv := hexDigit_inj (by omega) (by omega) hhigh
      have hmod := hexDigit_inj (by omega) (by omega) hlow
      have hbyte : b = c := UInt8.toNat_inj.1 (by omega)
      rw [hbyte, ih hrest]

namespace DiskCache

section
variable {ext : External} {calls : Nat → ContentCache.Add} {s s' t : DiskCache} {e : Turn}

@[simp] theorem getContent_newEntry (a : ContentCache.Add) :
    (a.newEntry ext).getContent.bytes = a.chain.bytes := rfl

@[simp] theorem content_newEntry (a : ContentCache.Add) :
    (a.newEntry ext).content_.bytes = a.chain.bytes := rfl

/-- No two of the bodies collide. -/
def CollisionFree (ext : External) (calls : Nat → ContentCache.Add) : Prop :=
  ∀ i j, ext.sha256 (calls i).chain.bytes = ext.sha256 (calls j).chain.bytes →
    (calls i).chain.bytes = (calls j).chain.bytes

theorem CollisionFree.bytes_eq (hsha : CollisionFree ext calls) {i j : Nat}
    (h : s.path ((calls i).newEntry ext) = s.path ((calls j).newEntry ext)) :
    (calls i).chain.bytes = (calls j).chain.bytes := by
  have hhash : hexlify (ext.sha256 (calls i).chain.bytes) =
      hexlify (ext.sha256 (calls j).chain.bytes) := (String.append_right_inj _).1 h
  exact hsha i j (hexlify_inj hhash)

/-! ## The steps -/

def put (s : DiskCache) (url : String) (route : CachedRoute) : DiskCache :=
  { s with cache := { s.cache with map_ := (url, route) :: s.cache.map_ } }

theorem getCachedRoute_put (url : String) (route : CachedRoute) (u : String) :
    (s.put url route).cache.getCachedRoute u =
      if u = url then some route else s.cache.getCachedRoute u := by
  unfold ContentCache.getCachedRoute put
  by_cases hu : u = url
  · simp [hu]
  · rw [if_neg hu, WriteOnce.lookup_cons_ne hu]

/-- What a step does, by what it finds. -/
inductive Stepped (ext : External) (calls : Nat → ContentCache.Add) (s : DiskCache) :
    Turn → DiskCache → Prop
  | full (i : Nat) (hstage : s.stages i = .notCalled)
      (hnew : s.cache.getCachedRoute (calls i).url = none) :
      Stepped ext calls s (.insert i false) (s.setStage i (.returned (.error .badAlloc)))
  | present (i : Nat) (hasRoom : Bool) (route : CachedRoute) (hstage : s.stages i = .notCalled)
      (hold : s.cache.getCachedRoute (calls i).url = some route) :
      Stepped ext calls s (.insert i hasRoom) (s.setStage i (.returned (.ok false)))
  | inserted (i : Nat) (hstage : s.stages i = .notCalled)
      (hnew : s.cache.getCachedRoute (calls i).url = none) :
      Stepped ext calls s (.insert i true) ((s.put (calls i).url ((calls i).newEntry ext)).setStage i
        (if s.cache.writeToDisk_ then .inserted ((calls i).newEntry ext) else .returned (.ok true)))
  | opened (i : Nat) (newEntry : CachedRoute) (hstage : s.stages i = .inserted newEntry)
      (hopens : (calls i).fileOpens = true) :
      Stepped ext calls s (.openFile i)
        ((s.truncate (s.path newEntry)).setStage i (.opened newEntry))
  | failed (i : Nat) (newEntry : CachedRoute) (hstage : s.stages i = .inserted newEntry)
      (hopens : (calls i).fileOpens = false) :
      Stepped ext calls s (.openFile i) (s.setStage i (.returned (.error .systemError)))
  | written (i : Nat) (newEntry : CachedRoute) (hstage : s.stages i = .opened newEntry) :
      Stepped ext calls s (.write i)
        ((s.overwrite (s.path newEntry) newEntry.getContent.bytes).setStage i (.returned (.ok true)))
  | read (j : Nat) (url : String) (route : CachedRoute)
      (hold : s.cache.getCachedRoute url = some route) :
      Stepped ext calls s (.read j url)
        { s with tables := fun k => if k = j then
            (WriteOnce.insertNew (s.tables j) url route.getHash).1 else s.tables k }

theorem step_cases (h : step ext calls s e = some s') : Stepped ext calls s e s' := by
  cases e with
  | insert i hasRoom =>
    cases hstage : s.stages i with
    | notCalled =>
      cases hold : s.cache.map_.lookup (calls i).url with
      | some route =>
        simp [step, hstage, hold, WriteOnce.insertNew_present hold] at h
        subst h
        exact .present i hasRoom route hstage hold
      | none =>
        cases hasRoom with
        | false =>
          simp [step, hstage, hold] at h
          subst h
          exact .full i hstage hold
        | true =>
          simp only [step, hstage, hold, WriteOnce.insertNew_absent hold, Bool.not_true,
            Bool.false_and, Bool.false_eq_true, if_false, Option.some.injEq] at h
          subst h
          exact .inserted i hstage hold
    | inserted newEntry => simp [step, hstage] at h
    | opened newEntry => simp [step, hstage] at h
    | returned result => simp [step, hstage] at h
  | openFile i =>
    cases hstage : s.stages i with
    | inserted newEntry =>
      cases hopens : (calls i).fileOpens with
      | true =>
        simp only [step, hstage, hopens, if_true, Option.some.injEq] at h
        subst h
        exact .opened i newEntry hstage hopens
      | false =>
        simp only [step, hstage, hopens, Bool.false_eq_true, if_false, Option.some.injEq] at h
        subst h
        exact .failed i newEntry hstage hopens
    | notCalled => simp [step, hstage] at h
    | opened newEntry => simp [step, hstage] at h
    | returned result => simp [step, hstage] at h
  | write i =>
    cases hstage : s.stages i with
    | opened newEntry =>
      simp only [step, hstage, Option.some.injEq] at h
      subst h
      exact .written i newEntry hstage
    | notCalled => simp [step, hstage] at h
    | inserted newEntry => simp [step, hstage] at h
    | returned result => simp [step, hstage] at h
  | read j url =>
    cases hold : s.cache.map_.lookup url with
    | some route =>
      simp only [step, hold, Option.some.injEq] at h
      subst h
      exact .read j url route hold
    | none => simp [step, hold] at h

/-! ## What holds throughout -/

structure Inv (ext : External) (calls : Nat → ContentCache.Add) (s : DiskCache) : Prop where
  called : ∀ url route, s.cache.getCachedRoute url = some route →
    ∃ i, route = (calls i).newEntry ext
  pending : ∀ i route, (s.stages i).entry = some route →
    route = (calls i).newEntry ext ∧ s.cache.getCachedRoute (calls i).url = some route
  copied : ∀ j url hash, (url, hash) ∈ s.tables j →
    ∃ route, s.cache.getCachedRoute url = some route ∧ route.getHash = hash

theorem inv_start (dir : String) (files : String → Option Bytes) :
    Inv ext calls (start dir files) :=
  ⟨fun _ _ h => (by cases h), fun _ _ h => (by cases h), fun _ _ _ h => (by cases h)⟩

/-- A call that goes on or returns has no entry it did not have. -/
theorem entry_setStage {i j : Nat} {stage : Stage} {route : CachedRoute}
    (hstage : stage.entry = none ∨ stage.entry = (s.stages i).entry)
    (h : ((s.setStage i stage).stages j).entry = some route) : (s.stages j).entry = some route := by
  by_cases hj : j = i
  · subst hj
    rw [setStage_self] at h
    rcases hstage with hnone | hsame
    · rw [hnone] at h
      cases h
    · rw [← hsame]
      exact h
  · rw [setStage_ne hj] at h
    exact h

theorem inv_setStage {i : Nat} {stage : Stage} (hI : Inv ext calls s)
    (hstage : stage.entry = none ∨ stage.entry = (s.stages i).entry) :
    Inv ext calls (s.setStage i stage) :=
  ⟨hI.called, fun j route h => hI.pending j route (entry_setStage hstage h), hI.copied⟩

/-- The files are not part of it. -/
theorem inv_writeFile {path : String} {content : Bytes} (hI : Inv ext calls s) :
    Inv ext calls { s with cache := s.cache.writeFile path content } :=
  ⟨hI.called, hI.pending, hI.copied⟩

theorem keep_put {url url' : String} {route route' : CachedRoute}
    (hnew : s.cache.getCachedRoute url = none) (hr : s.cache.getCachedRoute url' = some route') :
    (s.put url route).cache.getCachedRoute url' = some route' := by
  rw [getCachedRoute_put, if_neg]
  · exact hr
  · rintro rfl
    rw [hnew] at hr
    cases hr

/-- The call whose entry goes in is the only new one. -/
theorem inv_put {i : Nat} {stage : Stage} (hI : Inv ext calls s)
    (hnew : s.cache.getCachedRoute (calls i).url = none)
    (hstage : ∀ route, stage.entry = some route → route = (calls i).newEntry ext) :
    Inv ext calls ((s.put (calls i).url ((calls i).newEntry ext)).setStage i stage) := by
  refine ⟨fun url route hr => ?_, fun j route hr => ?_, fun j url hash hmem => ?_⟩
  · have hput := (getCachedRoute_put (calls i).url ((calls i).newEntry ext) url).symm.trans hr
    by_cases hu : url = (calls i).url
    · rw [if_pos hu] at hput
      exact ⟨i, (Option.some.inj hput).symm⟩
    · rw [if_neg hu] at hput
      exact hI.called url route hput
  · by_cases hj : j = i
    · subst hj
      rw [setStage_self] at hr
      obtain rfl := hstage route hr
      exact ⟨rfl, (getCachedRoute_put _ _ _).trans (if_pos rfl)⟩
    · rw [setStage_ne hj] at hr
      exact ⟨(hI.pending j route hr).1, keep_put hnew (hI.pending j route hr).2⟩
  · obtain ⟨route, hr, hhash⟩ := hI.copied j url hash hmem
    exact ⟨route, keep_put hnew hr, hhash⟩

theorem inv_step (hI : Inv ext calls s) (h : step ext calls s e = some s') : Inv ext calls s' := by
  cases step_cases h with
  | full i hstage hnew => exact inv_setStage hI (.inl rfl)
  | present i hasRoom route hstage hold => exact inv_setStage hI (.inl rfl)
  | inserted i hstage hnew =>
    refine inv_put hI hnew fun route hr => ?_
    by_cases hdisk : s.cache.writeToDisk_ = true
    · simp only [hdisk, if_true, Stage.entry, Option.some.injEq] at hr
      exact hr.symm
    · simp [hdisk, Stage.entry] at hr
  | opened i newEntry hstage hopens =>
    refine inv_setStage (inv_writeFile hI) (.inr ?_)
    show _ = (s.stages i).entry
    rw [hstage]
    rfl
  | failed i newEntry hstage hopens => exact inv_setStage hI (.inl rfl)
  | written i newEntry hstage => exact inv_setStage (inv_writeFile hI) (.inl rfl)
  | read j url route hold =>
    refine ⟨hI.called, hI.pending, fun k u hash hmem => ?_⟩
    by_cases hk : k = j
    · subst hk
      simp only [if_true] at hmem
      rcases WriteOnce.mem_insertNew_iff.1 hmem with hmem | ⟨hpair, -⟩
      · exact hI.copied k u hash hmem
      · cases hpair
        exact ⟨route, hold, rfl⟩
    · simp only [hk, if_false] at hmem
      exact hI.copied k u hash hmem

/-! ## Files and tables -/

/-- Every hash in the asset table, and in every copy of it, names a file with the whole content that
is cached. -/
def OnDisk (s : DiskCache) : Prop :=
  ∀ table, (table = s.cache.getAssetHashMap ∨ ∃ j, table = s.tables j) →
    ∀ url hash, (url, hash) ∈ table → ∃ route, s.cache.getCachedRoute url = some route ∧
      s.cache.files (s.cache.cache_directory_ ++ hash) = some route.content_.bytes

def Complete (s : DiskCache) : Prop :=
  ∀ url route, s.cache.getCachedRoute url = some route →
    s.cache.files (s.path route) = some route.content_.bytes

theorem onDisk_iff_complete (hI : Inv ext calls s) : OnDisk s ↔ Complete s := by
  constructor
  · intro h url route hr
    have hmem : (url, route.getHash) ∈ s.cache.getAssetHashMap := by
      rw [WriteOnce.mem_iff_lookup (ContentCache.nodup_getAssetHashMap _),
        ContentCache.lookup_getAssetHashMap, hr]
      rfl
    obtain ⟨route', hr', hfile⟩ := h _ (.inl rfl) url _ hmem
    obtain rfl : route = route' := Option.some.inj (hr.symm.trans hr')
    exact hfile
  · rintro h table htable url hash hmem
    have hentry : ∃ route, s.cache.getCachedRoute url = some route ∧ route.getHash = hash := by
      rcases htable with rfl | ⟨j, rfl⟩
      · rw [WriteOnce.mem_iff_lookup (ContentCache.nodup_getAssetHashMap _),
          ContentCache.lookup_getAssetHashMap, Option.map_eq_some_iff] at hmem
        exact hmem
      · exact hI.copied j url hash hmem
    obtain ⟨route, hr, rfl⟩ := hentry
    exact ⟨route, hr, h url route hr⟩

/-! ## What breaks it -/

/-- A call that cannot open its file leaves the map without its url, as its insert found it. -/
def TakenBack (ext : External) (calls : Nat → ContentCache.Add) (s : DiskCache) (e : Turn) : Prop :=
  ∀ i s', e = .openFile i → (calls i).fileOpens = false → step ext calls s e = some s' →
    s'.cache.getCachedRoute (calls i).url = none

/-- A new entry finds its file written already, and what is opened has nothing to write. -/
def NothingToWrite (ext : External) (calls : Nat → ContentCache.Add) (s : DiskCache) : Turn → Prop
  | .insert i hasRoom => hasRoom = true → s.cache.getCachedRoute (calls i).url = none →
    s.cache.files (s.path ((calls i).newEntry ext)) = some (calls i).chain.bytes
  | .openFile i => (calls i).fileOpens = true ∧ (calls i).chain.bytes = []
  | .write _ => True
  | .read _ _ => True

theorem complete_put {url : String} {route : CachedRoute} (hc : Complete s) :
    Complete (s.put url route) ↔
      s.cache.files (s.path route) = some route.content_.bytes := by
  constructor
  · intro h
    exact h url route ((getCachedRoute_put _ _ _).trans (if_pos rfl))
  · intro hfile url' route' hr
    have hput := (getCachedRoute_put url route url').symm.trans hr
    by_cases hu : url' = url
    · rw [if_pos hu] at hput
      obtain rfl := Option.some.inj hput
      exact hfile
    · rw [if_neg hu] at hput
      exact hc url' route' hput

/-- Opening the file of an entry empties it, for all the urls that share it. -/
theorem complete_truncate (hsha : CollisionFree ext calls) (hI : Inv ext calls s) (hc : Complete s)
    {i : Nat} {newEntry : CachedRoute} (hstage : s.stages i = .inserted newEntry) :
    Complete (s.truncate (s.path newEntry)) ↔ (calls i).chain.bytes = [] := by
  obtain ⟨rfl, hr⟩ := hI.pending i newEntry (by rw [hstage]; rfl)
  constructor
  · intro h
    have hfile := (files_truncate _ (s.path _)).symm.trans (h _ _ hr)
    rw [if_pos rfl] at hfile
    exact (Option.some.inj hfile).symm
  · intro hempty url route hroute
    obtain ⟨j, rfl⟩ := hI.called url route hroute
    refine (files_truncate _ (s.path _)).trans ?_
    by_cases hp : s.path ((calls j).newEntry ext) = s.path ((calls i).newEntry ext)
    · rw [if_pos hp, content_newEntry, hsha.bytes_eq hp, hempty]
    · rw [if_neg hp]
      exact hc url _ hroute

/-- A file that is complete stays as it is when it is written again. -/
theorem overwrite_complete {path : String} {content : Bytes}
    (hfile : s.cache.files path = some content) : s.overwrite path content = s := by
  unfold overwrite ContentCache.writeFile
  simp only [hfile, Option.getD_some, List.drop_length, List.append_nil]
  have hfiles : (fun p => if p = path then some content else s.cache.files p) = s.cache.files := by
    funext p
    by_cases hp : p = path <;> simp [hp, hfile]
  rw [hfiles]

theorem complete_step_iff (hsha : CollisionFree ext calls) (hI : Inv ext calls s) (hc : Complete s)
    (h : step ext calls s e = some s') :
    Complete s' ∧ TakenBack ext calls s e ↔ NothingToWrite ext calls s e := by
  have hback : (∀ i, e ≠ .openFile i) → TakenBack ext calls s e :=
    fun hne i _ he => absurd he (hne i)
  cases step_cases h with
  | full i hstage hnew =>
    refine iff_of_true ⟨hc, hback (by simp)⟩ fun hroom => ?_
    cases hroom
  | present i hasRoom route hstage hold =>
    refine iff_of_true ⟨hc, hback (by simp)⟩ fun _ hnew => ?_
    rw [hold] at hnew
    cases hnew
  | inserted i hstage hnew =>
    rw [and_iff_left (hback (by simp))]
    exact (complete_put hc).trans ⟨fun hfile _ _ => hfile, fun hok => hok rfl hnew⟩
  | opened i newEntry hstage hopens =>
    have hkept : TakenBack ext calls s (.openFile i) := by
      rintro j u hj hfails -
      cases hj
      rw [hopens] at hfails
      cases hfails
    rw [and_iff_left hkept]
    exact (complete_truncate hsha hI hc hstage).trans (and_iff_right hopens).symm
  | failed i newEntry hstage hopens =>
    -- the entry of the call is still in the map
    refine iff_of_false (fun hboth => ?_) fun hok => ?_
    · obtain ⟨-, hr⟩ := hI.pending i newEntry (by rw [hstage]; rfl)
      have hnone := hboth.2 i _ rfl hopens h
      cases hr.symm.trans hnone
    · have hopened : (calls i).fileOpens = true := hok.1
      rw [hopens] at hopened
      cases hopened
  | written i newEntry hstage =>
    refine iff_of_true ⟨?_, hback (by simp)⟩ trivial
    obtain ⟨-, hr⟩ := hI.pending i newEntry (by rw [hstage]; rfl)
    show Complete (s.overwrite (s.path newEntry) newEntry.content_.bytes)
    rw [overwrite_complete (hc _ _ hr)]
    exact hc
  | read j url route hold => exact iff_of_true ⟨hc, hback (by simp)⟩ trivial

/-- **Advertised hashes.** Every advertised hash names a complete file in every state of a run, and
every call that cannot open its file is taken back, exactly if the run has nothing to write: a new
entry finds its file written already, and what is opened is opened with success and empty. -/
theorem always_on_disk_iff (ext : External) (calls : Nat → ContentCache.Add) (dir : String)
    (files : String → Option Bytes) {es : List Turn} {t : DiskCache}
    (hsha : ∀ i j, ext.sha256 (calls i).chain.bytes = ext.sha256 (calls j).chain.bytes →
      (calls i).chain.bytes = (calls j).chain.bytes)
    (hrun : Run.run (step ext calls) (start dir files) es = some t) :
    ((∀ fs u, fs <+: es → Run.run (step ext calls) (start dir files) fs = some u → OnDisk u) ∧
      Run.Meets (step ext calls) (TakenBack ext calls) (start dir files) es) ↔
    Run.Meets (step ext calls) (NothingToWrite ext calls) (start dir files) es := by
  have hstart : Complete (start dir files) := fun _ _ h => by cases h
  have hiff := Run.good_and_owed_iff (fun _ _ _ => inv_step)
    (fun _ _ _ => complete_step_iff hsha) es (inv_start dir files) hstart hrun
  rw [← hiff]
  refine and_congr_left fun _ => forall_congr' fun fs => forall_congr' fun u =>
    forall_congr' fun _ => forall_congr' fun hu => ?_
  exact onDisk_iff_complete (Run.run_inv (fun _ _ _ => inv_step) fs (inv_start dir files) hu)

/-- One body under many urls; the third call cannot open its file. -/
def sameBody (i : Nat) : ContentCache.Add :=
  { url := "/" ++ toString i, chain := ⟨[111, 107], []⟩, headers := Scenario.page
    fileOpens := i != 2 }

def written : String := "/cache/" ++ ((sameBody 0).newEntry Scenario.ext).getHash

/-- An earlier process has written the file, and the first call has got to its insert. -/
theorem on_disk_before : ∃ t, Run.run (step Scenario.ext sameBody)
      (start "/cache/" fun p => if p = written then some [111, 107] else none)
      [.insert 0 true, .read 0 "/0"] = some t ∧
    (∀ fs u, fs <+: [.insert 0 true, .read 0 "/0"] → Run.run (step Scenario.ext sameBody)
      (start "/cache/" fun p => if p = written then some [111, 107] else none) fs = some u →
        OnDisk u) := by
  obtain ⟨t, ht⟩ := Option.isSome_iff_exists.1 (show (Run.run (step Scenario.ext sameBody)
    (start "/cache/" fun p => if p = written then some [111, 107] else none)
    [.insert 0 true, .read 0 "/0"]).isSome = true by decide +kernel)
  refine ⟨t, ht, ((always_on_disk_iff Scenario.ext sameBody "/cache/" _ (fun _ _ _ => rfl) ht).2
    ⟨fun _ _ => ?_, fun u _ => ⟨trivial, fun _ _ => trivial⟩⟩).1⟩
  decide +kernel

theorem not_onDisk (hI : Inv ext calls s) {url : String} {route : CachedRoute}
    (hr : s.cache.getCachedRoute url = some route)
    (hfile : s.cache.files (s.path route) ≠ some route.content_.bytes) : ¬ OnDisk s :=
  fun h => hfile ((onDisk_iff_complete hI).1 h url route hr)

/-- After the insert of the first call its hash has no file; while the second call is at its own
entry, the first has lost its content; and the url of the third stays. -/
theorem advertised_without_file :
    (∃ u, Run.run (step Scenario.ext sameBody) (start "/cache/" fun _ => none)
      [.insert 0 true] = some u ∧ ¬ OnDisk u) ∧
    (∃ u, Run.run (step Scenario.ext sameBody) (start "/cache/" fun _ => none)
      [.insert 0 true, .openFile 0, .write 0, .insert 1 true, .openFile 1] = some u ∧
        ¬ OnDisk u) ∧
    ¬ Run.Meets (step Scenario.ext sameBody) (TakenBack Scenario.ext sameBody)
      (start "/cache/" fun _ => none) [.insert 2 true, .openFile 2] := by
  have hinv : ∀ es u, Run.run (step Scenario.ext sameBody) (start "/cache/" fun _ => none) es =
      some u → Inv Scenario.ext sameBody u :=
    fun es _ h => Run.run_inv (fun _ _ _ => inv_step) es (inv_start _ _) h
  refine ⟨⟨_, rfl, ?_⟩, ⟨_, rfl, ?_⟩, fun hmeets => ?_⟩
  · exact @not_onDisk Scenario.ext sameBody _ (hinv [.insert 0 true] _ rfl) "/0" _ rfl
      (by decide +kernel)
  · exact @not_onDisk Scenario.ext sameBody _ (hinv [.insert 0 true, .openFile 0, .write 0,
      .insert 1 true, .openFile 1] _ rfl) "/0" _ rfl (by decide +kernel)
  · have hgone := (hmeets.2 _ rfl).1 2 _ rfl rfl rfl
    exact absurd hgone (by decide +kernel)

/-! ## At rest -/

/-- A call is between its insert and its write, with an entry of that file. -/
def Pending (s : DiskCache) (file : String) : Prop :=
  ∃ i newEntry, (s.stages i).entry = some newEntry ∧ s.path newEntry = file

/-- The calls at other files stay where they are. -/
theorem Pending.setStage {i : Nat} {stage : Stage} {file : String} (hp : Pending s file)
    (hother : ∀ newEntry, (s.stages i).entry = some newEntry → s.path newEntry ≠ file) :
    Pending (s.setStage i stage) file := by
  obtain ⟨j, newEntry, hentry, hfile⟩ := hp
  have hj : j ≠ i := by
    rintro rfl
    exact hother newEntry hentry hfile
  exact ⟨j, newEntry, by rw [setStage_ne hj]; exact hentry, hfile⟩

/-- A file that is not complete is still to be written by a call that is under way. -/
structure UnderWay (s : DiskCache) : Prop where
  writeToDisk : s.cache.writeToDisk_ = true
  file : ∀ url route, s.cache.getCachedRoute url = some route →
    s.cache.files (s.path route) = some route.content_.bytes ∨ Pending s (s.path route)
  opened : ∀ i newEntry, s.stages i = .opened newEntry →
    ∃ bs, s.cache.files (s.path newEntry) = some bs ∧ bs.length ≤ newEntry.content_.bytes.length

theorem underWay_start (dir : String) (files : String → Option Bytes) :
    UnderWay (start dir files) :=
  ⟨rfl, fun _ _ h => (by cases h), fun _ _ h => (by cases h)⟩

theorem opened_setStage {i j : Nat} {stage : Stage} {newEntry : CachedRoute}
    (hstage : stage ≠ .opened newEntry) (h : (s.setStage i stage).stages j = .opened newEntry) :
    j ≠ i ∧ s.stages j = .opened newEntry := by
  have hj : j ≠ i := by
    rintro rfl
    exact hstage ((setStage_self stage).symm.trans h)
  rw [setStage_ne hj] at h
  exact ⟨hj, h⟩

/-- A call that had nothing to do with the files returns. -/
theorem underWay_return {i : Nat} {result : Except CacheException Bool} (hU : UnderWay s)
    (hstage : s.stages i = .notCalled) : UnderWay (s.setStage i (.returned result)) := by
  refine ⟨hU.writeToDisk, fun url route hr => ?_, fun j newEntry hj => ?_⟩
  · refine (hU.file url route hr).imp_right fun hp => hp.setStage fun newEntry hentry => ?_
    rw [hstage] at hentry
    cases hentry
  · exact hU.opened j newEntry (opened_setStage (by simp) hj).2

theorem underWay_insert {i : Nat} {newEntry : CachedRoute} (hU : UnderWay s)
    (hstage : s.stages i = .notCalled) (url : String) :
    UnderWay ((s.put url newEntry).setStage i (.inserted newEntry)) := by
  refine ⟨hU.writeToDisk, fun u route hr => ?_, fun j opened hj => ?_⟩
  · have hput := (getCachedRoute_put url newEntry u).symm.trans hr
    by_cases hu : u = url
    · rw [if_pos hu] at hput
      obtain rfl := Option.some.inj hput
      exact .inr ⟨i, newEntry, by rw [setStage_self]; rfl, rfl⟩
    · rw [if_neg hu] at hput
      refine (hU.file u route hput).imp_right fun hp =>
        @Pending.setStage (s.put url newEntry) i _ _ hp fun entry hentry => ?_
      rw [show (s.put url newEntry).stages i = .notCalled from hstage] at hentry
      cases hentry
  · exact hU.opened j opened (opened_setStage (by simp) hj).2

/-- The file is empty, which the call that has opened it is about to change. -/
theorem underWay_open {i : Nat} {newEntry : CachedRoute} (hU : UnderWay s)
    (hstage : s.stages i = .inserted newEntry) :
    UnderWay ((s.truncate (s.path newEntry)).setStage i (.opened newEntry)) := by
  refine ⟨hU.writeToDisk, fun url route hr => ?_, fun j opened hj => ?_⟩
  · by_cases hp : s.path newEntry = s.path route
    · exact .inr ⟨i, newEntry, by rw [setStage_self]; rfl, hp⟩
    · rcases hU.file url route hr with hfile | hpending
      · exact .inl ((files_truncate _ _).trans ((if_neg (Ne.symm hp)).trans hfile))
      · refine .inr (@Pending.setStage (s.truncate (s.path newEntry)) i _ _ hpending fun entry hentry => ?_)
        rw [show (s.truncate (s.path newEntry)).stages i = .inserted newEntry from hstage] at hentry
        obtain rfl := Option.some.inj hentry
        exact hp
  · have hfiles := @files_truncate s (s.path newEntry) (s.path opened)
    by_cases hp : s.path opened = s.path newEntry
    · rw [if_pos hp] at hfiles
      exact ⟨[], hfiles, Nat.zero_le _⟩
    · have hne : Stage.opened newEntry ≠ .opened opened := by
        rintro hsame
        cases hsame
        exact hp rfl
      obtain ⟨bs, hbs, hlength⟩ := hU.opened j opened (opened_setStage hne hj).2
      rw [if_neg hp] at hfiles
      exact ⟨bs, hfiles.trans hbs, hlength⟩

/-- Whoever else has the file open is about to write the same. -/
theorem underWay_write (hsha : CollisionFree ext calls) (hI : Inv ext calls s) {i : Nat}
    {newEntry : CachedRoute} (hU : UnderWay s) (hstage : s.stages i = .opened newEntry)
    (result : Except CacheException Bool) : UnderWay
      ((s.overwrite (s.path newEntry) newEntry.getContent.bytes).setStage i (.returned result)) := by
  obtain ⟨rfl, -⟩ := hI.pending i newEntry (by rw [hstage]; rfl)
  have hfiles : ∀ q, (s.overwrite (s.path ((calls i).newEntry ext)) (calls i).chain.bytes).cache.files q =
      if q = s.path ((calls i).newEntry ext) then some (calls i).chain.bytes
      else s.cache.files q := by
    intro q
    obtain ⟨bs, hbs, hlength⟩ := hU.opened i _ hstage
    rw [content_newEntry] at hlength
    rw [files_overwrite, hbs, Option.getD_some, List.drop_eq_nil_of_le hlength, List.append_nil]
  refine ⟨hU.writeToDisk, fun url route hr => ?_, fun j opened hj => ?_⟩
  · obtain ⟨k, rfl⟩ := hI.called url route hr
    have hfile := hfiles (s.path ((calls k).newEntry ext))
    by_cases hp : s.path ((calls k).newEntry ext) = s.path ((calls i).newEntry ext)
    · rw [if_pos hp] at hfile
      exact .inl (hfile.trans (congrArg some (hsha.bytes_eq hp).symm))
    · rw [if_neg hp] at hfile
      rcases hU.file url _ hr with hold | hpending
      · exact .inl (hfile.trans hold)
      · refine .inr (@Pending.setStage (s.overwrite (s.path ((calls i).newEntry ext))
          (calls i).chain.bytes) i _ _ hpending fun entry hentry => ?_)
        rw [show (s.overwrite _ _).stages i = .opened ((calls i).newEntry ext) from hstage] at hentry
        obtain rfl := Option.some.inj hentry
        exact Ne.symm hp
  · have hopened : s.stages j = .opened opened := (opened_setStage (by simp) hj).2
    obtain ⟨rfl, -⟩ := hI.pending j opened (by rw [hopened]; rfl)
    have hfile := hfiles (s.path ((calls j).newEntry ext))
    by_cases hp : s.path ((calls j).newEntry ext) = s.path ((calls i).newEntry ext)
    · rw [if_pos hp] at hfile
      exact ⟨_, hfile, Nat.le_of_eq (congrArg List.length (hsha.bytes_eq hp).symm)⟩
    · rw [if_neg hp] at hfile
      obtain ⟨bs, hbs, hlength⟩ := hU.opened j _ hopened
      exact ⟨bs, hfile.trans hbs, hlength⟩

theorem underWay_step (hsha : CollisionFree ext calls) (hopen : ∀ i, (calls i).fileOpens = true)
    (hI : Inv ext calls s) (hU : UnderWay s) (h : step ext calls s e = some s') : UnderWay s' := by
  cases step_cases h with
  | full i hstage hnew => exact underWay_return hU hstage
  | present i hasRoom route hstage hold => exact underWay_return hU hstage
  | inserted i hstage hnew =>
    rw [hU.writeToDisk]
    exact underWay_insert hU hstage _
  | opened i newEntry hstage hopens => exact underWay_open hU hstage
  | failed i newEntry hstage hopens =>
    rw [hopen i] at hopens
    cases hopens
  | written i newEntry hstage => exact underWay_write hsha hI hU hstage _
  | read j url route hold => exact ⟨hU.writeToDisk, hU.file, hU.opened⟩

/-- **At rest.** As long as every file can be opened, nothing advertised is missing once no call is
between its insert and its write. -/
theorem onDisk_at_rest (hsha : CollisionFree ext calls) (hopen : ∀ i, (calls i).fileOpens = true)
    {dir : String} {files : String → Option Bytes} {es : List Turn}
    (hrun : Run.run (step ext calls) (start dir files) es = some t)
    (hrest : ∀ i, (t.stages i).entry = none) : OnDisk t := by
  obtain ⟨hI, hU⟩ := Run.run_inv (fun s e s' (hp : Inv ext calls s ∧ UnderWay s) h =>
    ⟨inv_step hp.1 h, underWay_step hsha hopen hp.1 hp.2 h⟩) es
    ⟨inv_start dir files, underWay_start dir files⟩ hrun
  refine (onDisk_iff_complete hI).2 fun url route hr => ?_
  rcases hU.file url route hr with hfile | ⟨i, newEntry, hentry, -⟩
  · exact hfile
  · rw [hrest i] at hentry
    cases hentry

end

end DiskCache

end GladiusMasternode
