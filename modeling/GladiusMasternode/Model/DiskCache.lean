import GladiusMasternode.Model.Cache
import GladiusMasternode.Library.Run
/-
# The cache and its directory in small steps

`addCachedRoute` puts the new entry into the map, then opens its file, then writes it. The handlers run
on several threads, so others may run between any two of these steps, and so may `getAssetHashMap`,
which copies the map entry by entry.

| here | there |
| --- | --- |
| `insert`, `openFile`, `write` | `map_.insert`, the `folly::File` and the `toFile` of one `addCachedRoute` (`Cache.cpp:44`, `:55`, `:57`) |
| `read j url` | one turn of the loop of the `j`-th `getAssetHashMap` (`Cache.cpp:68-70`) |
| `calls i`    | the arguments of the `i`-th `addCachedRoute`, and whether its file can be opened |
| `stages i`   | how far that call has come |
| `tables j`   | the map the `j`-th `getAssetHashMap` has made so far |

The directory holds whatever it held when the process started.
-/

namespace GladiusMasternode

def ContentCache.Add.newEntry (ext : External) (a : ContentCache.Add) : CachedRoute :=
  CachedRoute.new ext a.url a.chain.clone a.headers

namespace DiskCache

inductive Turn where
  | insert (i : Nat) (hasRoom : Bool) | openFile (i : Nat) | write (i : Nat)
  | read (j : Nat) (url : String)
deriving DecidableEq, Repr

inductive Stage where
  | notCalled
  | inserted (newEntry : CachedRoute)
  | opened (newEntry : CachedRoute)
  | returned (result : Except CacheException Bool)

/-- The entry of a call that has put it into the map and is still at its file. -/
def Stage.entry : Stage → Option CachedRoute
  | .inserted newEntry | .opened newEntry => some newEntry
  | .notCalled | .returned _ => none

end DiskCache

structure DiskCache where
  cache : ContentCache
  stages : Nat → DiskCache.Stage := fun _ => .notCalled
  tables : Nat → List (String × String) := fun _ => []

namespace DiskCache

/-- `O_TRUNC | O_CREAT`: the file is there and empty. -/
def truncate (s : DiskCache) (path : String) : DiskCache :=
  { s with cache := s.cache.writeFile path [] }

/-- From the start of the file; what was longer keeps its end. -/
def overwrite (s : DiskCache) (path : String) (content : Bytes) : DiskCache :=
  let rest := ((s.cache.files path).getD []).drop content.length
  { s with cache := s.cache.writeFile path (content ++ rest) }

def setStage (s : DiskCache) (i : Nat) (stage : Stage) : DiskCache :=
  { s with stages := fun j => if j = i then stage else s.stages j }

def path (s : DiskCache) (route : CachedRoute) : String := s.cache.cache_directory_ ++ route.getHash

def step (ext : External) (calls : Nat → ContentCache.Add) (s : DiskCache) : Turn → Option DiskCache
  | .insert i hasRoom =>
    match s.stages i with
    | .notCalled =>
      let url := (calls i).url
      let newEntry := (calls i).newEntry ext
      if !hasRoom && (s.cache.map_.lookup url).isNone then
        some (s.setStage i (.returned (.error .badAlloc)))
      else match WriteOnce.insertNew s.cache.map_ url newEntry with
        | (_, false) => some (s.setStage i (.returned (.ok false)))
        | (map, true) =>
          some ({ s with cache := { s.cache with map_ := map } }.setStage i
            (if s.cache.writeToDisk_ then .inserted newEntry else .returned (.ok true)))
    | _ => none
  | .openFile i =>
    match s.stages i with
    | .inserted newEntry =>
      if (calls i).fileOpens then
        some ((s.truncate (s.path newEntry)).setStage i (.opened newEntry))
      else some (s.setStage i (.returned (.error .systemError)))
    | _ => none
  | .write i =>
    match s.stages i with
    | .opened newEntry =>
      some ((s.overwrite (s.path newEntry) newEntry.getContent.bytes).setStage i
        (.returned (.ok true)))
    | _ => none
  | .read j url =>
    match s.cache.map_.lookup url with
    | some route =>
      let table := (WriteOnce.insertNew (s.tables j) url route.getHash).1
      some { s with tables := fun k => if k = j then table else s.tables k }
    | none => none

/-- Nothing is cached; the directory is as an earlier process may have left it. -/
def start (dir : String) (files : String → Option Bytes) : DiskCache :=
  { cache := { cache_directory_ := dir, writeToDisk_ := true, files := files } }

/-! ## One call by itself -/

section
variable {ext : External} {calls : Nat → ContentCache.Add} {s : DiskCache} {i : Nat}

theorem setStage_setStage (a b : Stage) : (s.setStage i a).setStage i b = s.setStage i b := by
  unfold setStage
  congr 1
  funext j
  by_cases hj : j = i <;> simp [hj]

@[simp] theorem setStage_self (stage : Stage) : (s.setStage i stage).stages i = stage := by
  simp [setStage]

theorem setStage_ne {j : Nat} {stage : Stage} (hj : j ≠ i) :
    (s.setStage i stage).stages j = s.stages j := if_neg hj

theorem files_truncate (p q : String) :
    (s.truncate p).cache.files q = if q = p then some [] else s.cache.files q := rfl

theorem files_overwrite (p q : String) (content : Bytes) :
    (s.overwrite p content).cache.files q = if q = p then
      some (content ++ ((s.cache.files p).getD []).drop content.length) else s.cache.files q := rfl

theorem truncate_overwrite (path : String) (content : Bytes) :
    (s.truncate path).overwrite path content =
      { s with cache := s.cache.writeFile path content } := by
  have hempty : ((s.truncate path).cache.files path).getD [] = [] := by
    simp [truncate, ContentCache.writeFile]
  unfold overwrite
  simp only [hempty, List.drop_nil, List.append_nil]
  unfold truncate ContentCache.writeFile
  congr 2
  funext p
  by_cases hp : p = path <;> simp [hp]

theorem step_openFile {newEntry : CachedRoute} (hopens : (calls i).fileOpens = true) :
    step ext calls (s.setStage i (.inserted newEntry)) (.openFile i) =
      some ((s.truncate (s.path newEntry)).setStage i (.opened newEntry)) := by
  simp only [step, setStage_self, hopens, if_true]
  exact congrArg some (@setStage_setStage (s.truncate (s.path newEntry)) i _ _)

theorem step_write {newEntry : CachedRoute} :
    step ext calls ((s.truncate (s.path newEntry)).setStage i (.opened newEntry)) (.write i) =
      some (setStage { s with cache := s.cache.writeFile (s.path newEntry) newEntry.getContent.bytes }
        i (.returned (.ok true))) := by
  simp only [step, setStage_self]
  rw [← truncate_overwrite]
  exact congrArg some (@setStage_setStage
    ((s.truncate (s.path newEntry)).overwrite (s.path newEntry) newEntry.getContent.bytes) i _ _)

/-- With no other call in between, the steps of a call do what `addCachedRoute` does. -/
theorem run_alone (hnew : s.stages i = .notCalled) (hasRoom : Bool) :
    ∃ es, es <+: [.insert i hasRoom, .openFile i, .write i] ∧
      Run.run (step ext calls) s es = some
        (setStage { s with cache := (s.cache.addCachedRoute ext ⟨hasRoom, (calls i).fileOpens⟩
            (calls i).url (calls i).chain (calls i).headers).1 } i
          (.returned (s.cache.addCachedRoute ext ⟨hasRoom, (calls i).fileOpens⟩ (calls i).url
            (calls i).chain (calls i).headers).2)) := by
  have hentry : CachedRoute.new ext (calls i).url (calls i).chain.clone (calls i).headers =
      (calls i).newEntry ext := rfl
  unfold ContentCache.addCachedRoute
  rw [hentry]
  cases hold : s.cache.map_.lookup (calls i).url with
  | some route =>
    refine ⟨[.insert i hasRoom], by simp, ?_⟩
    simp [step, hnew, hold, WriteOnce.insertNew_present hold]
  | none =>
    cases hasRoom with
    | false =>
      refine ⟨[.insert i false], by simp, ?_⟩
      simp [step, hnew, hold]
    | true =>
      rcases Bool.eq_false_or_eq_true s.cache.writeToDisk_ with hdisk | hdisk
      · cases hopens : (calls i).fileOpens with
        | false =>
          refine ⟨[.insert i true, .openFile i], ?_, ?_⟩
          · exact List.cons_prefix_cons.2 ⟨rfl, by simp⟩
          · simp [step, hnew, hdisk, hopens, WriteOnce.insertNew_absent hold, setStage_setStage]
        | true =>
          refine ⟨[.insert i true, .openFile i, .write i], List.prefix_refl _, ?_⟩
          let s₁ : DiskCache :=
            { s with cache := { s.cache with
                map_ := ((calls i).url, (calls i).newEntry ext) :: s.cache.map_ } }
          have hinsert : step ext calls s (.insert i true) =
              some (s₁.setStage i (.inserted ((calls i).newEntry ext))) := by
            simp [step, hnew, hdisk, WriteOnce.insertNew_absent hold, s₁]
          rw [Run.run_cons, hinsert, Option.bind_some, Run.run_cons, step_openFile hopens,
            Option.bind_some, Run.run_cons, step_write, Option.bind_some, Run.run_nil]
          simp only [WriteOnce.insertNew_absent hold, hdisk, Bool.not_true, Bool.false_and,
            Bool.false_eq_true, if_false, if_true, s₁]
          rfl
      · refine ⟨[.insert i true], by simp, ?_⟩
        simp [step, hnew, hdisk, WriteOnce.insertNew_absent hold]

end

end DiskCache

end GladiusMasternode
