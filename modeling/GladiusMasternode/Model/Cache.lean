import GladiusMasternode.Model.Http
import GladiusMasternode.Library.WriteOnce
/-
# The content cache (`Cache.h`, `Cache.cpp`)

| here | there |
| --- | --- |
| `CachedRoute`             | `CachedRoute`; `CachedRoute.new` is its constructor (`Cache.cpp:5-13`), which hashes the data |
| `ContentCache.map_`       | the `folly::ConcurrentHashMap`: find and insert are atomic, an insert of a present key changes nothing and reports `false` |
| `AddIO`                   | what the surroundings answer during one `addCachedRoute`: whether the map has room for a new key, whether the file can be opened |
| `ContentCache.Add`        | the arguments of one `addCachedRoute`, and whether its file could be opened |
| `addCachedRoute`          | `ContentCache::addCachedRoute` (`Cache.cpp:35-62`); an exception leaves the cache as it stands at the throw |
| `getAssetHashMap`         | `ContentCache::getAssetHashMap` (`Cache.cpp:64-72`) |
-/

namespace GladiusMasternode

def hexDigit (n : Nat) : Char := ['0', '1', '2', '3', '4', '5', '6', '7', '8', '9', 'a', 'b', 'c',
  'd', 'e', 'f'].getD n '0'

/-- `folly::hexlify` -/
def hexlify (bs : Bytes) : String :=
  String.ofList (bs.flatMap fun b => [hexDigit (b.toNat / 16), hexDigit (b.toNat % 16)])

structure CachedRoute where
  sha256_ : String
  url_ : String
  content_ : IOBuf
  headers_ : HTTPMessage
deriving DecidableEq, Repr

namespace CachedRoute

def new (ext : External) (url : String) (data : IOBuf) (headers : HTTPMessage) : CachedRoute :=
  { sha256_ := hexlify (ext.sha256 data.bytes), url_ := url, content_ := data, headers_ := headers }

def getHash (r : CachedRoute) : String := r.sha256_
def getURL (r : CachedRoute) : String := r.url_
def getContent (r : CachedRoute) : IOBuf := r.content_.clone
def getHeaders (r : CachedRoute) : HTTPMessage := r.headers_

end CachedRoute

inductive CacheException where
  | badAlloc     -- the shard of a new key is full
  | systemError  -- `folly::File` could not open the file
deriving DecidableEq, Repr

structure AddIO where
  hasRoom : Bool
  fileOpens : Bool
deriving DecidableEq, Repr

structure ContentCache where
  map_ : List (String × CachedRoute) := []
  cache_directory_ : String := "/dev/null"
  writeToDisk_ : Bool := false
  /-- the files `addCachedRoute` has written, by path -/
  files : String → Option Bytes := fun _ => none

namespace ContentCache

structure Add where
  url : String
  chain : IOBuf
  headers : HTTPMessage
  fileOpens : Bool

def getCachedRoute (c : ContentCache) (url : String) : Option CachedRoute := c.map_.lookup url

/-- `folly::File(path, O_WRONLY | O_CREAT | O_TRUNC)` and the write of the whole body. -/
def writeFile (c : ContentCache) (path : String) (content : Bytes) : ContentCache :=
  { c with files := fun p => if p = path then some content else c.files p }

def addCachedRoute (ext : External) (io : AddIO) (c : ContentCache) (url : String) (chain : IOBuf)
    (headers : HTTPMessage) : ContentCache × Except CacheException Bool :=
  let newEntry := CachedRoute.new ext url chain.clone headers
  if !io.hasRoom && (c.map_.lookup url).isNone then (c, .error .badAlloc)
  else match WriteOnce.insertNew c.map_ url newEntry with
    | (_, false) => (c, .ok false)
    | (map, true) =>
      let c := { c with map_ := map }
      if c.writeToDisk_ then
        if io.fileOpens then
          (c.writeFile (c.cache_directory_ ++ newEntry.getHash) newEntry.getContent.bytes, .ok true)
        else (c, .error .systemError)
      else (c, .ok true)

def getAssetHashMap (c : ContentCache) : List (String × String) :=
  WriteOnce.insertAll [] (c.map_.map fun e => (e.1, e.2.getHash))

def size (c : ContentCache) : Nat := c.map_.length

/-- A call that returns has done one write-once insert on the map and reports its outcome. -/
theorem addCachedRoute_ok {ext : External} {io : AddIO} {c c' : ContentCache} {url : String}
    {chain : IOBuf} {headers : HTTPMessage} {b : Bool}
    (h : c.addCachedRoute ext io url chain headers = (c', .ok b)) :
    WriteOnce.insertNew c.map_ url (CachedRoute.new ext url chain headers) = (c'.map_, b) := by
  unfold addCachedRoute at h
  cases hl : c.map_.lookup url with
  | some r =>
    simp only [hl, Option.isNone_some, Bool.and_false, Bool.false_eq_true, if_false,
      WriteOnce.insertNew_present hl, Prod.mk.injEq, Except.ok.injEq] at h
    obtain ⟨rfl, rfl⟩ := h
    rw [WriteOnce.insertNew_present hl]
  | none =>
    simp only [hl, Option.isNone_none, Bool.and_true, WriteOnce.insertNew_absent hl,
      IOBuf.clone_eq] at h
    rw [WriteOnce.insertNew_absent hl]
    by_cases hr : (!io.hasRoom) = true
    · rw [if_pos hr] at h; cases h
    · rw [if_neg hr] at h
      by_cases hw : c.writeToDisk_ = true
      · by_cases hf : io.fileOpens = true
        · simp only [hw, hf, if_true, Prod.mk.injEq, Except.ok.injEq] at h
          obtain ⟨rfl, rfl⟩ := h
          rfl
        · simp [hw, hf] at h
      · simp only [hw, if_false, Prod.mk.injEq, Except.ok.injEq, Bool.false_eq_true] at h
        obtain ⟨rfl, rfl⟩ := h
        rfl

/-- The advertised table lists every cached url with the hash of its entry. -/
theorem lookup_getAssetHashMap (c : ContentCache) (url : String) :
    c.getAssetHashMap.lookup url = (c.getCachedRoute url).map CachedRoute.getHash := by
  unfold getAssetHashMap getCachedRoute
  rw [WriteOnce.insertAll_lookup, List.lookup_nil, Option.none_or]
  induction c.map_ with
  | nil => rfl
  | cons e m ih =>
    obtain ⟨u, r⟩ := e
    by_cases hu : url = u
    · subst hu; simp
    · rw [List.map_cons, WriteOnce.lookup_cons_ne hu, WriteOnce.lookup_cons_ne hu, ih]

theorem nodup_getAssetHashMap (c : ContentCache) : (c.getAssetHashMap.map Prod.fst).Nodup :=
  WriteOnce.insertAll_nodup (by simp) _

end ContentCache

end GladiusMasternode
