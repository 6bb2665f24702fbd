import GladiusMasternode.Model.System
import Mathlib.Data.Finset.Card
/-
# The limit on cached routes

`maxRoutesToCache` reaches the cache as the `maxSize` of its `folly::ConcurrentHashMap`, which rounds
it up, divides it among 256 shards, and throws when a shard is full. Nobody counts the routes.

| here | there |
| --- | --- |
| `shard`      | the shard of a url: the map's hash, taken as any function |
| `shardLimit` | **folly boundary**: the most entries a shard takes; 0 means any number |
| `hasRoom`    | **folly boundary**: whether an insert of a new key finds room, or throws `std::bad_alloc` |
-/

namespace GladiusMasternode

namespace ContentCache

/-! ## The map's limit -/

/-- `folly::findLastSet`: the position of the highest bit, from 1. -/
def findLastSet (n : Nat) : Nat := if n = 0 then 0 else n.log2 + 1

/-- `folly::nextPowTwo` -/
def nextPowTwo (n : Nat) : Nat := if n = 0 then 1 else 1 <<< findLastSet (n - 1)

def shardLimit (maxSize : Nat) : Nat := nextPowTwo maxSize / 256

section
variable (maxSize : Nat) (shard : String → Fin 256)

def hasRoom (c : ContentCache) (url : String) : Bool :=
  shardLimit maxSize = 0 ||
    (c.map_.filter fun e => shard e.1 = shard url).length < shardLimit maxSize

def add (ext : External) (c : ContentCache) (a : Add) :
    ContentCache × Except CacheException Bool :=
  c.addCachedRoute ext { hasRoom := c.hasRoom maxSize shard a.url, fileOpens := a.fileOpens }
    a.url a.chain a.headers

/-- The next call starts from what this one has left behind, also where it has thrown. -/
def addStep (ext : External) (c : ContentCache) (a : Add) : Option ContentCache :=
  some (c.add maxSize shard ext a).1

/-! ## What the limit should mean -/

/-- The url is new, and there are as many routes as configured, or as many as its shard takes. -/
def NoRoom (c : ContentCache) (url : String) : Prop :=
  c.getCachedRoute url = none ∧ (maxSize ≤ c.size ∨ c.hasRoom maxSize shard url = false)

/-- A call respects the limit, and is refused where there is no room. -/
structure Respects (ext : External) (c : ContentCache) (a : Add) : Prop where
  size : (c.add maxSize shard ext a).1.size ≤ maxSize
  refused : c.NoRoom maxSize shard a.url →
    (c.add maxSize shard ext a).2 = .ok false ∧ (c.add maxSize shard ext a).1.map_ = c.map_

/-- As many urls as configured, and in each shard as many as it takes. -/
def Fits (urls : Finset String) : Prop :=
  urls.card ≤ maxSize ∧
    (shardLimit maxSize = 0 ∨ ∀ k, (urls.filter fun u => shard u = k).card ≤ shardLimit maxSize)

end

section
variable {maxSize : Nat} {shard : String → Fin 256} {ext : External} {c : ContentCache}

theorem Fits.mono {urls urls' : Finset String} (h : Fits maxSize shard urls')
    (hsub : urls ⊆ urls') : Fits maxSize shard urls := by
  refine ⟨Nat.le_trans (Finset.card_le_card hsub) h.1, h.2.imp_right fun hshards k => ?_⟩
  exact Nat.le_trans (Finset.card_le_card (Finset.filter_subset_filter _ hsub)) (hshards k)

def urls (c : ContentCache) : Finset String := (c.map_.map Prod.fst).toFinset

theorem mem_urls_iff {url : String} : url ∈ c.urls ↔ c.getCachedRoute url ≠ none := by
  unfold urls getCachedRoute
  rw [List.mem_toFinset, WriteOnce.lookup_ne_none_iff]

theorem card_urls (hnodup : (c.map_.map Prod.fst).Nodup) : c.urls.card = c.size := by
  unfold urls size
  rw [List.toFinset_card_of_nodup hnodup, List.length_map]

theorem card_shard (hnodup : (c.map_.map Prod.fst).Nodup) (k : Fin 256) :
    (c.urls.filter fun u => shard u = k).card = (c.map_.filter fun e => shard e.1 = k).length := by
  have hfilter : (c.urls.filter fun u => shard u = k) =
      ((c.map_.filter fun e => shard e.1 = k).map Prod.fst).toFinset := by
    ext u
    simp [urls]
  have hsub : ((c.map_.filter fun e => shard e.1 = k).map Prod.fst).Nodup :=
    (List.Sublist.map Prod.fst List.filter_sublist).nodup hnodup
  rw [hfilter, List.toFinset_card_of_nodup hsub, List.length_map]

/-- A new url raises the count of its own shard. -/
theorem card_shard_insert (hnodup : (c.map_.map Prod.fst).Nodup) {url : String} (hurl : url ∉ c.urls)
    (k : Fin 256) : ((insert url c.urls).filter fun u => shard u = k).card =
      (c.map_.filter fun e => shard e.1 = k).length + if shard url = k then 1 else 0 := by
  rw [Finset.filter_insert, ← card_shard hnodup]
  split
  · exact Finset.card_insert_of_notMem fun h => hurl (Finset.mem_filter.1 h).1
  · rfl

/-- A new url finds room exactly if the cache still fits with it. -/
theorem fits_insert_iff (hnodup : (c.map_.map Prod.fst).Nodup) (hfits : Fits maxSize shard c.urls)
    {url : String} (hnew : c.getCachedRoute url = none) :
    Fits maxSize shard (insert url c.urls) ↔ ¬ c.NoRoom maxSize shard url := by
  have hurl : url ∉ c.urls := fun h => mem_urls_iff.1 h hnew
  have hcard : (insert url c.urls).card = c.size + 1 := by
    rw [Finset.card_insert_of_notMem hurl, card_urls hnodup]
  have hshards : (shardLimit maxSize = 0 ∨
      ∀ k, ((insert url c.urls).filter fun u => shard u = k).card ≤ shardLimit maxSize) ↔
      c.hasRoom maxSize shard url = true := by
    unfold hasRoom
    rw [Bool.or_eq_true, decide_eq_true_eq, decide_eq_true_eq]
    refine or_congr_right' fun hlimit => ?_
    constructor
    · intro hall
      have hown := hall (shard url)
      rw [card_shard_insert hnodup hurl, if_pos rfl] at hown
      exact hown
    · intro hroom k
      rw [card_shard_insert hnodup hurl]
      by_cases hk : shard url = k
      · subst hk
        rw [if_pos rfl]
        exact hroom
      · rw [if_neg hk, ← card_shard hnodup]
        exact hfits.2.resolve_left hlimit k
  unfold NoRoom Fits
  rw [hcard, hshards, and_iff_right hnew, not_or, Nat.not_le, Bool.not_eq_false]
  exact Iff.rfl

/-! ## One call -/

theorem add_present {a : Add} {route : CachedRoute} (h : c.getCachedRoute a.url = some route) :
    c.add maxSize shard ext a = (c, .ok false) := by
  have hlookup : c.map_.lookup a.url = some route := h
  unfold add addCachedRoute
  simp only [hlookup, Option.isNone_some, Bool.and_false, Bool.false_eq_true, if_false,
    WriteOnce.insertNew_present hlookup]

theorem add_full {a : Add} (h : c.getCachedRoute a.url = none)
    (hfull : c.hasRoom maxSize shard a.url = false) :
    c.add maxSize shard ext a = (c, .error .badAlloc) := by
  have hlookup : c.map_.lookup a.url = none := h
  unfold add addCachedRoute
  simp only [hlookup, hfull, Option.isNone_none, Bool.not_false, Bool.and_self, if_true]

/-- With room in its shard a new route goes in, whatever becomes of its file. -/
theorem add_new {a : Add} (h : c.getCachedRoute a.url = none)
    (hroom : c.hasRoom maxSize shard a.url = true) :
    (c.add maxSize shard ext a).1.map_ =
      (a.url, CachedRoute.new ext a.url a.chain a.headers) :: c.map_ := by
  have hlookup : c.map_.lookup a.url = none := h
  unfold add addCachedRoute
  simp only [hroom, Bool.not_true, Bool.false_and, Bool.false_eq_true, if_false,
    WriteOnce.insertNew_absent hlookup, IOBuf.clone_eq]
  split
  · split <;> rfl
  · rfl

theorem urls_add_new {a : Add} (h : c.getCachedRoute a.url = none)
    (hroom : c.hasRoom maxSize shard a.url = true) :
    (c.add maxSize shard ext a).1.urls = insert a.url c.urls := by
  rw [urls, add_new h hroom, List.map_cons, List.toFinset_cons]
  rfl

/-- Where there is no room, the call throws or goes over the limit: it is never refused. -/
theorem not_respects_of_noRoom {a : Add} (h : c.NoRoom maxSize shard a.url) :
    ¬ Respects maxSize shard ext c a := by
  intro hr
  obtain ⟨hresult, hmap⟩ := hr.refused h
  obtain ⟨hnew, -⟩ := h
  cases hroom : c.hasRoom maxSize shard a.url with
  | false =>
    rw [add_full hnew hroom] at hresult
    cases hresult
  | true =>
    rw [add_new hnew hroom] at hmap
    exact List.cons_ne_self _ _ hmap

theorem respects_of_fits {a : Add} (hfits : Fits maxSize shard (c.add maxSize shard ext a).1.urls)
    (hnodup : ((c.add maxSize shard ext a).1.map_.map Prod.fst).Nodup)
    (hroom : ¬ c.NoRoom maxSize shard a.url) : Respects maxSize shard ext c a := by
  refine ⟨?_, fun h => absurd h hroom⟩
  rw [← card_urls hnodup]
  exact hfits.1

/-! ## Sequences of calls -/

/-- The calls respect the limit exactly if their urls fit into the cache with what it holds. -/
theorem meets_iff_fits (calls : List Add) : ∀ {c : ContentCache}, (c.map_.map Prod.fst).Nodup →
    Fits maxSize shard c.urls →
    (Run.Meets (addStep maxSize shard ext) (Respects maxSize shard ext) c calls ↔
      Fits maxSize shard (c.urls ∪ (calls.map Add.url).toFinset)) := by
  induction calls with
  | nil =>
    intro c _ hfits
    simpa [Run.Meets] using hfits
  | cons a calls ih =>
    intro c hnodup hfits
    have hmeets : Run.Meets (addStep maxSize shard ext) (Respects maxSize shard ext) c (a :: calls) ↔
        Respects maxSize shard ext c a ∧ Run.Meets (addStep maxSize shard ext)
          (Respects maxSize shard ext) (c.add maxSize shard ext a).1 calls := by
      simp [Run.Meets, addStep]
    rw [hmeets, List.map_cons, List.toFinset_cons]
    cases hold : c.getCachedRoute a.url with
    | some route =>
      have hin : a.url ∈ c.urls := mem_urls_iff.2 (by rw [hold]; exact Option.some_ne_none _)
      have hnot : ¬ c.NoRoom maxSize shard a.url := by
        rintro ⟨hnone, -⟩
        rw [hold] at hnone
        cases hnone
      have hadd := @add_present maxSize shard ext c a route hold
      have hrespects : Respects maxSize shard ext c a :=
        respects_of_fits (by rw [hadd]; exact hfits) (by rw [hadd]; exact hnodup) hnot
      rw [and_iff_right hrespects, hadd, Finset.union_insert, ← Finset.insert_union,
        Finset.insert_eq_of_mem hin]
      exact ih hnodup hfits
    | none =>
      rw [Finset.union_insert, ← Finset.insert_union]
      by_cases hroom : c.NoRoom maxSize shard a.url
      · refine iff_of_false (fun h => not_respects_of_noRoom hroom h.1) fun h => ?_
        exact (fits_insert_iff hnodup hfits hold).1 (h.mono Finset.subset_union_left) hroom
      · have hfits' := (fits_insert_iff hnodup hfits hold).2 hroom
        have hspace : c.hasRoom maxSize shard a.url = true := by
          by_contra hfull
          exact hroom ⟨hold, .inr (by simpa using hfull)⟩
        have hurls := @urls_add_new maxSize shard ext c a hold hspace
        have hnodup' : ((c.add maxSize shard ext a).1.map_.map Prod.fst).Nodup := by
          rw [add_new hold hspace, List.map_cons, List.nodup_cons]
          exact ⟨fun h => WriteOnce.lookup_ne_none_iff.2 h hold, hnodup⟩
        rw [← hurls] at hfits' ⊢
        rw [and_iff_right (respects_of_fits hfits' hnodup' hroom)]
        exact ih hnodup' hfits'

/-- **The limit is respected**, and a cache without room refuses, exactly along the calls that never
get there: those with at most as many urls as configured, and as each shard takes. -/
theorem respects_iff_fits (ext : External) (maxSize : Nat) (shard : String → Fin 256) (dir : String)
    (writeToDisk : Bool) (calls : List Add) :
    Run.Meets (addStep maxSize shard ext) (Respects maxSize shard ext)
      { cache_directory_ := dir, writeToDisk_ := writeToDisk } calls ↔
    (calls.map Add.url).toFinset.card ≤ maxSize ∧ (shardLimit maxSize = 0 ∨
      ∀ k, ((calls.map Add.url).toFinset.filter fun url => shard url = k).card ≤
        shardLimit maxSize) := by
  have hempty : Fits maxSize shard ∅ := ⟨Nat.zero_le _, .inr fun k => Nat.zero_le _⟩
  have hiff := @meets_iff_fits maxSize shard ext calls
    { cache_directory_ := dir, writeToDisk_ := writeToDisk } List.nodup_nil hempty
  rw [hiff]
  show Fits maxSize shard (∅ ∪ _) ↔ _
  rw [Finset.empty_union]
  exact Iff.rfl

/-- One page after another, under urls of three characters. -/
def pages (n : Nat) : List Add := (List.range n).map fun i =>
  { url := "/" ++ toString (10 + i), chain := ⟨[111, 107], []⟩, headers := Scenario.page
    fileOpens := true }

def byLength (url : String) : Fin 256 := Fin.ofNat 256 url.length

/-- With 64 routes configured there is no limit at all, and the 65th goes in. With 1024, the fifth
route of one shard throws. -/
theorem over_the_limit :
    ((Run.run (addStep 64 byLength Scenario.ext) {} (pages 65)).map size = some 65 ∧
      ¬ Run.Meets (addStep 64 byLength Scenario.ext) (Respects 64 byLength Scenario.ext) {}
        (pages 65)) ∧
    ((Run.run (addStep 1024 byLength Scenario.ext) {} (pages 4)).map (fun c =>
        (c.size, (pages 5).getLast?.map fun a => (c.add 1024 byLength Scenario.ext a).2)) =
      some (4, some (.error .badAlloc)) ∧
      ¬ Run.Meets (addStep 1024 byLength Scenario.ext) (Respects 1024 byLength Scenario.ext) {}
        (pages 5)) := by
  have hempty : ∀ maxSize, Fits maxSize byLength ∅ :=
    fun _ => ⟨Nat.zero_le _, .inr fun k => Nat.zero_le _⟩
  refine ⟨⟨by decide +kernel, fun hmeets => ?_⟩, ⟨by decide +kernel, fun hmeets => ?_⟩⟩
  · have hfits := (@meets_iff_fits 64 byLength Scenario.ext (pages 65) {} List.nodup_nil
      (hempty 64)).1 hmeets
    exact absurd hfits.1 (by decide +kernel)
  · have hfits := (@meets_iff_fits 1024 byLength Scenario.ext (pages 5) {} List.nodup_nil
      (hempty 1024)).1 hmeets
    rcases hfits.2 with hnone | hshards
    · exact absurd hnone (by decide +kernel)
    · exact absurd (hshards 3) (by decide +kernel)

end

end ContentCache

end GladiusMasternode
