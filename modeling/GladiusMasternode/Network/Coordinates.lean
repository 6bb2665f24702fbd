import GladiusMasternode.Model.DirectHandler
/-
# What a coordinate lookup returns

`lookupCoordinates` fills one `Location` field by field inside a `try` block, so what it returns
after a throw depends on how far it came. The comment above it promises the default coordinates
after any issue.

| here | there |
| --- | --- |
| `lookupBlock`       | the `try` block, statement by statement, on the local `location` |
| `lookupStatements`  | the whole body; its three `catch` clauses all log and go on |
| `parsed`            | the number the database has for a field |
| `AllOrNothing`      | both coordinates are the database's, or both are the default |
| `Whole`             | what the database has to say for that |
-/

namespace GladiusMasternode

variable {R : Type} [Field R] {lib : Libs R} {g : Geo R} {ip : String}

namespace Geo

/-! ## Statement by statement -/

/-- A call that can throw a `std::exception`. -/
def orThrow {α : Type} : Option α → ExceptT Unit (StateM (Location R)) α
  | some a => pure a
  | none => throw ()

def lookupBlock (lib : Libs R) (g : Geo R) (ip : String) :
    ExceptT Unit (StateM (Location R)) Unit := do
  let get_field ← orThrow (g.db_.lookup_raw ip)
  let latitude_str ← orThrow (get_field ["location", "latitude"])
  let longitude_str ← orThrow (get_field ["location", "longitude"])
  if !latitude_str.isEmpty then
    let latitude ← orThrow (lib.stod latitude_str)
    modify fun location => { location with latitude := latitude }
  if !longitude_str.isEmpty then
    let longitude ← orThrow (lib.stod longitude_str)
    modify fun location => { location with longitude := longitude }

def lookupStatements (lib : Libs R) (g : Geo R) (ip : String) :
    ExceptT Unit (StateM (Location R)) (Location R) := do
  try lookupBlock lib g ip catch _ => pure ()
  modify fun location => location.convertToCartesian lib
  get

/-- No exception leaves the body, wherever it is thrown. -/
theorem run_lookupStatements (lib : Libs R) (g : Geo R) (ip : String) :
    ((lookupStatements lib g ip).run.run ⟨0, 0, 0, 0, 0⟩).1 = .ok (g.lookupCoordinates lib ip) := by
  unfold lookupStatements lookupBlock lookupCoordinates
  cases hraw : g.db_.lookup_raw ip with
  | none => rfl
  | some get_field =>
    cases hlat : get_field ["location", "latitude"] with
    | none =>
      simp only [orThrow, pure_bind, hlat]
      rfl
    | some latitude_str =>
      cases hlong : get_field ["location", "longitude"] with
      | none =>
        simp only [orThrow, pure_bind, hlat, hlong]
        rfl
      | some longitude_str =>
        simp only [orThrow, pure_bind, hlat, hlong]
        cases latitude_str.isEmpty with
        | true =>
          cases longitude_str.isEmpty with
          | true => rfl
          | false => cases lib.stod longitude_str <;> rfl
        | false =>
          cases lib.stod latitude_str with
          | none => rfl
          | some latitude =>
            cases longitude_str.isEmpty with
            | true => rfl
            | false => cases lib.stod longitude_str <;> rfl

/-! ## All or nothing -/

/-- The number of a field that is found, is not empty and parses. -/
def parsed (lib : Libs R) (g : Geo R) (ip field : String) : Option R :=
  (g.db_.lookup_raw ip).bind fun get_field =>
    (get_field ["location", field]).bind fun str => if str.isEmpty then none else lib.stod str

def AllOrNothing (lib : Libs R) (g : Geo R) (ip : String) (l : Location R) : Prop :=
  (parsed lib g ip "latitude" = some l.latitude ∧ parsed lib g ip "longitude" = some l.longitude) ∨
    (l.latitude = 0 ∧ l.longitude = 0)

/-- Asked of the database only where both fields are found: with an empty latitude the longitude
gives no number but 0, and a latitude that gives another number than 0 comes with a longitude that
gives one too. -/
def Whole (lib : Libs R) (g : Geo R) (ip : String) : Prop :=
  ∀ get_field latitude_str longitude_str, g.db_.lookup_raw ip = some get_field →
    get_field ["location", "latitude"] = some latitude_str →
    get_field ["location", "longitude"] = some longitude_str →
    (latitude_str.isEmpty = true → longitude_str.isEmpty = false →
      ∀ longitude, lib.stod longitude_str = some longitude → longitude = 0) ∧
    (latitude_str.isEmpty = false → ∀ latitude, lib.stod latitude_str = some latitude →
      latitude ≠ 0 → longitude_str.isEmpty = false ∧ (lib.stod longitude_str).isSome = true)

/-- With a field missing there is nothing to mix. -/
theorem lookupCoordinates_of_missing
    (h : ∀ get_field, g.db_.lookup_raw ip = some get_field →
      get_field ["location", "latitude"] = none ∨ get_field ["location", "longitude"] = none) :
    g.lookupCoordinates lib ip = (⟨0, 0, 0, 0, 0⟩ : Location R).convertToCartesian lib := by
  unfold lookupCoordinates
  cases hraw : g.db_.lookup_raw ip with
  | none => rfl
  | some get_field =>
    obtain hlat | hlong := h get_field hraw
    · simp only [hlat]
    · simp only [hlong]
      cases get_field ["location", "latitude"] <;> rfl

section
variable {get_field : List String → Option String} {latitude_str longitude_str : String}
  (hraw : g.db_.lookup_raw ip = some get_field)
  (hlat : get_field ["location", "latitude"] = some latitude_str)
  (hlong : get_field ["location", "longitude"] = some longitude_str)
include hraw hlat hlong

theorem whole_iff_of_found : Whole lib g ip ↔
    (latitude_str.isEmpty = true → longitude_str.isEmpty = false →
      ∀ longitude, lib.stod longitude_str = some longitude → longitude = 0) ∧
    (latitude_str.isEmpty = false → ∀ latitude, lib.stod latitude_str = some latitude →
      latitude ≠ 0 → longitude_str.isEmpty = false ∧ (lib.stod longitude_str).isSome = true) := by
  constructor
  · intro h
    exact h get_field latitude_str longitude_str hraw hlat hlong
  · intro h get_field' latitude_str' longitude_str' hraw' hlat' hlong'
    obtain rfl := Option.some.inj (hraw.symm.trans hraw')
    obtain rfl := Option.some.inj (hlat.symm.trans hlat')
    obtain rfl := Option.some.inj (hlong.symm.trans hlong')
    exact h

theorem allOrNothing_iff_of_found :
    AllOrNothing lib g ip (g.lookupCoordinates lib ip) ↔ Whole lib g ip := by
  rw [whole_iff_of_found hraw hlat hlong]
  unfold AllOrNothing parsed lookupCoordinates
  simp only [hraw, hlat, hlong, Option.bind_some]
  -- the throws and the empty strings, in the order in which the block meets them
  cases latitude_str.isEmpty with
  | true =>
    cases longitude_str.isEmpty with
    | true => simp [Location.convertToCartesian]
    | false => cases lib.stod longitude_str <;> simp [Location.convertToCartesian]
  | false =>
    cases lib.stod latitude_str with
    | none => simp [Location.convertToCartesian]
    | some latitude =>
      cases longitude_str.isEmpty with
      | true => simp [Location.convertToCartesian]
      | false => cases lib.stod longitude_str <;> simp [Location.convertToCartesian]

end

theorem allOrNothing_of_missing
    (h : ∀ get_field, g.db_.lookup_raw ip = some get_field →
      get_field ["location", "latitude"] = none ∨ get_field ["location", "longitude"] = none) :
    AllOrNothing lib g ip (g.lookupCoordinates lib ip) := by
  rw [lookupCoordinates_of_missing h]
  exact .inr ⟨rfl, rfl⟩

/-- The members after the conversion are those of the coordinates before it. -/
theorem convertToCartesian_lookupCoordinates (lib : Libs R) (g : Geo R) (ip : String) :
    (g.lookupCoordinates lib ip).convertToCartesian lib = g.lookupCoordinates lib ip := rfl

/-- A location is whole as long as the database's two fields go together. -/
theorem lookupCoordinates_whole_iff (lib : Libs R) (g : Geo R) (ip : String) :
    ((lookupStatements lib g ip).run.run ⟨0, 0, 0, 0, 0⟩).1 = .ok (g.lookupCoordinates lib ip) ∧
    (g.lookupCoordinates lib ip).convertToCartesian lib = g.lookupCoordinates lib ip ∧
    (AllOrNothing lib g ip (g.lookupCoordinates lib ip) ↔ Whole lib g ip) := by
  refine ⟨run_lookupStatements lib g ip, convertToCartesian_lookupCoordinates lib g ip, ?_⟩
  by_cases hfound : ∃ get_field latitude_str longitude_str, g.db_.lookup_raw ip = some get_field ∧
      get_field ["location", "latitude"] = some latitude_str ∧
      get_field ["location", "longitude"] = some longitude_str
  · obtain ⟨get_field, latitude_str, longitude_str, hraw, hlat, hlong⟩ := hfound
    exact allOrNothing_iff_of_found hraw hlat hlong
  · have hmissing : ∀ get_field, g.db_.lookup_raw ip = some get_field →
        get_field ["location", "latitude"] = none ∨ get_field ["location", "longitude"] = none := by
      intro get_field hraw
      cases hlat : get_field ["location", "latitude"] with
      | none => exact .inl rfl
      | some latitude_str =>
        cases hlong : get_field ["location", "longitude"] with
        | none => exact .inr rfl
        | some longitude_str =>
          exact absurd ⟨get_field, latitude_str, longitude_str, hraw, hlat, hlong⟩ hfound
    refine iff_of_true (allOrNothing_of_missing hmissing) ?_
    intro get_field latitude_str longitude_str hraw hlat hlong
    exact absurd ⟨get_field, latitude_str, longitude_str, hraw, hlat, hlong⟩ hfound

/-! ### A place that is half set -/

/-- A database with the same record for every address. -/
def record (latitude_str longitude_str : String) : Geo ℚ where
  db_ := { lookup_raw := fun _ => some fun path =>
    if path = ["location", "latitude"] then some latitude_str
    else if path = ["location", "longitude"] then some longitude_str else none }

/-- `std::stod` on the two numbers of these records; it throws on anything else. -/
def recordLib : Libs ℚ :=
  { Scenario.lib with
    stod := fun str => if str = "51.5" then some (103 / 2) else if str = "-0.1" then some (-1 / 10)
      else none }

/-- An empty longitude, an empty latitude, and a longitude that does not parse: on the prime
meridian, on the equator, and on the prime meridian again. -/
theorem half_set_places :
    let place (latitude_str longitude_str : String) :=
      (record latitude_str longitude_str).lookupCoordinates recordLib "1.2.3.4"
    ((place "51.5" "").latitude = 103 / 2 ∧ (place "51.5" "").longitude = 0 ∧
      ¬ AllOrNothing recordLib (record "51.5" "") "1.2.3.4" (place "51.5" "")) ∧
    ((place "" "-0.1").latitude = 0 ∧ (place "" "-0.1").longitude = -1 / 10 ∧
      ¬ AllOrNothing recordLib (record "" "-0.1") "1.2.3.4" (place "" "-0.1")) ∧
    ((place "51.5" "x").latitude = 103 / 2 ∧ (place "51.5" "x").longitude = 0 ∧
      ¬ AllOrNothing recordLib (record "51.5" "x") "1.2.3.4" (place "51.5" "x")) := by
  unfold AllOrNothing
  decide +kernel

end Geo

end GladiusMasternode
