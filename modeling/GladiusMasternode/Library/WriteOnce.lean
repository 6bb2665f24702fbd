import Mathlib.Data.List.Basic
/-!
# Write-once maps

A map from which nothing is removed and in which an insert of a present key changes nothing
and reports `false`. Abstractly its content is a partial function that only grows
(`Extends`); concretely it is an association list (`insertNew`). `Recorded` ties the map to
the log of the insert calls made on it: of all calls for one key exactly one succeeded, and
it is the one whose value is served.
-/

namespace WriteOnce

/-! ## Partial functions that only grow -/

section Extends
variable {α β : Type*}

/-- `g` agrees with `f` wherever `f` is defined. -/
def Extends (f g : α → Option β) : Prop := ∀ a b, f a = some b → g a = some b

theorem Extends.refl (f : α → Option β) : Extends f f := fun _ _ h => h

theorem Extends.trans {f g h : α → Option β} (hfg : Extends f g) (hgh : Extends g h) :
    Extends f h := fun a b hf => hgh a b (hfg a b hf)

end Extends

/-! ## Association lists with a refusing insert -/

section Insert
variable {α β : Type*} [DecidableEq α]

/-- Insert unless the key is present; the flag says whether the entry went in. -/
def insertNew (m : List (α × β)) (a : α) (b : β) : List (α × β) × Bool :=
  match m.lookup a with
  | some _ => (m, false)
  | none => ((a, b) :: m, true)

theorem insertNew_present {m : List (α × β)} {a : α} {b c : β} (h : m.lookup a = some c) :
    insertNew m a b = (m, false) := by simp [insertNew, h]

theorem insertNew_absent {m : List (α × β)} {a : α} {b : β} (h : m.lookup a = none) :
    insertNew m a b = ((a, b) :: m, true) := by simp [insertNew, h]

theorem lookup_cons_ne {m : List (α × β)} {a c : α} {b : β} (h : c ≠ a) :
    ((a, b) :: m).lookup c = m.lookup c := by
  have hb : (c == a) = false := by simpa using h
  rw [List.lookup_cons, hb]

theorem insertNew_lookup_self (m : List (α × β)) (a : α) (b : β) :
    (insertNew m a b).1.lookup a = some ((m.lookup a).getD b) := by
  cases h : m.lookup a with
  | some c => rw [insertNew_present h, h]; rfl
  | none => rw [insertNew_absent h]; simp

theorem insertNew_lookup_ne (m : List (α × β)) {a c : α} (b : β) (h : c ≠ a) :
    (insertNew m a b).1.lookup c = m.lookup c := by
  cases hl : m.lookup a with
  | some d => rw [insertNew_present hl]
  | none => rw [insertNew_absent hl, lookup_cons_ne h]

/-- An insert never changes what an earlier lookup returned. -/
theorem insertNew_extends (m : List (α × β)) (a : α) (b : β) :
    Extends (m.lookup ·) ((insertNew m a b).1.lookup ·) := by
  intro c d (hd : m.lookup c = some d)
  show (insertNew m a b).1.lookup c = some d
  by_cases hc : c = a
  · subst hc; rw [insertNew_lookup_self, hd]; rfl
  · rw [insertNew_lookup_ne m b hc, hd]

theorem lookup_ne_none_iff {m : List (α × β)} {a : α} : m.lookup a ≠ none ↔ a ∈ m.map Prod.fst := by
  simp only [ne_eq, List.lookup_eq_none_iff, List.mem_map, Prod.exists, exists_and_right,
    exists_eq_right]
  constructor
  · intro h
    by_contra hn
    exact h fun p hp => by
      have : a ≠ p.1 := fun e => hn ⟨p.2, by rw [e]; exact hp⟩
      simpa using this
  · rintro ⟨b, hb⟩ h
    simpa using h (a, b) hb

/-- After an insert an entry is an old one, or the new one and the insert has succeeded. -/
theorem mem_insertNew_iff {m : List (α × β)} {a : α} {b : β} {p : α × β} :
    p ∈ (insertNew m a b).1 ↔ p ∈ m ∨ p = (a, b) ∧ (insertNew m a b).2 = true := by
  cases h : m.lookup a with
  | some c => simp [insertNew_present h]
  | none => simp [insertNew_absent h, or_comm]

/-- An insert has succeeded exactly if the key was absent. -/
theorem insertNew_snd_iff {m : List (α × β)} {a : α} {b : β} :
    (insertNew m a b).2 = true ↔ m.lookup a = none := by
  cases h : m.lookup a with
  | some c => simp [insertNew_present h]
  | none => simp [insertNew_absent h]

theorem insertNew_nodup {m : List (α × β)} (h : (m.map Prod.fst).Nodup) (a : α) (b : β) :
    ((insertNew m a b).1.map Prod.fst).Nodup := by
  cases hl : m.lookup a with
  | some c => rw [insertNew_present hl]; exact h
  | none =>
    rw [insertNew_absent hl, List.map_cons, List.nodup_cons]
    exact ⟨fun hm => lookup_ne_none_iff.2 hm hl, h⟩

/-- With distinct keys, membership and lookup say the same. -/
theorem mem_iff_lookup {m : List (α × β)} (h : (m.map Prod.fst).Nodup) {a : α} {b : β} :
    (a, b) ∈ m ↔ m.lookup a = some b := by
  induction m with
  | nil => simp
  | cons p m ih =>
    obtain ⟨c, d⟩ := p
    rw [List.map_cons, List.nodup_cons] at h
    by_cases hc : a = c
    · subst hc
      have hnot : (a, b) ∉ m := fun hm => h.1 (List.mem_map.2 ⟨_, hm, rfl⟩)
      simp [hnot, eq_comm]
    · rw [lookup_cons_ne hc, ← ih h.2]
      simp [hc]

/-! ## Copying a map entry by entry -/

/-- The map obtained by inserting the entries of a list one after the other. -/
def insertAll (m : List (α × β)) (es : List (α × β)) : List (α × β) :=
  es.foldl (fun m e => (insertNew m e.1 e.2).1) m

theorem insertAll_nodup {m : List (α × β)} (h : (m.map Prod.fst).Nodup) (es : List (α × β)) :
    ((insertAll m es).map Prod.fst).Nodup := by
  induction es generalizing m with
  | nil => exact h
  | cons e es ih => exact ih (insertNew_nodup h e.1 e.2)

theorem insertAll_lookup (m es : List (α × β)) (a : α) :
    (insertAll m es).lookup a = (m.lookup a).or (es.lookup a) := by
  induction es generalizing m with
  | nil => simp [insertAll]
  | cons e es ih =>
    obtain ⟨c, d⟩ := e
    have hstep : insertAll m ((c, d) :: es) = insertAll (insertNew m c d).1 es := rfl
    rw [hstep, ih]
    by_cases hc : a = c
    · subst hc
      rw [insertNew_lookup_self]
      cases m.lookup a <;> simp
    · rw [insertNew_lookup_ne m d hc, lookup_cons_ne hc]

end Insert

/-! ## The log of the insert calls -/

/-- One insert call that has returned. -/
structure Call (α β : Type*) where
  key : α
  value : β
  inserted : Bool

section Recorded
variable {α β : Type*} [DecidableEq α]

/-- The values of the successful calls for a key, in the order of the calls. -/
def winners (log : List (Call α β)) (a : α) : List β :=
  (log.filter fun c => c.key = a ∧ c.inserted).map Call.value

/-- The map is what the logged calls made of the empty one. -/
structure Recorded (m : List (α × β)) (log : List (Call α β)) : Prop where
  nodup : (m.map Prod.fst).Nodup
  winners_eq : ∀ a, winners log a = (m.lookup a).toList
  called : ∀ c ∈ log, m.lookup c.key ≠ none

theorem recorded_empty : Recorded ([] : List (α × β)) [] :=
  ⟨by simp, fun a => by simp [winners], fun c hc => by cases hc⟩

theorem winners_append (log : List (Call α β)) (c : Call α β) (a : α) :
    winners (log ++ [c]) a = winners log a ++ if c.key = a ∧ c.inserted then [c.value] else [] := by
  unfold winners
  rw [List.filter_append, List.map_append]
  by_cases h : c.key = a ∧ c.inserted = true <;> simp [h]

/-- An insert together with its log entry keeps map and log in step. -/
theorem recorded_insertNew {m : List (α × β)} {log : List (Call α β)} (h : Recorded m log)
    (a : α) (b : β) :
    Recorded (insertNew m a b).1 (log ++ [⟨a, b, (insertNew m a b).2⟩]) := by
  refine ⟨insertNew_nodup h.nodup a b, fun c => ?_, fun c hc => ?_⟩
  · rw [winners_append, h.winners_eq c]
    by_cases hca : c = a
    · subst hca
      cases hl : m.lookup c with
      | some d => simp [insertNew_present hl, hl]
      | none => simp [insertNew_absent hl]
    · rw [insertNew_lookup_ne m b hca]
      simp [Ne.symm hca]
  · rcases List.mem_append.1 hc with hc | hc
    · obtain ⟨d, hd⟩ := Option.ne_none_iff_exists'.1 (h.called c hc)
      have hd' : (insertNew m a b).1.lookup c.key = some d := insertNew_extends m a b _ _ hd
      rw [hd']
      simp
    · rw [List.mem_singleton.1 hc]
      simp [insertNew_lookup_self]

/-- **Exactly one winner.** Once any call for the key has returned, exactly one successful call
for it is on record, and its value is the one a lookup returns. -/
theorem Recorded.unique_winner {m : List (α × β)} {log : List (Call α β)} (h : Recorded m log)
    {c : Call α β} (hc : c ∈ log) : ∃ b, winners log c.key = [b] ∧ m.lookup c.key = some b := by
  obtain ⟨b, hb⟩ := Option.ne_none_iff_exists'.1 (h.called c hc)
  exact ⟨b, by rw [h.winners_eq, hb]; rfl, hb⟩

end Recorded

end WriteOnce
