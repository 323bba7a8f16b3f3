import Mathlib

/-!
# Slot tables and bounded maps

A table of `n` slots, each empty or with a key and a value, represents a finite map
with at most `n` keys. A key is found by a search through the slots; a new key goes
to a free slot.

* `Table`: the slots, no key twice; `find`, `free`, `put`, `remove`.
* `BoundedMap`: a map with its keys, at most `n` of them; `insert`, `erase`.
* `toMap_put`, `toMap_remove`, `free_eq_none`: how the table represents the map.
* `entries`: what is in the slots, in their order.
-/

namespace Machine

variable {κ ν : Type*} {n : ℕ} {k k' : κ} {v w : ν} {i j : Fin n}

structure Table (κ ν : Type*) (n : ℕ) where
  slot : Fin n → Option (κ × ν)
  distinct : ∀ i j k v w, slot i = some (k, v) → slot j = some (k, w) → i = j

/-- A finite map with at most `n` keys. -/
structure BoundedMap (κ ν : Type*) (n : ℕ) where
  lookup : κ → Option ν
  keys : Finset κ
  mem_keys : ∀ k, k ∈ keys ↔ lookup k ≠ none
  card_le : keys.card ≤ n

namespace BoundedMap

/-- A map is determined by its entries. -/
theorem ext_lookup {m m' : BoundedMap κ ν n} (h : ∀ k, m.lookup k = m'.lookup k) : m = m' := by
  have hlookup : m.lookup = m'.lookup := funext h
  have hkeys : m.keys = m'.keys := by
    ext k
    rw [m.mem_keys, m'.mem_keys, hlookup]
  cases m
  cases m'
  simp only at hlookup hkeys
  subst hlookup hkeys
  rfl

def empty : BoundedMap κ ν n := ⟨fun _ => none, ∅, by simp, by simp⟩

variable [DecidableEq κ]

/-- Set the value of a key; a new key needs room. -/
def insert (m : BoundedMap κ ν n) (k : κ) (v : ν) (h : m.lookup k ≠ none ∨ m.keys.card < n) :
    BoundedMap κ ν n where
  lookup := Function.update m.lookup k (some v)
  keys := Insert.insert k m.keys
  mem_keys k' := by
    by_cases hk : k' = k
    · simp [hk]
    · simp [hk, m.mem_keys]
  card_le := by
    by_cases hk : k ∈ m.keys
    · rw [Finset.insert_eq_of_mem hk]
      exact m.card_le
    · rw [Finset.card_insert_of_notMem hk]
      exact h.resolve_left fun hlookup => hk ((m.mem_keys k).2 hlookup)

def erase (m : BoundedMap κ ν n) (k : κ) : BoundedMap κ ν n where
  lookup := Function.update m.lookup k none
  keys := m.keys.erase k
  mem_keys k' := by
    by_cases hk : k' = k
    · simp [hk]
    · simp [hk, m.mem_keys]
  card_le := (Finset.card_erase_le).trans m.card_le

end BoundedMap

namespace Table

def empty : Table κ ν n := ⟨fun _ => none, by simp⟩

variable {T : Table κ ν n}

/-- Slot `i` gets the key `k` with the value `v`. -/
def put (T : Table κ ν n) (i : Fin n) (k : κ) (v : ν)
    (h : ∀ j w, T.slot j = some (k, w) → j = i) : Table κ ν n where
  slot := Function.update T.slot i (some (k, v))
  distinct := by
    intro a b c x y ha hb
    by_cases hai : a = i <;> by_cases hbi : b = i
    · rw [hai, hbi]
    · subst hai
      rw [Function.update_self] at ha
      obtain ⟨rfl, -⟩ := Prod.mk.inj (Option.some.inj ha)
      rw [Function.update_of_ne hbi] at hb
      exact (h b y hb).symm
    · subst hbi
      rw [Function.update_self] at hb
      obtain ⟨rfl, -⟩ := Prod.mk.inj (Option.some.inj hb)
      rw [Function.update_of_ne hai] at ha
      exact h a x ha
    · rw [Function.update_of_ne hai] at ha
      rw [Function.update_of_ne hbi] at hb
      exact T.distinct a b c x y ha hb

def remove (T : Table κ ν n) (i : Fin n) : Table κ ν n where
  slot := Function.update T.slot i none
  distinct := by
    intro a b c x y ha hb
    have hai : a ≠ i := by
      rintro rfl
      simp at ha
    have hbi : b ≠ i := by
      rintro rfl
      simp at hb
    rw [Function.update_of_ne hai] at ha
    rw [Function.update_of_ne hbi] at hb
    exact T.distinct a b c x y ha hb

@[simp] theorem put_slot (h : ∀ j w, T.slot j = some (k, w) → j = i) :
    (T.put i k v h).slot = Function.update T.slot i (some (k, v)) := rfl

@[simp] theorem remove_slot : (T.remove i).slot = Function.update T.slot i none := rfl

/-- The first free slot. -/
def free (T : Table κ ν n) : Option (Fin n) := (List.finRange n).find? fun i => (T.slot i).isNone

/-- How many slots are in use. -/
def used (T : Table κ ν n) : ℕ := (Finset.univ.filter fun i => (T.slot i).isSome).card

theorem used_le : T.used ≤ n := (Finset.card_filter_le _ _).trans_eq (by simp)

/-- The count of a scan through the slots. -/
theorem used_eq_countP : T.used = (List.finRange n).countP fun i => (T.slot i).isSome := by
  rw [used, Finset.card_def, Finset.filter_val, ← Multiset.countP_eq_card_filter]
  refine (Multiset.coe_countP (fun i => (T.slot i).isSome = true) (List.finRange n)).trans ?_
  simp

/-- What is in the slots, in their order. -/
def entries (T : Table κ ν n) : List (κ × ν) := (List.finRange n).filterMap T.slot

theorem length_entries : T.entries.length = T.used := by
  rw [entries, List.length_filterMap_eq_countP, used_eq_countP]

theorem mem_entries {entry : κ × ν} : entry ∈ T.entries ↔ ∃ i, T.slot i = some entry := by
  simp [entries, List.mem_filterMap]

/-- No key is listed twice. -/
theorem nodup_entries : (T.entries.map Prod.fst).Nodup := by
  rw [entries, List.map_filterMap]
  refine (List.nodup_finRange n).filterMap ?_
  intro i j k hi hj
  obtain ⟨⟨_, v⟩, hv, rfl⟩ := Option.map_eq_some_iff.1 hi
  obtain ⟨⟨_, w⟩, hw, rfl⟩ := Option.map_eq_some_iff.1 hj
  exact T.distinct i j _ v w hv hw

theorem free_slot (h : T.free = some i) : T.slot i = none := by
  have hfree := List.find?_some h
  simpa using hfree

/-- A slot is free exactly while fewer than `n` are in use. -/
theorem free_eq_none : T.free = none ↔ ¬T.used < n := by
  have hall : T.free = none ↔ ∀ i, (T.slot i).isSome = true := by
    simp [free, List.find?_eq_none, Option.isSome_iff_ne_none]
  rw [hall, not_lt]
  constructor
  · intro h
    rw [used, Finset.filter_true_of_mem fun i _ => h i, Finset.card_univ, Fintype.card_fin]
  · intro h i
    have hcard : (Finset.univ.filter fun i => (T.slot i).isSome).card = Fintype.card (Fin n) := by
      rw [Fintype.card_fin]
      exact used_le.antisymm h
    have hi := Finset.mem_univ i
    rw [← Finset.eq_univ_of_card _ hcard] at hi
    exact (Finset.mem_filter.1 hi).2

theorem used_put (h : ∀ j w, T.slot j = some (k, w) → j = i) :
    (T.put i k v h).used = if T.slot i = none then T.used + 1 else T.used := by
  have hslots : (Finset.univ.filter fun j => ((T.put i k v h).slot j).isSome) =
      Insert.insert i (Finset.univ.filter fun j => (T.slot j).isSome) := by
    ext j
    rw [Finset.mem_filter]
    by_cases hj : j = i
    · simp [hj]
    · simp [hj]
  rw [used, hslots]
  split_ifs with hi
  · exact Finset.card_insert_of_notMem (by simp [hi])
  · rw [Finset.insert_eq_of_mem (by simpa [Option.isSome_iff_ne_none] using hi), used]

theorem used_remove (h : T.slot i ≠ none) : (T.remove i).used + 1 = T.used := by
  have hslots : (Finset.univ.filter fun j => ((T.remove i).slot j).isSome) =
      (Finset.univ.filter fun j => (T.slot j).isSome).erase i := by
    ext j
    rw [Finset.mem_filter]
    by_cases hj : j = i
    · simp [hj]
    · simp [hj]
  rw [used, hslots]
  exact Finset.card_erase_add_one (by simpa [Option.isSome_iff_ne_none] using h)

/-- The key in a slot. -/
def keyAt (T : Table κ ν n) (i : Fin n) : Finset κ := ((T.slot i).map Prod.fst).toFinset

theorem mem_keyAt : k ∈ T.keyAt i ↔ ∃ v, T.slot i = some (k, v) := by
  simp [keyAt, Prod.exists]

variable [DecidableEq κ]

/-- The slot of a key. -/
def find (T : Table κ ν n) (k : κ) : Option (Fin n) :=
  (List.finRange n).find? fun i => decide ((T.slot i).map Prod.fst = some k)

def lookup (T : Table κ ν n) (k : κ) : Option ν := (T.find k).bind fun i => (T.slot i).map Prod.snd

theorem find_eq_none : T.find k = none ↔ ∀ i v, T.slot i ≠ some (k, v) := by
  simp [find, List.find?_eq_none, Prod.exists]

theorem find_eq_some : T.find k = some i ↔ ∃ v, T.slot i = some (k, v) := by
  constructor
  · intro h
    have hkey := List.find?_some h
    simpa [Prod.exists] using hkey
  · rintro ⟨v, hv⟩
    cases hfind : T.find k with
    | none => exact absurd hv (find_eq_none.1 hfind i v)
    | some j =>
      have hkey := List.find?_some hfind
      obtain ⟨w, hw⟩ : ∃ w, T.slot j = some (k, w) := by simpa [Prod.exists] using hkey
      rw [T.distinct i j k v w hv hw]

theorem lookup_eq_some : T.lookup k = some v ↔ ∃ i, T.slot i = some (k, v) := by
  constructor
  · intro h
    obtain ⟨i, hi, hv⟩ := Option.bind_eq_some_iff.1 h
    obtain ⟨w, hw⟩ := find_eq_some.1 hi
    rw [hw] at hv
    obtain rfl : w = v := by simpa using hv
    exact ⟨i, hw⟩
  · rintro ⟨i, hi⟩
    rw [lookup, find_eq_some.2 ⟨v, hi⟩]
    simp [hi]

theorem lookup_eq_none : T.lookup k = none ↔ T.find k = none := by
  rw [Option.eq_none_iff_forall_ne_some, find_eq_none]
  simp only [ne_eq, lookup_eq_some, not_exists]
  exact forall_comm

theorem any_slot (i : Fin n) :
    (T.slot i).any (fun entry => decide (entry.1 = k)) = decide ((T.slot i).map Prod.fst = some k) := by
  cases T.slot i <;> simp

/-- Searching the entries for a key finds its value. -/
theorem find?_entries : (T.entries.find? fun entry => decide (entry.1 = k)).map Prod.snd = T.lookup k := by
  rw [entries, List.find?_filterMap, lookup, find]
  simp only [any_slot, Option.map_bind]
  rfl

theorem lookup_put (h : ∀ j w, T.slot j = some (k, w) → j = i)
    (hslot : T.slot i = none ∨ ∃ w, T.slot i = some (k, w)) :
    (T.put i k v h).lookup = Function.update T.lookup k (some v) := by
  funext k'
  refine Option.ext fun x => ?_
  rw [lookup_eq_some]
  by_cases hk : k' = k
  · subst hk
    rw [Function.update_self]
    constructor
    · rintro ⟨j, hj⟩
      by_cases hji : j = i
      · subst hji
        simpa using hj
      · rw [put_slot, Function.update_of_ne hji] at hj
        exact absurd (h j x hj) hji
    · intro hx
      exact ⟨i, by simpa using hx⟩
  · rw [Function.update_of_ne hk, lookup_eq_some]
    -- the slot that changes holds another key, before and after
    refine exists_congr fun j => ?_
    by_cases hji : j = i
    · subst hji
      rcases hslot with hfree | ⟨w, hw⟩
      · simp [hfree, Ne.symm hk]
      · simp [hw, Ne.symm hk]
    · rw [put_slot, Function.update_of_ne hji]

theorem lookup_remove (h : T.slot i = some (k, v)) : (T.remove i).lookup = Function.update T.lookup k none := by
  funext k'
  refine Option.ext fun x => ?_
  rw [lookup_eq_some]
  by_cases hk : k' = k
  · subst hk
    rw [Function.update_self]
    refine iff_of_false ?_ nofun
    rintro ⟨j, hj⟩
    by_cases hji : j = i
    · subst hji
      simp at hj
    · rw [remove_slot, Function.update_of_ne hji] at hj
      exact hji (T.distinct j i k' x v hj h)
  · rw [Function.update_of_ne hk, lookup_eq_some]
    refine exists_congr fun j => ?_
    by_cases hji : j = i
    · subst hji
      simp [h, Ne.symm hk]
    · rw [remove_slot, Function.update_of_ne hji]

/-! ## The map of a table -/

theorem card_keys : (Finset.univ.biUnion T.keyAt).card = T.used := by
  rw [Finset.card_biUnion, used, Finset.card_filter]
  · refine Finset.sum_congr rfl ?_
    intro i _
    cases hi : T.slot i <;> simp [keyAt, hi]
  · intro i _ j _ hij
    refine Finset.disjoint_left.2 ?_
    intro k hk hk'
    obtain ⟨v, hv⟩ := mem_keyAt.1 hk
    obtain ⟨w, hw⟩ := mem_keyAt.1 hk'
    exact hij (T.distinct i j k v w hv hw)

def toMap (T : Table κ ν n) : BoundedMap κ ν n where
  lookup := T.lookup
  keys := Finset.univ.biUnion T.keyAt
  mem_keys k := by
    rw [Finset.mem_biUnion]
    simp only [Finset.mem_univ, true_and, mem_keyAt, ne_eq, lookup_eq_none, find_eq_none]
    push Not
    rfl
  card_le := card_keys.trans_le used_le

theorem toMap_empty : (empty : Table κ ν n).toMap = BoundedMap.empty := by
  refine BoundedMap.ext_lookup fun k => ?_
  change (empty : Table κ ν n).lookup k = none
  rw [lookup_eq_none, find_eq_none]
  simp [empty]

theorem toMap_put (h : ∀ j w, T.slot j = some (k, w) → j = i)
    (hslot : T.slot i = none ∨ ∃ w, T.slot i = some (k, w))
    (hroom : T.toMap.lookup k ≠ none ∨ T.toMap.keys.card < n) :
    (T.put i k v h).toMap = T.toMap.insert k v hroom :=
  BoundedMap.ext_lookup fun k' => congrFun (lookup_put h hslot) k'

theorem toMap_remove (h : T.slot i = some (k, v)) : (T.remove i).toMap = T.toMap.erase k :=
  BoundedMap.ext_lookup fun k' => congrFun (lookup_remove h) k'

/-- No slot is free exactly when the map is full. -/
theorem toMap_full : T.free = none ↔ ¬T.toMap.keys.card < n := by
  have hcard : T.toMap.keys.card = T.used := card_keys
  rw [hcard, free_eq_none]

end Table

end Machine
