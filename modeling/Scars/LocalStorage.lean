import Mathlib.Logic.Function.Basic
import Scars.Foundation.Runs

/-! `LocalStorage`, the table of a thread or handler that is searched by type.
A value is put into the first unused entry and found in the first entry with its key, so two
entries with one key come apart from a map.
-/

namespace Scars

open Runs

/-- `LocalStorageEntry`. The value is a pointer, null if there is none. -/
structure LocalStorageEntry (κ ν : Type) where
  key : Option κ
  value : Option ν
  deriving DecidableEq, Repr

/-- `INITIAL_ENTRY`. -/
def LocalStorageEntry.initial {κ ν : Type} : LocalStorageEntry κ ν := ⟨none, none⟩

structure LocalStorage (κ ν : Type) where
  entries : List (LocalStorageEntry κ ν)
  deriving DecidableEq, Repr

inductive LocalStoragePanic where
  /-- The `unwrap` of the search for an unused entry. -/
  | noUnusedEntry
  /-- "Thread does not have local storage", or the same for an interrupt. -/
  | noLocalStorage
  deriving DecidableEq, Repr

namespace LocalStorage

variable {κ ν : Type} [DecidableEq κ]

/-- `LocalStorageArray::new` and `take`. -/
def new (size : Nat) : LocalStorage κ ν := ⟨List.replicate size .initial⟩

/-- The first entry with a key; `None` is the key of the unused ones. -/
def findEntry (key : Option κ) (storage : LocalStorage κ ν) : Option Nat :=
  storage.entries.findIdx? fun entry => entry.key == key

def removeEntry (key : κ) (storage : LocalStorage κ ν) : LocalStorage κ ν :=
  match storage.findEntry (some key) with
  | some index => ⟨storage.entries.set index ⟨none, none⟩⟩
  | none => storage

def putByTypeId (key : κ) (value : ν) (storage : LocalStorage κ ν)
    : Except LocalStoragePanic (LocalStorage κ ν) :=
  match storage.findEntry none with
  | some index => .ok ⟨storage.entries.set index ⟨some key, some value⟩⟩
  | none => .error .noUnusedEntry

/-- `raw_get`: the pointer of the entry that is found, which is read through. -/
def rawGet (key : κ) (storage : LocalStorage κ ν) : Option (Option ν) :=
  (storage.findEntry (some key)).bind fun index =>
    storage.entries[index]?.map LocalStorageEntry.value

-- the public functions find the storage of the current execution context

def get (key : κ) (current : Option (LocalStorage κ ν)) : Option (Option ν) :=
  current.bind (rawGet key)

/-- `put`, with the pointer that its cell gave out. -/
def put (key : κ) (value : ν) (current : Option (LocalStorage κ ν))
    : Except LocalStoragePanic (Option (LocalStorage κ ν)) :=
  match current with
  | some storage => (storage.putByTypeId key value).map some
  | none => .error .noLocalStorage

def remove (key : κ) (current : Option (LocalStorage κ ν)) : Option (LocalStorage κ ν) :=
  current.map (removeEntry key)

/-- The calls of one context. -/
inductive Op (κ ν : Type) where
  | put (key : κ) (value : ν)
  | get (key : κ)
  | remove (key : κ)
  deriving DecidableEq, Repr

def step (current : Option (LocalStorage κ ν))
    : Op κ ν → Except LocalStoragePanic (Option (LocalStorage κ ν))
  | .put key value => put key value current
  | .get _ => .ok current
  | .remove key => .ok (remove key current)

/-- The values that were put last and not removed since. -/
def record (map : κ → Option ν) : Op κ ν → κ → Option ν
  | .put key value => Function.update map key (some value)
  | .get _ => map
  | .remove key => Function.update map key none

/-- `get` finds the values of the map, and reads through no null pointer. -/
def Shows (current : Option (LocalStorage κ ν)) (map : κ → Option ν) : Prop :=
  ∀ key, get key current = (map key).map some

/-- The storage is the map before and after every call. -/
def IsMap (current : Option (LocalStorage κ ν)) (map : κ → Option ν) : List (Op κ ν) → Prop
  | [] => Shows current map
  | op :: later =>
      Shows current map ∧ ∀ next, step current op = .ok next → IsMap next (record map op) later

/-- Whether the call finds at most one entry for its type, or puts its value in front of the
other ones.
-/
def keepsMap [DecidableEq ν] (current : Option (LocalStorage κ ν)) : Op κ ν → Bool
  | .put key value =>
      current.all fun storage =>
        (storage.findEntry (some key)).all fun shown =>
          (storage.findEntry none).all fun unused =>
            decide (unused < shown) || decide (storage.rawGet key = some (some value))
  | .get _ => true
  | .remove key =>
      current.all fun storage =>
        decide (storage.entries.countP (fun entry => entry.key == some key) ≤ 1)

variable {entries : List (LocalStorageEntry κ ν)} {entry : LocalStorageEntry κ ν} {key other : κ}
  {index : Nat} {storage : LocalStorage κ ν}

/-- `raw_get` reads the first entry with the key, by induction on the entries. -/
theorem rawGet_eq_find? (entries : List (LocalStorageEntry κ ν)) (key : κ)
    : rawGet key ⟨entries⟩
      = (entries.find? fun entry => entry.key == some key).map LocalStorageEntry.value := by
  induction entries with
  | nil => rfl
  | cons entry rest ih =>
      simp only [rawGet, findEntry] at ih ⊢
      by_cases found : entry.key == some key
      case pos => simp [List.findIdx?_cons, found]
      case neg =>
          simpa [List.findIdx?_cons, found, Option.bind_map, Function.comp_def] using ih

theorem rawGet_set_other {old : Option κ}
    (found : entries.findIdx? (fun entry => entry.key == old) = some index)
    (notOld : old ≠ some other) (notNew : entry.key ≠ some other)
    : rawGet other ⟨entries.set index entry⟩ = rawGet other ⟨entries⟩ := by
  rw [rawGet_eq_find?, rawGet_eq_find?]
  induction entries generalizing index with
  | nil => cases found
  | cons first rest ih =>
      rw [List.findIdx?_cons] at found
      split at found
      next here =>
        cases found
        have hne : first.key ≠ some other := by
          rw [eq_of_beq here]
          exact notOld
        simp [notNew, hne]
      next =>
        obtain ⟨later, there, rfl⟩ := Option.map_eq_some_iff.mp found
        simp only [List.set_cons_succ, List.find?_cons]
        split
        · rfl
        · exact ih there

/-- A new entry in the place of an unused one is found unless there is one before it. -/
theorem rawGet_set_self (unused : entries.findIdx? (fun entry => entry.key == none) = some index)
    (new : entry.key = some key)
    : rawGet key ⟨entries.set index entry⟩
      = if (entries.findIdx? fun entry => entry.key == some key).all (index < ·) then
          some entry.value
        else
          rawGet key ⟨entries⟩ := by
  rw [rawGet_eq_find?, rawGet_eq_find?]
  induction entries generalizing index with
  | nil => cases unused
  | cons first rest ih =>
      rw [List.findIdx?_cons] at unused
      split at unused
      next here =>
        cases unused
        have empty : first.key = none := eq_of_beq here
        cases shown : rest.findIdx? fun entry => entry.key == some key with
        | none => simp [List.findIdx?_cons, new, empty, shown]
        | some index => simp [List.findIdx?_cons, new, empty, shown]
      next =>
        obtain ⟨later, there, rfl⟩ := Option.map_eq_some_iff.mp unused
        simp only [List.set_cons_succ, List.find?_cons, List.findIdx?_cons]
        by_cases isFirst : first.key = some key
        case pos => simp [isFirst]
        case neg =>
            have absent : (first.key == some key) = false := beq_eq_false_iff_ne.mpr isFirst
            simp only [absent, ih there, Bool.false_eq_true, if_false]
            cases rest.findIdx? fun entry => entry.key == some key with
            | none => simp
            | some index => simp

theorem rawGet_removed (found : entries.findIdx? (fun entry => entry.key == some key) = some index)
    : rawGet key ⟨entries.set index ⟨none, none⟩⟩ = none
      ↔ entries.countP (fun entry => entry.key == some key) ≤ 1 := by
  rw [rawGet_eq_find?]
  induction entries generalizing index with
  | nil => cases found
  | cons first rest ih =>
      rw [List.findIdx?_cons] at found
      split at found
      next here =>
        cases found
        simp [here]
      next absent =>
        obtain ⟨later, there, rfl⟩ := Option.map_eq_some_iff.mp found
        simpa [List.countP_cons, absent] using ih there

variable {current next : Option (LocalStorage κ ν)} {map : κ → Option ν} {op : Op κ ν} {value : ν}

theorem put_ok (hs : put key value current = .ok next)
    : ∃ storage index,
        current = some storage
        ∧ storage.findEntry none = some index
        ∧ next = some ⟨storage.entries.set index ⟨some key, some value⟩⟩ := by
  cases current with
  | none => cases hs
  | some storage =>
      obtain ⟨after, stored, rfl⟩ := map_ok.mp hs
      unfold putByTypeId at stored
      split at stored
      next index found =>
        cases stored
        exact ⟨storage, index, rfl, found, rfl⟩
      · cases stored

theorem IsMap.shows {ops : List (Op κ ν)} (isMap : IsMap current map ops) : Shows current map := by
  cases ops with
  | nil => exact isMap
  | cons op later => exact isMap.1

variable [DecidableEq ν]

/-- A value is found after its `put` if it stands in front, or is the one that does. -/
theorem shows_put (shows : Shows current map) (hs : put key value current = .ok next)
    : Shows next (record map (.put key value)) ↔ keepsMap current (.put key value) = true := by
  obtain ⟨storage, index, rfl, unused, rfl⟩ := put_ok hs
  have own : rawGet key ⟨storage.entries.set index ⟨some key, some value⟩⟩ = some (some value)
      ↔ keepsMap (some storage) (.put key value) = true := by
    rw [rawGet_set_self unused rfl, ← findEntry]
    cases shown : storage.findEntry (some key) with
    | none => simp [keepsMap, shown]
    | some first =>
        by_cases before : index < first
        case pos => simp [keepsMap, shown, unused, before]
        case neg => simp [keepsMap, shown, unused, before]
  rw [← own]
  constructor
  · intro after
    exact (after key).trans (by simp [record])
  · intro found other
    by_cases he : other = key
    case pos =>
        subst he
        exact found.trans (by simp [record])
    case neg =>
        have kept : rawGet other ⟨storage.entries.set index ⟨some key, some value⟩⟩
            = rawGet other storage :=
          rawGet_set_other unused nofun (fun equal => he (Option.some.inj equal).symm)
        exact kept.trans ((shows other).trans (by simp [record, he]))

/-- Nothing is found after a `remove` if there was one entry at most. -/
theorem shows_remove (shows : Shows current map)
    : Shows (remove key current) (record map (.remove key : Op κ ν))
      ↔ keepsMap current (.remove key : Op κ ν) = true := by
  -- the other types show what they did
  have others (left : get key (remove key current) = none)
      (kept : ∀ other, other ≠ key → get other (remove key current) = get other current)
      : Shows (remove key current) (record map (.remove key : Op κ ν)) := by
    intro other
    by_cases he : other = key
    case pos =>
        subst he
        exact left.trans (by simp [record])
    case neg => exact (kept other he).trans ((shows other).trans (by simp [record, he]))
  cases current with
  | none => exact iff_of_true (others rfl fun _ _ => rfl) rfl
  | some storage =>
      cases found : storage.findEntry (some key) with
      | none =>
          have he : remove key (some storage) = some storage := by
            simp [LocalStorage.remove, removeEntry, found]
          have absent : ∀ entry ∈ storage.entries, ¬ (entry.key == some key) = true := by
            simpa [findEntry] using found
          refine iff_of_true (others ?_ fun other _ => by rw [he]) ?_
          · rw [he]
            simp [get, rawGet, found]
          · simp [keepsMap, List.countP_eq_zero.mpr absent]
      | some index =>
          have after : remove key (some storage)
              = some ⟨storage.entries.set index ⟨none, none⟩⟩ := by
            simp [LocalStorage.remove, removeEntry, found]
          have once : get key (remove key (some storage)) = none
              ↔ keepsMap (some storage) (.remove key : Op κ ν) = true := by
            rw [after]
            exact (rawGet_removed found).trans (by simp [keepsMap])
          rw [← once]
          constructor
          · intro shown
            exact (shown key).trans (by simp [record])
          · intro left
            refine others left fun other hne => ?_
            rw [after]
            exact rawGet_set_other found (fun equal => hne (Option.some.inj equal).symm) nofun

theorem shows_step (shows : Shows current map) (hs : step current op = .ok next)
    : Shows next (record map op) ↔ keepsMap current op = true := by
  cases op with
  | put key value => exact shows_put shows hs
  | get key =>
      cases hs
      exact iff_of_true shows rfl
  | remove key =>
      cases hs
      exact shows_remove shows

/-- For every size of the table and all calls that find an unused entry for each `put`: the
storage is the map of the values put last and not removed since exactly if every `put` for a type
with an entry goes in front of it or repeats its value, and every `remove` finds at most one
entry. Witness: by induction, since the first call that does not shows another result.
-/
theorem localStorage_is_map_iff (size : Nat) (ops : List (Op κ ν))
    (ran : ∃ final, run step (some (new size)) ops = .ok final)
    : IsMap (some (new size)) (fun _ => none) ops
      ↔ Along step (fun current op => keepsMap current op = true) (some (new size)) ops := by
  have empty : Shows (some (new size : LocalStorage κ ν)) (fun _ => none) := by
    intro key
    simp [get, rawGet, findEntry, new, LocalStorageEntry.initial]
  obtain ⟨final, ran⟩ := ran
  revert ran
  generalize (some (new size) : Option (LocalStorage κ ν)) = current at empty
  generalize (fun _ => none : κ → Option ν) = map at empty
  intro ran
  induction ops generalizing current map with
  | nil => exact iff_of_true empty trivial
  | cons op later ih =>
      obtain ⟨next, hs, rest⟩ := bind_ok.mp ran
      constructor
      · rintro ⟨-, after⟩
        have isMap := after next hs
        have shows := isMap.shows
        exact .cons ((shows_step empty hs).mp shows) hs ((ih next _ shows rest).mp isMap)
      · rintro ⟨keeps, after⟩
        refine ⟨empty, fun other he => ?_⟩
        obtain rfl : next = other := Except.ok.inj (hs.symm.trans he)
        have shows := (shows_step empty hs).mpr keeps
        exact (ih next _ shows rest).mpr (after next hs)

/-- Two types are put, and the first one again after it was removed. -/
theorem localStorage_is_map_reput
    : IsMap (some (new 2)) (fun _ => none)
        [.put 0 10, .put 1 20, .remove 0, .put 0 30, .get 0, .remove 1] :=
  (localStorage_is_map_iff 2 _ ⟨_, rfl⟩).mpr
    (.cons rfl rfl (.cons rfl rfl (.cons rfl rfl (.cons rfl rfl (.cons rfl rfl
      (.cons rfl rfl trivial))))))

/-- A second value for a type is not found behind the first one, and the first one is found again
after the second one was put in front of it and the type was removed.
-/
theorem localStorage_shows_older
    : (let ops : List (Op Nat Nat) := [.put 0 10, .put 0 20]
      (run step (some (new 2)) ops).map (get 0) = .ok (some (some 10))
      ∧ ¬ IsMap (some (new 2)) (fun _ => none) ops)
      ∧ (let ops : List (Op Nat Nat) := [.put 1 5, .put 0 10, .remove 1, .put 0 20, .remove 0]
        (run step (some (new 2)) ops).map (get 0) = .ok (some (some 10))
        ∧ ¬ IsMap (some (new 2)) (fun _ => none) ops) := by
  refine ⟨⟨rfl, fun isMap => ?_⟩, rfl, fun isMap => ?_⟩
  · have shown := (isMap.2 _ rfl).2 _ rfl 0
    cases shown
  · have shown := ((((isMap.2 _ rfl).2 _ rfl).2 _ rfl).2 _ rfl).2 _ rfl 0
    cases shown

end LocalStorage

end Scars
