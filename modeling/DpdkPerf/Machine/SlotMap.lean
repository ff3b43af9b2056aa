import DpdkPerf.Machine.Run
import Mathlib.Data.Finset.Card
import Mathlib.Data.List.AList

/-! Slots handed out by an allocator, some of them filed under a key. A slot
is taken for good, or assigned to a key and given back when the key is
released. The allocator may recycle slots in any order; it only never hands
out one that is live. -/
namespace DpdkPerf

structure SlotMap (Key Slot : Type*) where
  live : Finset Slot
  index : AList fun _ : Key => Slot

namespace SlotMap

variable {Key Slot : Type*} [DecidableEq Key] [DecidableEq Slot]

inductive Op (Key Slot : Type*) where
  | take (slot : Slot)
  | assign (key : Key) (slot : Slot)
  | release (key : Key)
  | skip

/-- The last assignment to a key wins; the slot it was filed under before
stays live and is then under no key. Releasing an absent key does nothing. -/
def apply (s : SlotMap Key Slot) : Op Key Slot → SlotMap Key Slot
  | .take slot => { s with live := insert slot s.live }
  | .assign key slot => ⟨insert slot s.live, s.index.insert key slot⟩
  | .release key =>
      match s.index.lookup key with
      | none => s
      | some slot => ⟨s.live.erase slot, s.index.erase key⟩
  | .skip => s

def Fresh (s : SlotMap Key Slot) : Op Key Slot → Prop
  | .take slot | .assign _ slot => slot ∉ s.live
  | .release _ | .skip => True

def machine : Machine (SlotMap Key Slot) (Op Key Slot) Unit where
  enabled := Fresh
  next := apply
  output _ _ := ()

def empty : SlotMap Key Slot := ⟨∅, ∅⟩

/-- The slots taken for good by a list of operations, in order. -/
def taken : List (Op Key Slot) → List Slot :=
  List.filterMap fun
    | .take slot => some slot
    | _ => none

omit [DecidableEq Key] [DecidableEq Slot] in
@[simp] theorem taken_append (first second : List (Op Key Slot)) :
    taken (first ++ second) = taken first ++ taken second :=
  List.filterMap_append

/-- No key points at a slot that is not live, that another key points at, or
that was taken for good. -/
structure Sound (pinned : List Slot) (s : SlotMap Key Slot) : Prop where
  live_of_lookup : ∀ {key slot}, s.index.lookup key = some slot → slot ∈ s.live
  key_unique : ∀ {key key' slot}, s.index.lookup key = some slot →
    s.index.lookup key' = some slot → key = key'
  live_of_pinned : ∀ {slot}, slot ∈ pinned → slot ∈ s.live
  unmapped_of_pinned : ∀ {slot}, slot ∈ pinned → ∀ key, s.index.lookup key ≠ some slot

omit [DecidableEq Slot] in
theorem sound_empty : Sound [] (empty : SlotMap Key Slot) := by
  constructor <;> simp [empty]

variable {s : SlotMap Key Slot} {pinned : List Slot}

omit [DecidableEq Slot] in
theorem Sound.ne_of_fresh (h : Sound pinned s) {slot : Slot} (hFresh : slot ∉ s.live) {key : Key}
    {other : Slot} (hLookup : s.index.lookup key = some other) : other ≠ slot := by
  rintro rfl
  exact hFresh (h.live_of_lookup hLookup)

/-- Taking a fresh slot keeps the map sound. -/
theorem Sound.take (h : Sound pinned s) {slot : Slot} (hFresh : slot ∉ s.live) :
    Sound (pinned ++ [slot]) (s.apply (.take slot)) where
  live_of_lookup hLookup := Finset.mem_insert_of_mem (h.live_of_lookup hLookup)
  key_unique := h.key_unique
  live_of_pinned hMem := by
    rcases List.mem_append.mp hMem with hOld | hNew
    · exact Finset.mem_insert_of_mem (h.live_of_pinned hOld)
    · exact Finset.mem_insert.mpr (Or.inl (List.mem_singleton.mp hNew))
  unmapped_of_pinned hMem key hLookup := by
    rcases List.mem_append.mp hMem with hOld | hNew
    · exact h.unmapped_of_pinned hOld key hLookup
    · exact h.ne_of_fresh hFresh hLookup (List.mem_singleton.mp hNew)

/-- After an assignment a key points at the new slot or at what it did before.
-/
theorem lookup_assign {key key' : Key} {slot slot' : Slot}
    (hLookup : (s.apply (.assign key slot)).index.lookup key' = some slot') :
    (key' = key ∧ slot' = slot) ∨ (key' ≠ key ∧ s.index.lookup key' = some slot') := by
  by_cases hKey : key' = key
  · subst hKey
    simp only [apply, AList.lookup_insert, Option.some.injEq] at hLookup
    exact Or.inl ⟨rfl, hLookup.symm⟩
  · rw [apply, AList.lookup_insert_ne hKey] at hLookup
    exact Or.inr ⟨hKey, hLookup⟩

/-- Assigning a fresh slot keeps the map sound, even where the key had one. -/
theorem Sound.assign (h : Sound pinned s) {key : Key} {slot : Slot} (hFresh : slot ∉ s.live) :
    Sound pinned (s.apply (.assign key slot)) where
  live_of_lookup hLookup := by
    rcases lookup_assign hLookup with ⟨-, rfl⟩ | ⟨-, hOld⟩
    · exact Finset.mem_insert_self _ _
    · exact Finset.mem_insert_of_mem (h.live_of_lookup hOld)
  key_unique hFirst hSecond := by
    rcases lookup_assign hFirst with ⟨rfl, rfl⟩ | ⟨-, hOld⟩
    · rcases lookup_assign hSecond with ⟨rfl, -⟩ | ⟨-, hOld⟩
      · rfl
      · exact absurd rfl (h.ne_of_fresh hFresh hOld)
    · rcases lookup_assign hSecond with ⟨-, rfl⟩ | ⟨-, hOld'⟩
      · exact absurd rfl (h.ne_of_fresh hFresh hOld)
      · exact h.key_unique hOld hOld'
  live_of_pinned hMem := Finset.mem_insert_of_mem (h.live_of_pinned hMem)
  unmapped_of_pinned hMem key' hLookup := by
    rcases lookup_assign hLookup with ⟨-, rfl⟩ | ⟨-, hOld⟩
    · exact hFresh (h.live_of_pinned hMem)
    · exact h.unmapped_of_pinned hMem key' hOld

theorem apply_release {key : Key} {slot : Slot} (hLookup : s.index.lookup key = some slot) :
    s.apply (.release key) = ⟨s.live.erase slot, s.index.erase key⟩ := by
  simp [apply, hLookup]

theorem apply_release_none {key : Key} (hLookup : s.index.lookup key = none) :
    s.apply (.release key) = s := by
  simp [apply, hLookup]

omit [DecidableEq Slot] in
/-- What is found after an erase was there before, under another key. -/
theorem lookup_erase {key key' : Key} {slot : Slot}
    (hLookup : (s.index.erase key).lookup key' = some slot) :
    key' ≠ key ∧ s.index.lookup key' = some slot := by
  by_cases hKey : key' = key
  · subst hKey
    simp at hLookup
  · exact ⟨hKey, by rwa [AList.lookup_erase_ne hKey] at hLookup⟩

/-- A release keeps the map sound. -/
theorem Sound.release (h : Sound pinned s) (key : Key) :
    Sound pinned (s.apply (.release key)) := by
  cases hKey : s.index.lookup key with
  | none =>
      rw [apply_release_none hKey]
      exact h
  | some freed =>
      rw [apply_release hKey]
      refine ⟨fun hLookup => ?_, fun hFirst hSecond => ?_, fun hMem => ?_, fun hMem key' => ?_⟩
      · obtain ⟨hNe, hOld⟩ := lookup_erase hLookup
        refine Finset.mem_erase.mpr ⟨?_, h.live_of_lookup hOld⟩
        rintro rfl
        exact hNe (h.key_unique hOld hKey)
      · exact h.key_unique (lookup_erase hFirst).2 (lookup_erase hSecond).2
      · refine Finset.mem_erase.mpr ⟨?_, h.live_of_pinned hMem⟩
        rintro rfl
        exact h.unmapped_of_pinned hMem key hKey
      · intro hLookup
        exact h.unmapped_of_pinned hMem key' (lookup_erase hLookup).2

/-- What a key names after an operation. -/
theorem lookup_apply (s : SlotMap Key Slot) (op : Op Key Slot) (key : Key) :
    (s.apply op).index.lookup key =
      match op with
      | .assign key' slot => if key' = key then some slot else s.index.lookup key
      | .release key' => if key' = key then none else s.index.lookup key
      | _ => s.index.lookup key := by
  cases op with
  | take slot => rfl
  | assign key' slot =>
      by_cases hKey : key' = key
      · subst hKey
        simp [SlotMap.apply]
      · simp [SlotMap.apply, hKey, AList.lookup_insert_ne (Ne.symm hKey)]
  | release key' =>
      cases hLookup : s.index.lookup key' with
      | none =>
          rw [apply_release_none hLookup]
          by_cases hKey : key' = key
          · subst hKey
            simp [hLookup]
          · simp [hKey]
      | some slot =>
          rw [apply_release hLookup]
          by_cases hKey : key' = key
          · subst hKey
            simp
          · simp [hKey, AList.lookup_erase_ne (Ne.symm hKey)]
  | skip => rfl

/-- Each operation keeps the map sound, with `taken` recording the slots
that are never given back. -/
theorem Sound.apply {op : Op Key Slot} (h : Sound pinned s) (hFresh : s.Fresh op) :
    Sound (pinned ++ taken [op]) (s.apply op) := by
  cases op with
  | take slot => exact h.take hFresh
  | assign key slot => simpa [taken] using h.assign hFresh
  | release key => simpa [taken] using h.release key
  | skip => simpa [taken, SlotMap.apply] using h

/-- Every run of the allocator keeps the map sound. -/
theorem sound_run {ops : List (Op Key Slot)} (hAdmits : machine.Admits empty ops) :
    Sound (taken ops) (machine.run (empty : SlotMap Key Slot) ops) := by
  apply hAdmits.invariant_inputs fun past s => Sound (taken past) s
  · intro past s op hFresh h
    rw [taken_append]
    exact h.apply hFresh
  · exact sound_empty

/-- An assignment that takes no key over from another slot. -/
def NewKey (s : SlotMap Key Slot) : Op Key Slot → Prop
  | .assign key _ => s.index.lookup key = none
  | _ => True

/-- Every live slot is accounted for, by the slots taken or by a key. -/
def Balanced (pinned : List Slot) (s : SlotMap Key Slot) : Prop :=
  s.live.card = pinned.length + s.index.keys.length

/-- An operation that takes no key over leaves no live slot unaccounted for. -/
theorem Balanced.apply {op : Op Key Slot} (h : Balanced pinned s) (hSound : Sound pinned s)
    (hFresh : s.Fresh op) (hNew : s.NewKey op) :
    Balanced (pinned ++ taken [op]) (s.apply op) := by
  cases op with
  | take slot =>
      have hSlot : slot ∉ s.live := hFresh
      have hCard : s.live.card = pinned.length + s.index.keys.length := h
      simp only [Balanced, SlotMap.apply, Finset.card_insert_of_notMem hSlot, hCard,
        List.length_append, taken, List.filterMap_cons, List.filterMap_nil, List.length_singleton]
      omega
  | assign key slot =>
      have hSlot : slot ∉ s.live := hFresh
      have hKey : key ∉ s.index.keys := by
        rw [← AList.mem_keys]
        exact AList.lookup_eq_none.mp hNew
      have hCard : s.live.card = pinned.length + s.index.keys.length := h
      simp only [Balanced, SlotMap.apply, Finset.card_insert_of_notMem hSlot, hCard,
        AList.keys_insert, List.erase_of_not_mem hKey, List.length_cons, taken,
        List.filterMap_cons, List.filterMap_nil, List.append_nil]
      omega
  | release key =>
      cases hLookup : s.index.lookup key with
      | none => simpa [taken, apply_release_none hLookup] using h
      | some slot =>
          have hSlot : slot ∈ s.live := hSound.live_of_lookup hLookup
          have hKey : key ∈ s.index.keys := by
            rw [← AList.mem_keys, ← AList.lookup_isSome, hLookup]
            rfl
          have hPos : 0 < s.index.keys.length := List.length_pos_of_mem hKey
          rw [apply_release hLookup]
          have hCard : s.live.card = pinned.length + s.index.keys.length := h
          simp only [Balanced, Finset.card_erase_of_mem hSlot, AList.keys_erase,
            List.length_erase_of_mem hKey, hCard, taken, List.filterMap_cons, List.filterMap_nil,
            List.append_nil]
          omega
  | skip => simpa [taken, SlotMap.apply] using h

theorem balanced_run {ops : List (Op Key Slot)} (hAdmits : machine.Admits empty ops)
    (hNew : machine.Meets NewKey empty ops) :
    Balanced (taken ops) (machine.run (empty : SlotMap Key Slot) ops) := by
  have hRun := (hAdmits.and hNew).invariant_inputs
    fun past s => Sound (taken past) s ∧ Balanced (taken past) s
  refine (hRun ?_ ⟨sound_empty, ?_⟩).2
  · intro past s op hOp h
    rw [taken_append]
    exact ⟨h.1.apply hOp.1, h.2.apply h.1 hOp.1 hOp.2⟩
  · simp [Balanced, empty, taken]

end SlotMap
end DpdkPerf
