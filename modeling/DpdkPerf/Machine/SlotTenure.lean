import DpdkPerf.Machine.SlotMap

/-! How long a slot stays with the operation that took it. A slot taken for
good stays; one assigned to a key stays until that key is released, unless the
key has been assigned to another slot before. -/
namespace DpdkPerf.SlotMap

variable {Key Slot : Type*} [DecidableEq Key] [DecidableEq Slot]

/-- The slot an operation takes. -/
def Op.slot : Op Key Slot → Option Slot
  | .take slot | .assign _ slot => some slot
  | .release _ | .skip => none

/-- The key is released before it is assigned again. -/
def Released (key : Key) : List (Op Key Slot) → Prop
  | [] => False
  | .release key' :: rest => key' = key ∨ Released key rest
  | .assign key' _ :: rest => key' ≠ key ∧ Released key rest
  | .take _ :: rest | .skip :: rest => Released key rest

/-- Later operations give back the slot that this one took. -/
def Op.GivenBack : Op Key Slot → List (Op Key Slot) → Prop
  | .assign key _, after => Released key after
  | _, _ => False

/-- The slot is live after the operations and none of them took it. -/
def Holds (slot : Slot) (s : SlotMap Key Slot) (after : List (Op Key Slot)) : Prop :=
  slot ∈ (machine.run s after).live ∧ ∀ later ∈ after, later.slot ≠ some slot

variable {s : SlotMap Key Slot} {slot : Slot} {after : List (Op Key Slot)}

omit [DecidableEq Key] [DecidableEq Slot] in
/-- What has been released stays released. -/
theorem Released.append {key : Key} {ops : List (Op Key Slot)} (h : Released key ops)
    (rest : List (Op Key Slot)) : Released key (ops ++ rest) := by
  induction ops with
  | nil => exact h.elim
  | cons op ops ih =>
      cases op with
      | take slot => exact ih h
      | assign key' slot => exact ⟨h.1, ih h.2⟩
      | release key' => exact h.imp_right ih
      | skip => exact ih h

omit [DecidableEq Key] [DecidableEq Slot] in
/-- What has been given back stays given back. -/
theorem Op.GivenBack.append {op : Op Key Slot} (h : op.GivenBack after)
    (rest : List (Op Key Slot)) : op.GivenBack (after ++ rest) := by
  cases op with
  | assign key slot => exact Released.append h rest
  | _ => exact h.elim

/-- A release frees what its key names, and nothing else frees a slot. -/
theorem mem_live_apply (s : SlotMap Key Slot) (op : Op Key Slot) (slot : Slot) :
    slot ∈ (s.apply op).live ↔
      op.slot = some slot ∨
        slot ∈ s.live ∧ ∀ key, op = .release key → s.index.lookup key ≠ some slot := by
  cases op with
  | take taken => simp [apply, Op.slot, eq_comm]
  | assign key taken => simp [apply, Op.slot, eq_comm]
  | release key =>
      cases hLookup : s.index.lookup key with
      | none => simp [apply_release_none hLookup, Op.slot, hLookup]
      | some freed =>
          simp [apply_release hLookup, Op.slot, hLookup, and_comm, eq_comm]
  | skip => simp [apply, Op.slot]

@[simp] theorem holds_nil : Holds slot s [] ↔ slot ∈ s.live := by
  simp [Holds]

@[simp] theorem holds_cons (op : Op Key Slot) :
    Holds slot s (op :: after) ↔ op.slot ≠ some slot ∧ Holds slot (s.apply op) after := by
  unfold Holds
  rw [List.forall_mem_cons, Machine.run_cons]
  exact and_left_comm

/-- A slot that is not live is not live later without being taken. -/
theorem not_holds_of_not_live (hFree : slot ∉ s.live) : ¬ Holds slot s after := by
  induction after generalizing s with
  | nil => simpa using hFree
  | cons op rest ih =>
      rw [holds_cons]
      rintro ⟨hOther, hHolds⟩
      refine ih (fun hLive => ?_) hHolds
      rcases (mem_live_apply s op slot).mp hLive with hTaken | ⟨hOld, -⟩
      · exact hOther hTaken
      · exact hFree hOld

omit [DecidableEq Key] [DecidableEq Slot] in
/-- A live slot is not given away. -/
theorem Fresh.slot_ne {op : Op Key Slot} (h : s.Fresh op) (hLive : slot ∈ s.live) :
    op.slot ≠ some slot := by
  intro hTaken
  cases op with
  | take taken =>
      obtain rfl : taken = slot := Option.some.inj hTaken
      exact h hLive
  | assign key taken =>
      obtain rfl : taken = slot := Option.some.inj hTaken
      exact h hLive
  | release key => cases hTaken
  | skip => cases hTaken

/-- A live slot that no key names is never given back. -/
theorem holds_of_unmapped (hAdmits : machine.Admits s after) (hLive : slot ∈ s.live)
    (hUnmapped : ∀ key, s.index.lookup key ≠ some slot) : Holds slot s after := by
  induction after generalizing s with
  | nil => exact holds_nil.mpr hLive
  | cons op rest ih =>
      obtain ⟨hFresh, hRest⟩ := (Machine.admits_cons ..).mp hAdmits
      have hOther : op.slot ≠ some slot := Fresh.slot_ne hFresh hLive
      refine (holds_cons op).mpr ⟨hOther, ih hRest ?_ fun key => ?_⟩
      · exact (mem_live_apply s op slot).mpr (Or.inr ⟨hLive, fun key _ => hUnmapped key⟩)
      · show (s.apply op).index.lookup key ≠ some slot
        rw [lookup_apply]
        cases op with
        | take taken => exact hUnmapped key
        | assign key' taken =>
            dsimp only
            split_ifs
            · exact hOther
            · exact hUnmapped key
        | release key' =>
            dsimp only
            split_ifs
            · simp
            · exact hUnmapped key
        | skip => exact hUnmapped key

/-- A slot under a key is kept exactly until the key is released, or for good
if the key is assigned anew first. -/
theorem holds_iff_not_released {pinned : List Slot} {key : Key} (hSound : Sound pinned s)
    (hAdmits : machine.Admits s after) (hLookup : s.index.lookup key = some slot) :
    Holds slot s after ↔ ¬ Released key after := by
  induction after generalizing s pinned with
  | nil =>
      rw [holds_nil]
      exact ⟨fun _ => id, fun _ => hSound.live_of_lookup hLookup⟩
  | cons op rest ih =>
      obtain ⟨hFresh, hRest⟩ := (Machine.admits_cons ..).mp hAdmits
      have hNext : Sound (pinned ++ taken [op]) (s.apply op) := hSound.apply hFresh
      have hLive : slot ∈ s.live := hSound.live_of_lookup hLookup
      have hOther : op.slot ≠ some slot := Fresh.slot_ne hFresh hLive
      have hName := lookup_apply s op key
      rw [holds_cons, and_iff_right hOther]
      cases op with
      | take taken => exact ih hNext hRest (hName.trans hLookup)
      | skip => exact ih hNext hRest (hName.trans hLookup)
      | release key' =>
          by_cases hKey : key' = key
          · subst hKey
            have hFree : slot ∉ (s.apply (.release key')).live := by
              rw [mem_live_apply]
              rintro (hTaken | ⟨-, hKept⟩)
              · exact hOther hTaken
              · exact hKept key' rfl hLookup
            exact ⟨fun hHolds => absurd hHolds (not_holds_of_not_live hFree),
              fun hNot => absurd (Or.inl rfl) hNot⟩
          · dsimp only at hName
            rw [if_neg hKey, hLookup] at hName
            rw [ih hNext hRest hName]
            exact not_congr ⟨Or.inr, fun h => h.resolve_left hKey⟩
      | assign key' taken =>
          by_cases hKey : key' = key
          · -- the key now names another slot, and this one has no key left
            subst hKey
            have hUnmapped : ∀ key, (s.apply (.assign key' taken)).index.lookup key ≠ some slot := by
              intro key hKeyed
              rcases lookup_assign hKeyed with ⟨-, rfl⟩ | ⟨hNe, hOld⟩
              · exact hOther rfl
              · exact hNe (hSound.key_unique hOld hLookup)
            exact ⟨fun _ hReleased => hReleased.1 rfl, fun _ =>
              holds_of_unmapped hRest (Finset.mem_insert_of_mem hLive) hUnmapped⟩
          · dsimp only at hName
            rw [if_neg hKey, hLookup] at hName
            rw [ih hNext hRest hName]
            exact not_congr ⟨fun h => ⟨hKey, h⟩, fun h => h.2⟩

/-- A slot stays with the operation that took it exactly while no later one
gives it back. -/
theorem holds_iff_not_givenBack {pinned : List Slot} {op : Op Key Slot} (hSound : Sound pinned s)
    (hFresh : s.Fresh op) (hSlot : op.slot = some slot)
    (hAdmits : machine.Admits (s.apply op) after) :
    Holds slot (s.apply op) after ↔ ¬ op.GivenBack after := by
  have hLive : slot ∈ (s.apply op).live := (mem_live_apply s op slot).mpr (Or.inl hSlot)
  have hNext : Sound (pinned ++ taken [op]) (s.apply op) := hSound.apply hFresh
  cases op with
  | take taken =>
      obtain rfl : taken = slot := Option.some.inj hSlot
      refine iff_of_true (holds_of_unmapped hAdmits hLive fun key hLookup => ?_) id
      exact hFresh (hSound.live_of_lookup hLookup)
  | assign key taken =>
      obtain rfl : taken = slot := Option.some.inj hSlot
      have hLookup : (s.apply (.assign key taken)).index.lookup key = some taken :=
        AList.lookup_insert _
      exact holds_iff_not_released hNext hAdmits hLookup
  | release key => cases hSlot
  | skip => cases hSlot

end DpdkPerf.SlotMap
