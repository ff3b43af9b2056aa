import Mathlib.Logic.Function.Basic

/-! Rebinding a NIC in dpdk-bind. The shell runs with `set -e`: the first
command that fails ends the script, and what was written before stays. -/
namespace DpdkPerf.DpdkBind

/-- A directory the script looks for under `/sys/bus/pci/drivers`. Words are
device addresses and driver names. -/
inductive Dir (Word : Type) where
  | driver (dri : Word)
  | driverDevice (dri pci : Word)
  deriving DecidableEq, Repr

inductive File (Word : Type) where
  /-- `/sys/bus/pci/devices/$pci/driver_override`. -/
  | driverOverride (pci : Word)
  /-- `/sys/bus/pci/drivers/%pci/new_id`, which names no device. -/
  | percentPciNewId
  deriving DecidableEq, Repr

structure Sysfs (Word : Type) where
  binding : Word → Option Word
  driverOverride : Word → Option Word
  dirs : Dir Word → Bool
  files : File Word → Bool

/-- The writes of `do_change_bind`, each made at most once in a call. -/
inductive Write where
  | unbind
  | driverOverride
  | bind
  deriving DecidableEq, Repr

/-- A script that may end early, with an exit status. -/
abbrev Script (Word : Type) (α : Type) := EStateM UInt8 (Sysfs Word) α

variable {Word : Type} [DecidableEq Word]

/-- `/sys/bus/pci/drivers/$old_dri/$pci`. Without an old driver the path has
an empty component, and is that of a driver. -/
def driverDevice (pci : Word) : Option Word → Dir Word
  | some oldDri => .driverDevice oldDri pci
  | none => .driver pci

/-- The kernel takes a device from a driver only if that driver has it. -/
def writeUnbind (fails : Write → Bool) (pci : Word) (oldDri : Option Word) : Script Word Unit := fun s =>
  match oldDri with
  | none => .error 1 s
  | some dri =>
      if fails .unbind ∨ s.binding pci ≠ some dri then .error 1 s
      else
        .ok () { s with
          binding := Function.update s.binding pci none
          dirs := Function.update s.dirs (.driverDevice dri pci) false }

def writeDriverOverride (fails : Write → Bool) (pci dri : Word) : Script Word Unit := fun s =>
  if fails .driverOverride then .error 1 s
  else .ok () { s with driverOverride := Function.update s.driverOverride pci (some dri) }

/-- The kernel gives a driver only a device that has none. -/
def writeBind (fails : Write → Bool) (pci dri : Word) : Script Word Unit := fun s =>
  if fails .bind ∨ s.binding pci ≠ none then .error 1 s
  else
    .ok () { s with
      binding := Function.update s.binding pci (some dri)
      dirs := Function.update s.dirs (.driverDevice dri pci) true }

/-- The `if` of `do_change_bind` between its unbind and its bind. -/
def allowDriver (fails : Write → Bool) (pci dri : Word) : Script Word Unit := do
  if (← get).files (.driverOverride pci) then writeDriverOverride fails pci dri
  else if (← get).files .percentPciNewId then throw 1

/-- The part of `do_change_bind` that follows the unbind. -/
def rebind (fails : Write → Bool) (pci dri : Word) : Script Word Unit := do
  allowDriver fails pci dri
  writeBind fails pci dri

/-- `old_dri` is empty for a device without a driver; the comparison is then
an error of `[`, which the `if` takes for false. -/
def doChangeBind (fails : Write → Bool) (pci dri : Word) (oldDri : Option Word) :
    Script Word Unit := do
  if oldDri = some dri then return
  if !(← get).dirs (driverDevice pci oldDri) || !(← get).dirs (.driver dri) then throw 2
  writeUnbind fails pci oldDri
  rebind fails pci dri

/-- The call ends with the device bound to its target, or fails with the
device bound as before. Other devices stay as they are in either case. -/
def Atomic (fails : Write → Bool) (s : Sysfs Word) (pci dri : Word) (oldDri : Option Word) : Prop :=
  match (doChangeBind fails pci dri oldDri).run s with
  | .ok _ s' => s'.binding pci = some dri ∧ ∀ other, other ≠ pci → s'.binding other = s.binding other
  | .error _ s' =>
      s'.binding pci = s.binding pci ∧ ∀ other, other ≠ pci → s'.binding other = s.binding other

/-- The call gets as far as taking the device from its driver. -/
structure Unbinds (fails : Write → Bool) (s : Sysfs Word) (pci dri : Word)
    (oldDri : Option Word) : Prop where
  other : oldDri ≠ some dri
  device : s.dirs (driverDevice pci oldDri) = true
  driver : s.dirs (.driver dri) = true
  written : fails .unbind = false
  bound : oldDri ≠ none ∧ s.binding pci = oldDri

/-- Nothing fails after that. -/
structure Rebinds (fails : Write → Bool) (s : Sysfs Word) (pci : Word) : Prop where
  override : s.files (.driverOverride pci) = true → fails .driverOverride = false
  supported : s.files (.driverOverride pci) = false → s.files .percentPciNewId = false
  written : fails .bind = false

variable {fails : Write → Bool} {s : Sysfs Word} {pci dri : Word} {oldDri : Option Word}

/-- The state once the device is taken from its driver. -/
def Sysfs.unbound (s : Sysfs Word) (pci dri : Word) : Sysfs Word :=
  { s with
    binding := Function.update s.binding pci none
    dirs := Function.update s.dirs (.driverDevice dri pci) false }

/-- A device that has the driver is left alone. -/
theorem doChangeBind_same (h : oldDri = some dri) :
    (doChangeBind fails pci dri oldDri).run s = .ok () s := by
  unfold doChangeBind
  rw [if_pos h]
  rfl

/-- Without the directories the script ends with status 2 and nothing done. -/
theorem doChangeBind_missing (hOther : oldDri ≠ some dri)
    (h : ¬ (s.dirs (driverDevice pci oldDri) = true ∧ s.dirs (.driver dri) = true)) :
    (doChangeBind fails pci dri oldDri).run s = .error 2 s := by
  have hTest : (!s.dirs (driverDevice pci oldDri) || !s.dirs (.driver dri)) = true := by
    rw [← Bool.not_and, Bool.not_eq_true', ← Bool.not_eq_true, Bool.and_eq_true]
    exact h
  unfold doChangeBind
  rw [if_neg hOther]
  simp only [EStateM.run_bind, EStateM.run_get, hTest, if_true]
  rfl

theorem doChangeBind_unbind (hOther : oldDri ≠ some dri)
    (h : s.dirs (driverDevice pci oldDri) = true ∧ s.dirs (.driver dri) = true) :
    (doChangeBind fails pci dri oldDri).run s =
      (do writeUnbind fails pci oldDri; rebind fails pci dri : Script Word Unit).run s := by
  have hTest : (!s.dirs (driverDevice pci oldDri) || !s.dirs (.driver dri)) = false := by
    rw [h.1, h.2]
    rfl
  unfold doChangeBind
  rw [if_neg hOther]
  simp only [EStateM.run_bind, EStateM.run_get, hTest]
  rfl

/-- Up to the unbind nothing is written: the call returns, fails, or goes on
with the device taken from the driver that had it. -/
theorem doChangeBind_cases (fails : Write → Bool) (s : Sysfs Word) (pci dri : Word)
    (oldDri : Option Word) :
    (oldDri = some dri ∧ (doChangeBind fails pci dri oldDri).run s = .ok () s) ∨
    (oldDri ≠ some dri ∧ ¬ Unbinds fails s pci dri oldDri ∧
      ∃ status, (doChangeBind fails pci dri oldDri).run s = .error status s) ∨
    (Unbinds fails s pci dri oldDri ∧ ∃ had, s.binding pci = some had ∧
      (doChangeBind fails pci dri oldDri).run s = (rebind fails pci dri).run (s.unbound pci had)) := by
  by_cases hOther : oldDri = some dri
  · exact Or.inl ⟨hOther, doChangeBind_same hOther⟩
  right
  by_cases hDirs : s.dirs (driverDevice pci oldDri) = true ∧ s.dirs (.driver dri) = true
  · rw [doChangeBind_unbind hOther hDirs, EStateM.run_bind]
    cases oldDri with
    | none => exact Or.inl ⟨hOther, fun h => h.bound.1 rfl, 1, rfl⟩
    | some had =>
        by_cases hFails : fails .unbind = true ∨ s.binding pci ≠ some had
        · refine Or.inl ⟨hOther, fun h => ?_, 1, ?_⟩
          · rcases hFails with hWrite | hBound
            · rw [h.written] at hWrite
              cases hWrite
            · exact hBound h.bound.2
          · have hUnbind : (writeUnbind fails pci (some had)).run s = .error 1 s := if_pos hFails
            rw [hUnbind]
        · have hUnbind : (writeUnbind fails pci (some had)).run s = .ok () (s.unbound pci had) :=
            if_neg hFails
          rw [not_or, Bool.not_eq_true, not_not] at hFails
          refine Or.inr ⟨⟨hOther, hDirs.1, hDirs.2, hFails.1, nofun, hFails.2⟩, had, hFails.2, ?_⟩
          rw [hUnbind]
  · refine Or.inl ⟨hOther, fun h => hDirs ⟨h.device, h.driver⟩, 2, ?_⟩
    exact doChangeBind_missing hOther hDirs

/-- The target is allowed to take the device, or the call fails. -/
def Allows (fails : Write → Bool) (s : Sysfs Word) (pci : Word) : Prop :=
  if s.files (.driverOverride pci) then fails .driverOverride = false
  else s.files .percentPciNewId = false

omit [DecidableEq Word] in
/-- A rebind comes through if both of its writes do. -/
theorem rebinds_iff : Rebinds fails s pci ↔ Allows fails s pci ∧ fails .bind = false := by
  unfold Allows
  by_cases hFile : s.files (.driverOverride pci) = true
  · rw [if_pos hFile]
    exact ⟨fun h => ⟨h.override hFile, h.written⟩,
      fun h => ⟨fun _ => h.1, fun hNone => absurd hFile (Bool.eq_false_iff.mp hNone), h.2⟩⟩
  · rw [if_neg hFile]
    exact ⟨fun h => ⟨h.supported (Bool.eq_false_iff.mpr hFile), h.written⟩,
      fun h => ⟨fun hSome => absurd hSome hFile, fun _ => h.1, h.2⟩⟩

/-- Allowing a driver binds nothing. -/
theorem allowDriver_cases (fails : Write → Bool) (s : Sysfs Word) (pci dri : Word) :
    (Allows fails s pci ∧ ∃ s', (allowDriver fails pci dri).run s = .ok () s' ∧
      s'.binding = s.binding) ∨
    (¬ Allows fails s pci ∧ (allowDriver fails pci dri).run s = .error 1 s) := by
  unfold Allows allowDriver
  simp only [EStateM.run_bind, EStateM.run_get]
  by_cases hFile : s.files (.driverOverride pci) = true
  · rw [if_pos hFile, if_pos hFile]
    by_cases hFails : fails .driverOverride = true
    · exact Or.inr ⟨fun h => absurd hFails (Bool.eq_false_iff.mp h), if_pos hFails⟩
    · exact Or.inl ⟨Bool.eq_false_iff.mpr hFails, _, if_neg hFails, rfl⟩
  · rw [if_neg hFile, if_neg hFile]
    by_cases hNewId : s.files .percentPciNewId = true
    · right
      refine ⟨fun h => absurd hNewId (Bool.eq_false_iff.mp h), ?_⟩
      simp only [EStateM.run_bind, EStateM.run_get, if_pos hNewId]
      rfl
    · left
      refine ⟨Bool.eq_false_iff.mpr hNewId, s, ?_, rfl⟩
      simp only [EStateM.run_bind, EStateM.run_get, if_neg hNewId]
      rfl

/-- A free device is bound, or the write fails and it is free still. -/
theorem writeBind_cases (fails : Write → Bool) (dri : Word) (hFree : s.binding pci = none) :
    (fails .bind = false ∧ ∃ s', (writeBind fails pci dri).run s = .ok () s' ∧
      s'.binding = Function.update s.binding pci (some dri)) ∨
    (fails .bind = true ∧ (writeBind fails pci dri).run s = .error 1 s) := by
  by_cases hFails : fails .bind = true
  · exact Or.inr ⟨hFails, if_pos (Or.inl hFails)⟩
  · refine Or.inl ⟨Bool.eq_false_iff.mpr hFails, _, if_neg ?_, rfl⟩
    rw [not_or, not_not]
    exact ⟨hFails, hFree⟩

/-- With the device free, the rest either binds it to the target or leaves it
free. -/
theorem rebind_cases (fails : Write → Bool) (dri : Word) (hFree : s.binding pci = none) :
    (Rebinds fails s pci ∧ ∃ s', (rebind fails pci dri).run s = .ok () s' ∧
      s'.binding = Function.update s.binding pci (some dri)) ∨
    (¬ Rebinds fails s pci ∧ ∃ s', (rebind fails pci dri).run s = .error 1 s' ∧
      s'.binding = s.binding) := by
  rw [rebinds_iff]
  unfold rebind
  simp only [EStateM.run_bind]
  rcases allowDriver_cases fails s pci dri with ⟨hAllows, s', hRun, hBinding⟩ | ⟨hNot, hRun⟩
  · simp only [hRun]
    rw [← hBinding] at hFree
    rcases writeBind_cases fails dri hFree with ⟨hWritten, t, hBind, hBound⟩ | ⟨hFails, hBind⟩
    · exact Or.inl ⟨⟨hAllows, hWritten⟩, t, hBind, hBound.trans (by rw [hBinding])⟩
    · refine Or.inr ⟨fun h => ?_, s', hBind, hBinding⟩
      rw [h.2] at hFails
      cases hFails
  · simp only [hRun]
    exact Or.inr ⟨fun h => hNot h.1, s, rfl, rfl⟩

/-- A call leaves every NIC bound as it should be exactly if it is not told a
wrong old driver that is the target already, and if nothing fails once the
device is taken from its driver. -/
theorem atomic_iff (fails : Write → Bool) (s : Sysfs Word) (pci dri : Word)
    (oldDri : Option Word) :
    Atomic fails s pci dri oldDri ↔
      (oldDri = some dri → s.binding pci = some dri) ∧
        (Unbinds fails s pci dri oldDri → Rebinds fails s pci) := by
  unfold Atomic
  rcases doChangeBind_cases fails s pci dri oldDri with
    ⟨hSame, hRun⟩ | ⟨hOther, hNot, status, hRun⟩ | ⟨hUnbinds, had, hHad, hRun⟩
  · rw [hRun]
    exact ⟨fun h => ⟨fun _ => h.1, fun hUnbinds => absurd hSame hUnbinds.other⟩,
      fun h => ⟨h.1 hSame, fun _ _ => rfl⟩⟩
  · rw [hRun]
    exact iff_of_true ⟨rfl, fun _ _ => rfl⟩
      ⟨fun hSame => absurd hSame hOther, fun h => absurd h hNot⟩
  · rw [hRun]
    have hFree : (s.unbound pci had).binding pci = none := Function.update_self ..
    have hOthers : ∀ other, other ≠ pci →
        (s.unbound pci had).binding other = s.binding other :=
      fun other hOther => Function.update_of_ne hOther ..
    rcases rebind_cases fails dri hFree with
      ⟨hRebinds, s', hRebind, hBinding⟩ | ⟨hNot, s', hRebind, hBinding⟩
    · rw [hRebind]
      refine iff_of_true ⟨?_, fun other hOther => ?_⟩
        ⟨fun hSame => absurd hSame hUnbinds.other, fun _ => ⟨hRebinds.1, hRebinds.2, hRebinds.3⟩⟩
      · rw [hBinding, Function.update_self]
      · rw [hBinding, Function.update_of_ne hOther, hOthers other hOther]
    · rw [hRebind]
      refine iff_of_false (fun h => ?_) fun h => hNot ?_
      · have hBound := h.1
        rw [hBinding, hFree, hHad] at hBound
        cases hBound
      · obtain ⟨hOverride, hSupported, hWritten⟩ := h.2 hUnbinds
        exact ⟨hOverride, hSupported, hWritten⟩

/-- The bind is refused once the device is taken from its driver. -/
theorem not_atomic :
    ¬ ∀ (fails : Write → Bool) (s : Sysfs String) (pci dri : String) (oldDri : Option String),
      Atomic fails s pci dri oldDri := by
  intro hAll
  have hBound := (hAll (fun write => write = .bind)
    { binding := fun _ => some "ixgbe"
      driverOverride := fun _ => none
      dirs := fun _ => true
      files := fun _ => true } "0000:01:00.0" "igb_uio" (some "ixgbe")).1
  exact absurd hBound (by decide)

end DpdkPerf.DpdkBind
