import DpdkPerf.VppTest.TimingWheel
import Mathlib.Data.List.FinRange
import Mathlib.Tactic.Linarith

/-! What the checks of a round of the timing wheel test are worth. In a run that
passes them the wheel has handed out what was due in every round, and a wheel
that does so is not blamed. That an event is handed out twice, or again later,
no check finds by itself. -/
namespace DpdkPerf.VppTest

variable {n : Nat} {o : WheelOptions} {zvec : Int → Nat} {s : WheelRun n} {r : Round n}

/-- An event is due once the clock has come to its bin. -/
def WheelRun.Due (o : WheelOptions) (s : WheelRun n) (r : Round n) (time : Nat) : Prop :=
  o.bin time ≤ o.bin (s.test.cpuTime o r)

/-- Of the events in the wheel, it answers with those that are due, and it tells
the time of the next one. -/
def WheelRun.Answers (o : WheelOptions) (s : WheelRun n) (r : Round n) : Prop :=
  s.wheel.Timely (s.Due o r) maxTime r.expired r.minNextTime.toNat

/-- An event that is handed out is at most one bin old, and not early. -/
def WheelRun.InBin (o : WheelOptions) (s : WheelRun n) (r : Round n) : Prop :=
  ∀ j ∈ r.expired, s.test.events j ≤ s.test.cpuTime o r ∧
    s.test.cpuTime o r ≤ s.test.events j + 2 ^ o.log2ClocksPerBin

/-- The bitmap and the times tell what is in the wheel. -/
structure WheelRun.Tracks (o : WheelOptions) (s : WheelRun n) : Prop where
  wheel_eq : ∀ i, s.wheel i = if i ∈ s.test.expiredBitmap then none else some (s.test.events i)
  expired : ∀ i ∈ s.test.expiredBitmap, o.bin (s.test.events i) ≤ o.bin s.now
  events_lt : ∀ i, s.test.events i < 2 ^ 64

theorem WheelOptions.bin_le (o : WheelOptions) {a b : Nat} (h : a ≤ b) : o.bin a ≤ o.bin b := by
  rw [bin, bin, Nat.shiftRight_eq_div_pow, Nat.shiftRight_eq_div_pow]
  exact Nat.div_le_div_right h

theorem WheelOptions.lt_of_bin_lt (o : WheelOptions) {a b : Nat} (h : o.bin a < o.bin b) :
    a < b := by
  by_contra hNot
  exact absurd (o.bin_le (not_lt.mp hNot)) (not_le.mpr h)

/-- The clock is a word. -/
theorem cpuTime_lt (t : TestTimingWheel n) (r : Round n) : t.cpuTime o r < 2 ^ 64 := by
  rw [TestTimingWheel.cpuTime]
  split
  · exact Nat.mod_lt _ (by decide)
  · exact r.clock.toNat_lt

theorem setEvent_lt (nIter : Nat) (currentTimeIndex : UInt64) (draw : Draw) :
    setEvent o nIter currentTimeIndex draw < 2 ^ 64 :=
  Nat.mod_lt _ (by decide)

/-- An event of the bin of the clock, or of an earlier one. -/
theorem dtCpu_iff (t : TestTimingWheel n) (r : Round n) {j : Fin n} (hTime : t.events j < 2 ^ 64)
    (hDue : o.bin (t.events j) ≤ o.bin (t.cpuTime o r)) :
    (0 ≤ t.dtCpu o r j ∧ t.dtCpu o r j ≤ 1 <<< o.log2ClocksPerBin) ↔
      t.events j ≤ t.cpuTime o r ∧ t.cpuTime o r ≤ t.events j + 2 ^ o.log2ClocksPerBin := by
  have hClock := cpuTime_lt (o := o) t r
  rw [TestTimingWheel.dtCpu]
  generalize t.cpuTime o r = now at *
  generalize t.events j = time at *
  have hWidth : 2 ^ o.log2ClocksPerBin < 2 ^ 31 := Nat.pow_lt_pow_right (by decide) o.log2_lt
  have hSame : time < now + 2 ^ o.log2ClocksPerBin := by
    rw [WheelOptions.bin, WheelOptions.bin, Nat.shiftRight_eq_div_pow,
      Nat.shiftRight_eq_div_pow] at hDue
    have hPos : 0 < 2 ^ o.log2ClocksPerBin := Nat.two_pow_pos _
    have hNow := Nat.div_mul_le_self now (2 ^ o.log2ClocksPerBin)
    have hNext := Nat.lt_div_mul_add (a := time) hPos
    have hMul := Nat.mul_le_mul_right (2 ^ o.log2ClocksPerBin) hDue
    omega
  rw [Nat.one_shiftLeft]
  generalize 2 ^ o.log2ClocksPerBin = width at *
  rw [Int.bmod_def]
  split <;> omega

theorem firstFailed_eq_none {t : TestTimingWheel n} :
    t.firstFailed o r = none ↔ ∀ c ∈ r.checks o, t.CheckHolds o r c := by
  simp [TestTimingWheel.firstFailed, List.find?_eq_none]

theorem silent_iff_meets (s : WheelRun n) (rounds : List (Round n)) :
    (∀ verdict ∈ (testTimingWheelMain o zvec).trace s rounds, verdict = none) ↔
      (testTimingWheelMain o zvec).Meets (fun s r => s.test.firstFailed o r = none) s rounds :=
  List.forall_mem_map

section Next

variable (hSilent : s.test.firstFailed o r = none)

include hSilent in
/-- The round goes through all of its loop. -/
theorem next_silent :
    (testTimingWheelMain o zvec).next s r =
      ⟨s.test.next o zvec r,
        if s.test.iter < s.test.nIterAfter r then
          (s.wheel.remove r.expired).renew r.expired (s.test.renewed o r)
        else s.wheel.remove r.expired,
        s.test.cpuTime o r, false⟩ :=
  if_pos hSilent

include hSilent in
/-- Before the last iterations what has expired is put in again. -/
theorem next_again (hAgain : s.test.iter < s.test.nIterAfter r) :
    (testTimingWheelMain o zvec).next s r =
      ⟨s.test.next o zvec r, (s.wheel.remove r.expired).renew r.expired (s.test.renewed o r),
        s.test.cpuTime o r, false⟩ := by
  rw [next_silent hSilent, if_pos hAgain]

include hSilent in
theorem next_last (hLast : ¬ s.test.iter < s.test.nIterAfter r) :
    (testTimingWheelMain o zvec).next s r =
      ⟨s.test.next o zvec r, s.wheel.remove r.expired, s.test.cpuTime o r, false⟩ := by
  rw [next_silent hSilent, if_neg hLast]

theorem next_failed (hFailed : ¬ s.test.firstFailed o r = none) :
    (testTimingWheelMain o zvec).next s r = { s with failed := true } := if_neg hFailed

end Next

namespace WheelRun

variable (hTracks : s.Tracks o)
include hTracks

/-- The wheel holds an event until it has expired, at the time the test knows.
-/
theorem Tracks.wheel_eq_some {i : Fin n} {t : Nat} :
    s.wheel i = some t ↔ i ∉ s.test.expiredBitmap ∧ s.test.events i = t := by
  rw [hTracks.wheel_eq]
  split_ifs with h <;> simp [h]

/-- What the round leaves in the wheel. -/
theorem Tracks.remove_eq_some {i : Fin n} {t : Nat} :
    s.wheel.remove r.expired i = some t ↔ i ∉ s.test.bitmapAfter r ∧ s.test.events i = t := by
  rw [Timers.remove_eq_some, hTracks.wheel_eq_some, TestTimingWheel.bitmapAfter,
    Finset.mem_union, List.mem_toFinset, not_or]
  tauto

/-- `min_next_time[1]` is what the wheel should have told. -/
theorem Tracks.isLeast_minNextTime :
    IsLeast (insert maxTime {t | ∃ i, s.wheel.remove r.expired i = some t})
      (s.test.minNextTime r) := by
  have hLeast := isLeast_foldl_min (· ∈ s.test.bitmapAfter r) s.test.events (List.finRange n) maxTime
  have hSame : {t | ∃ i, s.wheel.remove r.expired i = some t} =
      {e | ∃ i ∈ List.finRange n, i ∉ s.test.bitmapAfter r ∧ s.test.events i = e} := by
    ext t
    simp only [Set.mem_ofPred_eq, hTracks.remove_eq_some, List.mem_finRange, true_and]
  rwa [hSame]

/-- What is in the bitmap stays due. -/
theorem Tracks.isExpired_of_mem (hEnabled : s.Enabled o r) {i : Fin n}
    (hMem : i ∈ s.test.expiredBitmap) : s.test.IsExpired o r i :=
  (hTracks.expired i hMem).trans (o.bin_le hEnabled.forward)

/-- What the wheel hands out is due by the times that the test knows: it was in
the wheel, or has been due before. -/
theorem Tracks.due (hEnabled : s.Enabled o r) (hAnswers : s.Answers o r) :
    ∀ j ∈ r.expired, s.test.IsExpired o r j := by
  intro j hj
  by_cases hMem : j ∈ s.test.expiredBitmap
  · exact hTracks.isExpired_of_mem hEnabled hMem
  · exact (hAnswers.mem_iff j _ (hTracks.wheel_eq_some.mpr ⟨hMem, rfl⟩)).mp hj

/-- The bitmap has just the events that are due. -/
theorem Tracks.isExpired_iff (hEnabled : s.Enabled o r) (hAnswers : s.Answers o r) (i : Fin n) :
    s.test.IsExpired o r i ↔ i ∈ s.test.bitmapAfter r := by
  rw [TestTimingWheel.bitmapAfter, Finset.mem_union, List.mem_toFinset]
  by_cases hMem : i ∈ s.test.expiredBitmap
  · exact iff_of_true (hTracks.isExpired_of_mem hEnabled hMem) (Or.inl hMem)
  · have hTime : s.wheel i = some (s.test.events i) := hTracks.wheel_eq_some.mpr ⟨hMem, rfl⟩
    rw [or_iff_right hMem]
    exact (hAnswers.mem_iff i _ hTime).symm

/-- No check fails if the wheel answers as it should. -/
theorem Tracks.checkHolds (hEnabled : s.Enabled o r) (hAnswers : s.Answers o r)
    (hInBin : o.syntheticTime = true → s.InBin o r) (c : Check n) (hCheck : c ∈ r.checks o) :
    s.test.CheckHolds o r c := by
  cases c with
  | nextAfterExpired i =>
      intro hExpired
      refine hAnswers.lt_next (fun a b hLe hDue => (o.bin_le hLe).trans hDue) hExpired ?_
      exact o.lt_of_bin_lt (lt_of_le_of_lt hExpired hEnabled.before_last)
  | nextUpToPending i =>
      intro hPending
      have hNot : i ∉ s.test.bitmapAfter r := fun hMem =>
        hPending ((hTracks.isExpired_iff hEnabled hAnswers i).mpr hMem)
      exact hAnswers.next_le (hTracks.remove_eq_some.mpr ⟨hNot, rfl⟩)
  | correctBin j =>
      have hBoth : o.syntheticTime = true ∧ j ∈ r.expired := by
        simpa [Round.checks, List.mem_append, List.mem_flatMap, List.mem_ite_nil_right] using hCheck
      exact (dtCpu_iff s.test r (hTracks.events_lt j)
        (hTracks.due hEnabled hAnswers j hBoth.2)).mpr (hInBin hBoth.1 j hBoth.2)
  | isExpired i => exact hTracks.isExpired_iff hEnabled hAnswers i
  | minNextTime => exact hAnswers.next.unique hTracks.isLeast_minNextTime

/-- A round that passes all checks has been answered as it should. -/
theorem Tracks.answers (hValidate : o.validate = true)
    (hHolds : ∀ c ∈ r.checks o, s.test.CheckHolds o r c) : s.Answers o r where
  mem_iff i t hTime := by
    obtain ⟨hNot, rfl⟩ := hTracks.wheel_eq_some.mp hTime
    have hBitmap : s.test.IsExpired o r i ↔ i ∈ s.test.bitmapAfter r :=
      hHolds (.isExpired i) (by simp [Round.checks, hValidate])
    rw [TestTimingWheel.bitmapAfter, Finset.mem_union, List.mem_toFinset, or_iff_right hNot]
      at hBitmap
    exact hBitmap.symm
  next := by
    have hNext : r.minNextTime.toNat = s.test.minNextTime r :=
      hHolds .minNextTime (by simp [Round.checks])
    rw [hNext]
    exact hTracks.isLeast_minNextTime

/-- In synthetic time the bins of what is handed out are checked too. -/
theorem Tracks.inBin (hEnabled : s.Enabled o r) (hAnswers : s.Answers o r)
    (hSynthetic : o.syntheticTime = true)
    (hHolds : ∀ c ∈ r.checks o, s.test.CheckHolds o r c) : s.InBin o r := by
  intro j hj
  have hDue := hTracks.due hEnabled hAnswers j hj
  have hCheck : s.test.CheckHolds o r (.correctBin j) :=
    hHolds _ (by simp [Round.checks, hSynthetic, hj])
  exact (dtCpu_iff s.test r (hTracks.events_lt j) hDue).mp hCheck

/-- A round keeps the bitmap and the times those of the wheel. -/
theorem Tracks.next (hEnabled : s.Enabled o r)
    (hDue : ∀ j ∈ r.expired, s.test.IsExpired o r j) :
    ((testTimingWheelMain o zvec).next s r).Tracks o := by
  have hBefore : ∀ i ∈ s.test.expiredBitmap, o.bin (s.test.events i) ≤ o.bin (s.test.cpuTime o r) :=
    fun i hMem => hTracks.isExpired_of_mem hEnabled hMem
  by_cases hSilent : s.test.firstFailed o r = none
  · constructor
    · intro i
      by_cases hAgain : s.test.iter < s.test.nIterAfter r
      · rw [next_again hSilent hAgain]
        by_cases hMem : i ∈ r.expired
        · simp [Timers.renew_of_mem hMem, TestTimingWheel.next, hAgain, hMem]
        · simp [Timers.renew_of_notMem hMem, Timers.remove_of_notMem hMem, hTracks.wheel_eq i,
            TestTimingWheel.next, TestTimingWheel.bitmapAfter, hAgain, hMem]
      · rw [next_last hSilent hAgain]
        by_cases hMem : i ∈ r.expired
        · simp [Timers.remove_of_mem hMem, TestTimingWheel.next, TestTimingWheel.bitmapAfter,
            hAgain, hMem]
        · simp [Timers.remove_of_notMem hMem, hTracks.wheel_eq i, TestTimingWheel.next,
            TestTimingWheel.bitmapAfter, hAgain, hMem]
    · intro i hMem
      rw [next_silent hSilent] at hMem ⊢
      by_cases hAgain : s.test.iter < s.test.nIterAfter r
      · have hOld : i ∈ s.test.expiredBitmap ∧ i ∉ r.expired := by
          simpa [TestTimingWheel.next, TestTimingWheel.bitmapAfter, hAgain, or_and_right] using hMem
        simpa [TestTimingWheel.next, hOld.2] using hBefore i hOld.1
      · have hOld : i ∈ s.test.expiredBitmap ∨ i ∈ r.expired := by
          simpa [TestTimingWheel.next, TestTimingWheel.bitmapAfter, hAgain] using hMem
        simpa [TestTimingWheel.next, hAgain] using hOld.elim (hBefore i) (hDue i)
    · intro i
      rw [next_silent hSilent]
      by_cases hNew : s.test.iter < s.test.nIterAfter r ∧ i ∈ r.expired
      · simpa [TestTimingWheel.next, TestTimingWheel.renewed, hNew] using setEvent_lt _ _ _
      · simpa [TestTimingWheel.next, if_neg hNew] using hTracks.events_lt i
  · rw [next_failed hSilent]
    exact ⟨hTracks.wheel_eq, hTracks.expired, hTracks.events_lt⟩

/-- What a round without a failed check says about the wheel. -/
theorem Tracks.silent_iff (hEnabled : s.Enabled o r) (hValidate : o.validate = true) :
    s.test.firstFailed o r = none ↔
      s.Answers o r ∧ (o.syntheticTime = true → s.InBin o r) := by
  rw [firstFailed_eq_none]
  constructor
  · intro hHolds
    have hAnswers := hTracks.answers hValidate hHolds
    exact ⟨hAnswers, fun hSynthetic => hTracks.inBin hEnabled hAnswers hSynthetic hHolds⟩
  · rintro ⟨hAnswers, hInBin⟩
    exact hTracks.checkHolds hEnabled hAnswers hInBin

end WheelRun

/-- Every event is in the wheel at the start. -/
theorem tracks_start (nIter : Nat) (currentTimeIndex : UInt64) (draw : Fin n → Draw) :
    (WheelRun.start o nIter currentTimeIndex draw).Tracks o where
  wheel_eq _ := rfl
  expired i hMem := absurd hMem (Finset.notMem_empty i)
  events_lt i := setEvent_lt nIter currentTimeIndex (draw i)

/-- A run without a report has been answered as it should in every round. -/
theorem answers_of_silent (hValidate : o.validate = true) {rounds : List (Round n)}
    (hTracks : s.Tracks o) (hRun : (testTimingWheelMain o zvec).Admits s rounds)
    (hSilent : ∀ verdict ∈ (testTimingWheelMain o zvec).trace s rounds, verdict = none) :
    (testTimingWheelMain o zvec).Meets
      (fun s r => s.Answers o r ∧ (o.syntheticTime = true → s.InBin o r)) s rounds := by
  rw [silent_iff_meets] at hSilent
  refine (hRun.and hSilent).meets_of_invariant (I := WheelRun.Tracks o) ?_ ?_ hTracks
  · rintro s r ⟨hEnabled, hNone⟩ hTracks
    have hAnswers := ((hTracks.silent_iff hEnabled hValidate).mp hNone).1
    exact hTracks.next hEnabled (hTracks.due hEnabled hAnswers)
  · rintro s r ⟨hEnabled, hNone⟩ hTracks
    exact (hTracks.silent_iff hEnabled hValidate).mp hNone

def oneClock : WheelOptions := ⟨true, true, false, 0, by decide⟩

/-- Two events in two iterations, both entered again, and a third round that
takes them out. -/
def twoRenewed : List (Round 2) :=
  let first : Fin 2 := ⟨0, Nat.two_pos⟩
  let second : Fin 2 := ⟨1, Nat.one_lt_two⟩
  [⟨0, [first], 1, 0, fun _ => ⟨1, 0⟩, false⟩,
    ⟨0, [first, second], 0xffffffffffffffff, 1, fun i => ⟨1 - UInt32.ofNat i, 0⟩, false⟩,
    ⟨0, [second, first], 0xffffffffffffffff, 2, fun _ => ⟨0, 0⟩, false⟩]

end DpdkPerf.VppTest
