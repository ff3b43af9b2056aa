import DpdkPerf.VppTest.TimingWheelRun

/-! The timing wheel test in synthetic time, where each round is one bin of
the wheel. A wheel that answers as it should is not blamed, and the loop comes
to its end with nothing left in the wheel. -/
namespace DpdkPerf.VppTest

variable {n : Nat} {o : WheelOptions} {zvec : Int → Nat} {s : WheelRun n} {r : Round n}

/-- After an advance the wheel stands at the bin of the clock, or at the next. -/
def WheelRun.Stands (o : WheelOptions) (s : WheelRun n) (r : Round n) : Prop :=
  o.bin (s.test.cpuTime o r) ≤ r.currentTimeIndex.toNat ∧
    r.currentTimeIndex.toNat ≤ o.bin (s.test.cpuTime o r) + 1

/-- What the program may expect of the wheel in a round: it hands out events
that are in it, each once, and just those that are due. -/
structure WheelRun.Lawful (o : WheelOptions) (s : WheelRun n) (r : Round n) : Prop where
  takes : s.wheel.Takes r.expired
  answers : s.Answers o r
  stands : s.Stands o r

/-- What is in the wheel after a round without a failed check: an event that
was not due, or one that has just been put in. -/
theorem wheel_next (hSilent : s.test.firstFailed o r = none) {i : Fin n} {t : Nat}
    (hTime : ((testTimingWheelMain o zvec).next s r).wheel i = some t) :
    s.wheel.remove r.expired i = some t ∨
      s.test.iter < s.test.nIterAfter r ∧ t = s.test.renewed o r i := by
  by_cases hAgain : s.test.iter < s.test.nIterAfter r
  · rw [next_again hSilent hAgain] at hTime
    dsimp only at hTime
    by_cases hMem : i ∈ r.expired
    · rw [Timers.renew_of_mem hMem] at hTime
      exact Or.inr ⟨hAgain, (Option.some.inj hTime).symm⟩
    · rw [Timers.renew_of_notMem hMem] at hTime
      exact Or.inl hTime
  · rw [next_last hSilent hAgain] at hTime
    exact Or.inl hTime

theorem iter_next (hSilent : s.test.firstFailed o r = none) :
    ((testTimingWheelMain o zvec).next s r).test.iter = s.test.iter + 1 := by
  rw [next_silent hSilent]
  rfl

theorem nIter_next (hSilent : s.test.firstFailed o r = none) :
    ((testTimingWheelMain o zvec).next s r).test.nIter = s.test.nIterAfter r := by
  rw [next_silent hSilent]
  rfl

theorem now_next (hSilent : s.test.firstFailed o r = none) :
    ((testTimingWheelMain o zvec).next s r).now = s.test.cpuTime o r := by
  rw [next_silent hSilent]

variable (o zvec) in
/-- A round is counted at most once. -/
theorem iter_le_next (s : WheelRun n) (r : Round n) :
    ((testTimingWheelMain o zvec).next s r).test.iter ≤ s.test.iter + 1 := by
  by_cases hSilent : s.test.firstFailed o r = none
  · exact (iter_next hSilent).le
  · rw [next_failed hSilent]
    exact Nat.le_succ _

variable (o zvec) in
/-- There are no more iterations than rounds. -/
theorem meets_iter_lt (s : WheelRun n) (rounds : List (Round n)) :
    (testTimingWheelMain o zvec).Meets (fun t _ => t.test.iter < s.test.iter + rounds.length)
      s rounds := by
  induction rounds generalizing s with
  | nil => exact Machine.meets_nil s
  | cons r rest ih =>
      refine (Machine.meets_cons ..).mpr ⟨?_, (ih _).mono fun t _ hLt => ?_⟩
      · rw [List.length_cons]
        omega
      · have hNext := iter_le_next o zvec s r
        rw [List.length_cons]
        omega

section OneClock

variable (hSynthetic : o.syntheticTime = true) (hBin : o.log2ClocksPerBin = 0)
include hBin

theorem bin_eq (time : Nat) : o.bin time = time := by
  rw [WheelOptions.bin, hBin, Nat.shiftRight_zero]

include hSynthetic in
theorem cpuTime_eq (hIter : s.test.iter < 2 ^ 64) : s.test.cpuTime o r = s.test.iter := by
  rw [TestTimingWheel.cpuTime, if_pos hSynthetic, hBin, Nat.shiftLeft_zero, Nat.mod_eq_of_lt hIter]

/-- An event that is put in again is not due before the next round. -/
theorem le_renewed (hStands : s.Stands o r) (hSynthetic : o.syntheticTime = true)
    (hIter : s.test.iter + 1 + 2 ^ 32 < 2 ^ 64) (i : Fin n) :
    s.test.iter ≤ s.test.renewed o r i := by
  have hDraw := (r.draw i).randomU32.toNat_lt
  have hLess : (r.draw i).randomU32.toNat % s.test.nIterAfter r ≤ (r.draw i).randomU32.toNat :=
    Nat.mod_le _ _
  obtain ⟨hLower, hUpper⟩ := hStands
  rw [bin_eq hBin, cpuTime_eq hSynthetic hBin (by omega)] at hLower hUpper
  rw [TestTimingWheel.renewed, setEvent, hBin, if_pos hSynthetic, Nat.shiftLeft_zero,
    Nat.mod_eq_of_lt r.currentTimeIndex.toNat_lt, Nat.mod_eq_of_lt (by omega)]
  omega

include hSynthetic in
/-- In synthetic time, where a bin is one clock, no check of the test fails in
a run if the wheel answers each round as it should. -/
theorem synthetic_silent (nIter : Nat) (draw : Fin n → Draw) {rounds : List (Round n)}
    (hShort : rounds.length + 1 + 2 ^ 32 < 2 ^ 64)
    (hRun : (testTimingWheelMain o zvec).Admits (.start o nIter 0 draw) rounds)
    (hLawful : (testTimingWheelMain o zvec).Meets (WheelRun.Lawful o)
      (.start o nIter 0 draw) rounds) :
    ∀ verdict ∈ (testTimingWheelMain o zvec).trace (.start o nIter 0 draw) rounds,
      verdict = none := by
  -- nothing in the wheel is older than the round before
  let recent (s : WheelRun n) : Prop :=
    s.Tracks o ∧ ∀ i t, s.wheel i = some t → s.test.iter ≤ t + 1
  have hSilent : ∀ (s : WheelRun n) (r : Round n), s.Enabled o r → s.Lawful o r →
      s.test.iter + 1 + 2 ^ 32 < 2 ^ 64 → recent s → s.test.firstFailed o r = none := by
    rintro s r hEnabled hLaw hIter ⟨hTracks, hRecent⟩
    refine firstFailed_eq_none.mpr (hTracks.checkHolds hEnabled hLaw.answers fun _ j hj => ?_)
    have hDue : o.bin (s.test.events j) ≤ o.bin (s.test.cpuTime o r) :=
      hTracks.due hEnabled hLaw.answers j hj
    obtain ⟨t, hTime⟩ := Option.ne_none_iff_exists'.mp (hLaw.takes.pending j hj)
    have hOld := hRecent j t hTime
    obtain ⟨-, rfl⟩ := hTracks.wheel_eq_some.mp hTime
    rw [bin_eq hBin, bin_eq hBin] at hDue
    rw [hBin]
    rw [cpuTime_eq hSynthetic hBin (by omega)] at hDue ⊢
    exact ⟨hDue, hOld⟩
  have hKeep : ∀ (s : WheelRun n) (r : Round n), s.Enabled o r → s.Lawful o r →
      s.test.iter + 1 + 2 ^ 32 < 2 ^ 64 → recent s →
      recent ((testTimingWheelMain o zvec).next s r) := by
    intro s r hEnabled hLaw hIter hRecent
    have hNone := hSilent s r hEnabled hLaw hIter hRecent
    refine ⟨hRecent.1.next hEnabled (hRecent.1.due hEnabled hLaw.answers), fun i t hTime => ?_⟩
    rw [iter_next hNone]
    rcases wheel_next hNone hTime with hStays | ⟨-, rfl⟩
    · have hNot : ¬ o.bin t ≤ o.bin (s.test.cpuTime o r) := hLaw.answers.not_due hStays
      rw [bin_eq hBin, bin_eq hBin, cpuTime_eq hSynthetic hBin (by omega)] at hNot
      omega
    · exact Nat.succ_le_succ (le_renewed hBin hLaw.stands hSynthetic hIter i)
  have hAll := (hRun.and hLawful).and (meets_iter_lt o zvec _ rounds)
  rw [silent_iff_meets]
  refine hAll.meets_of_invariant (I := recent) ?_ ?_ ⟨tracks_start nIter 0 draw, ?_⟩
  · rintro s r ⟨⟨hEnabled, hLaw⟩, hIter⟩ hRecent
    exact hKeep s r hEnabled hLaw (by change _ < 0 + _ at hIter; omega) hRecent
  · rintro s r ⟨⟨hEnabled, hLaw⟩, hIter⟩ hRecent
    exact hSilent s r hEnabled hLaw (by change _ < 0 + _ at hIter; omega) hRecent
  · exact fun i t _ => Nat.zero_le _

end OneClock

/-- The wheel of the example stands at the bin of the clock. -/
theorem lawful_twoRenewed :
    (testTimingWheelMain oneClock Int.toNat).Meets (WheelRun.Lawful oneClock)
      (.start oneClock 2 0 fun i => ⟨UInt32.ofNat i, 0⟩) twoRenewed := by
  have hAnswers : (testTimingWheelMain oneClock Int.toNat).Meets
      (fun s r => s.Answers oneClock r ∧ (oneClock.syntheticTime = true → s.InBin oneClock r))
      (.start oneClock 2 0 fun i => ⟨UInt32.ofNat i, 0⟩) twoRenewed :=
    answers_of_silent rfl (tracks_start 2 0 fun i => ⟨UInt32.ofNat i, 0⟩) (by decide +kernel)
      (by decide +kernel)
  have hTakes : (testTimingWheelMain oneClock Int.toNat).Meets
      (fun s r => s.wheel.Takes r.expired)
      (.start oneClock 2 0 fun i => ⟨UInt32.ofNat i, 0⟩) twoRenewed := by
    decide +kernel
  refine ((hTakes.and hAnswers).and (D := WheelRun.Stands oneClock) ?_).mono
    fun s r h => ⟨h.1.1, h.1.2.1, h.2⟩
  have hStands : (testTimingWheelMain oneClock Int.toNat).Meets
      (fun s r => oneClock.bin (s.test.cpuTime oneClock r) ≤ r.currentTimeIndex.toNat ∧
        r.currentTimeIndex.toNat ≤ oneClock.bin (s.test.cpuTime oneClock r) + 1)
      (.start oneClock 2 0 fun i => ⟨UInt32.ofNat i, 0⟩) twoRenewed := by
    decide +kernel
  exact hStands

/-- The three rounds report nothing. -/
theorem synthetic_silent_twoRenewed :
    (testTimingWheelMain oneClock Int.toNat).trace
      (.start oneClock 2 0 fun i => ⟨UInt32.ofNat i, 0⟩) twoRenewed = List.replicate 3 none :=
  List.eq_replicate_iff.mpr ⟨rfl,
    synthetic_silent rfl rfl 2 _ (by decide) (by decide +kernel) lawful_twoRenewed⟩

section Termination

variable {total : Nat}

/-- What keeps the loop from going on. Once no event is put in any more, what
is in the wheel lies ahead of the clock, and nothing lies beyond twice the
number of iterations. -/
structure WheelRun.Bounded (o : WheelOptions) (s : WheelRun n) (total : Nat) : Prop where
  tracks : s.Tracks o
  nIter_eq : s.test.nIter = total
  bin_lt : ∀ i t, s.wheel i = some t → o.bin t < 2 * total
  ahead : total < s.test.iter → ∀ i t, s.wheel i = some t → s.test.iter ≤ o.bin t
  inWheel : s.test.nEventsInWheel = UInt64.ofNat s.wheel.pending.card
  now_le : s.now ≤ s.test.iter <<< o.log2ClocksPerBin

/-- As long as events are counted one is in the wheel. -/
theorem WheelRun.Bounded.exists_pending (h : s.Bounded o total) (hMore : 0 < s.test.nEventsInWheel) :
    ∃ i t, s.wheel i = some t := by
  have hSome : s.wheel.pending.Nonempty := by
    rw [← Finset.card_ne_zero]
    intro hZero
    rw [h.inWheel, hZero] at hMore
    exact absurd hMore (by decide)
  obtain ⟨i, hMem⟩ := hSome
  exact ⟨i, Option.ne_none_iff_exists'.mp (Timers.mem_pending.mp hMem)⟩

theorem WheelRun.Bounded.iter_lt (h : s.Bounded o total) (hRunning : s.test.Running) :
    s.test.iter < 2 * total := by
  rcases hRunning with hMore | hMore
  · have hTotal := h.nIter_eq
    omega
  · obtain ⟨i, t, hTime⟩ := h.exists_pending hMore
    have hUpper := h.bin_lt i t hTime
    by_cases hLate : total < s.test.iter
    · exact lt_of_le_of_lt (h.ahead hLate i t hTime) hUpper
    · omega

variable (hSynthetic : o.syntheticTime = true)
  (hRange : 2 * total * 2 ^ o.log2ClocksPerBin < 2 ^ 64)

theorem bin_lt_of_lt {time : Nat} (h : time < 2 * total * 2 ^ o.log2ClocksPerBin) :
    o.bin time < 2 * total := by
  rw [WheelOptions.bin, Nat.shiftRight_eq_div_pow]
  exact (Nat.div_lt_iff_lt_mul (Nat.two_pow_pos _)).mpr h

include hSynthetic hRange in
/-- An event that is put in is due before the bound. -/
theorem bin_setEvent_lt {currentTimeIndex : UInt64} (hIndex : currentTimeIndex.toNat ≤ total)
    (hPos : 0 < total) (draw : Draw) : o.bin (setEvent o total currentTimeIndex draw) < 2 * total := by
  have hDraw : draw.randomU32.toNat % total < total := Nat.mod_lt _ hPos
  have hBase := Nat.mul_le_mul_right (2 ^ o.log2ClocksPerBin) hIndex
  have hWide : total ≤ total * 2 ^ o.log2ClocksPerBin :=
    Nat.le_mul_of_pos_right total (Nat.two_pow_pos _)
  rw [Nat.mul_assoc] at hRange
  apply bin_lt_of_lt
  rw [setEvent, if_pos hSynthetic, Nat.shiftLeft_eq, Nat.mul_assoc,
    Nat.mod_eq_of_lt (b := 2 ^ 64) (by omega), Nat.mod_eq_of_lt (by omega)]
  omega

include hSynthetic hRange in
/-- The clock of a round. -/
theorem synthetic_cpuTime (hIter : s.test.iter < 2 * total) (r : Round n) :
    s.test.cpuTime o r = s.test.iter <<< o.log2ClocksPerBin ∧
      o.bin (s.test.cpuTime o r) = s.test.iter := by
  have hNoWrap : s.test.iter <<< o.log2ClocksPerBin < 2 ^ 64 := by
    rw [Nat.shiftLeft_eq]
    exact lt_trans (Nat.mul_lt_mul_of_pos_right hIter (Nat.two_pow_pos _)) hRange
  have hClock : s.test.cpuTime o r = s.test.iter <<< o.log2ClocksPerBin := by
    rw [TestTimingWheel.cpuTime, if_pos hSynthetic, Nat.mod_eq_of_lt hNoWrap]
  exact ⟨hClock, by rw [hClock, WheelOptions.bin, Nat.shiftLeft_shiftRight]⟩

include hSynthetic hRange in
/-- A round stays within the bound. -/
theorem WheelRun.Bounded.next (h : s.Bounded o total) (hIterTime : o.iterTime = false)
    (hEnabled : s.Enabled o r) (hLawful : s.Lawful o r) :
    ((testTimingWheelMain o zvec).next s r).Bounded o total := by
  have hTracks : ((testTimingWheelMain o zvec).next s r).Tracks o :=
    h.tracks.next hEnabled (h.tracks.due hEnabled hLawful.answers)
  by_cases hSilent : s.test.firstFailed o r = none
  · have hAfter : s.test.nIterAfter r = total := by
      have hNot : ¬ r.timeUp = true := fun hUp => by
        rw [hEnabled.timeUp hUp] at hIterTime
        cases hIterTime
      rw [TestTimingWheel.nIterAfter, if_neg hNot, h.nIter_eq]
    obtain ⟨hClock, hBin⟩ := synthetic_cpuTime hSynthetic hRange (h.iter_lt hEnabled.running) r
    refine ⟨hTracks, by rw [nIter_next hSilent, hAfter], fun i t hTime => ?_, ?_,
      inWheel_next hSilent (fun _ => hLawful.takes.card_renew) (fun _ => hLawful.takes) h.inWheel,
      ?_⟩
    · rcases wheel_next hSilent hTime with hStays | ⟨hAgain, rfl⟩
      · exact h.bin_lt i t (Timers.remove_eq_some.mp hStays).2
      · have hIndex := hLawful.stands.2
        rw [hBin] at hIndex
        rw [hAfter] at hAgain
        rw [TestTimingWheel.renewed, hAfter]
        exact bin_setEvent_lt hSynthetic hRange (by omega) (by omega) _
    · rw [iter_next hSilent]
      intro hLate i t hTime
      rcases wheel_next hSilent hTime with hStays | ⟨hAgain, -⟩
      · have hNot : ¬ o.bin t ≤ o.bin (s.test.cpuTime o r) := hLawful.answers.not_due hStays
        rw [hBin] at hNot
        omega
      · rw [hAfter] at hAgain
        omega
    · rw [now_next hSilent, iter_next hSilent, hClock, Nat.shiftLeft_eq, Nat.shiftLeft_eq]
      exact Nat.mul_le_mul_right _ (Nat.le_succ _)
  · rw [next_failed hSilent]
    exact ⟨⟨h.tracks.wheel_eq, h.tracks.expired, h.tracks.events_lt⟩, h.nIter_eq, h.bin_lt, h.ahead,
      h.inWheel, h.now_le⟩

/-- The answer that is due in a round of synthetic time. -/
def WheelRun.answer (o : WheelOptions) (s : WheelRun n) : Round n :=
  let due : Round n :=
    { clock := 0
      expired := (List.finRange n).filter fun i =>
        i ∉ s.test.expiredBitmap ∧ o.bin (s.test.events i) ≤ s.test.iter
      minNextTime := 0
      currentTimeIndex := UInt64.ofNat s.test.iter
      draw := fun _ => ⟨0, 0⟩
      timeUp := false }
  { due with minNextTime := UInt64.ofNat (s.test.minNextTime due) }

include hSynthetic hRange in
/-- There is always an answer as it should be. -/
theorem WheelRun.Bounded.answer (h : s.Bounded o total) (hGoesOn : s.failed = false)
    (hRunning : s.test.Running) :
    s.Enabled o (s.answer o) ∧ s.Lawful o (s.answer o) := by
  have hIter := h.iter_lt hRunning
  obtain ⟨hClock, hBin⟩ := synthetic_cpuTime hSynthetic hRange hIter (s.answer o)
  have hMem : ∀ i, i ∈ (s.answer o).expired ↔
      i ∉ s.test.expiredBitmap ∧ o.bin (s.test.events i) ≤ s.test.iter := by
    intro i
    simp [WheelRun.answer]
  have hSmall : 2 * total ≤ 2 * total * 2 ^ o.log2ClocksPerBin :=
    Nat.le_mul_of_pos_right _ (Nat.two_pow_pos _)
  have hIndex : (UInt64.ofNat s.test.iter).toNat = s.test.iter := by
    rw [UInt64.toNat_ofNat', Nat.mod_eq_of_lt (by omega)]
  have hNext : (s.answer o).minNextTime.toNat = s.test.minNextTime (s.answer o) := by
    have hLe : s.test.minNextTime (s.answer o) ≤ maxTime :=
      h.tracks.isLeast_minNextTime.2 (Or.inl rfl)
    have hRound : (s.answer o).minNextTime = UInt64.ofNat (s.test.minNextTime (s.answer o)) := rfl
    rw [hRound, UInt64.toNat_ofNat', Nat.mod_eq_of_lt (lt_of_le_of_lt hLe (by decide))]
  refine ⟨⟨hGoesOn, hRunning, ?_, ?_, fun hUp => by cases hUp⟩,
    ⟨(List.nodup_finRange n).filter _, fun i hi => ?_⟩, ⟨fun i t hTime => ?_, ?_⟩, ?_⟩
  · rw [hClock]
    exact h.now_le
  · have hMax : (s.test.iter + 1) * 2 ^ o.log2ClocksPerBin ≤ maxTime :=
      (Nat.mul_le_mul_right _ hIter).trans (Nat.le_sub_one_of_lt hRange)
    rw [hBin, WheelOptions.bin, Nat.shiftRight_eq_div_pow]
    exact (Nat.le_div_iff_mul_le (Nat.two_pow_pos _)).mpr hMax
  · rw [h.tracks.wheel_eq_some.mpr ⟨((hMem i).mp hi).1, rfl⟩]
    exact Option.some_ne_none _
  · obtain ⟨hNot, rfl⟩ := h.tracks.wheel_eq_some.mp hTime
    rw [hMem, and_iff_right hNot, WheelRun.Due, hBin]
  · rw [hNext]
    exact h.tracks.isLeast_minNextTime
  · have hStands : (s.answer o).currentTimeIndex.toNat = s.test.iter := hIndex
    rw [WheelRun.Stands, hBin, hStands]
    exact ⟨le_rfl, Nat.le_succ _⟩

end Termination

end DpdkPerf.VppTest
