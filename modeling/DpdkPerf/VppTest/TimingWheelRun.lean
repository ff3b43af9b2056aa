import DpdkPerf.VppTest.TimingWheelChecks
import Mathlib.Algebra.BigOperators.Group.List.Basic
import Mathlib.Data.UInt

/-! The counts that the timing wheel test keeps over a whole run, and where
each event is. -/
namespace DpdkPerf.VppTest

variable {n : Nat} {o : WheelOptions} {zvec : Int → Nat} {s : WheelRun n} {r : Round n}

/-- The events that have expired, in order. -/
def expirations (rounds : List (Round n)) : List (Fin n) := rounds.flatMap Round.expired

/-- A round that puts what has expired into the wheel again. -/
def Round.entered (s : WheelRun n) (r : Round n) : List (Fin n) :=
  if s.test.iter < s.test.nIterAfter r then r.expired else []

/-- Each event is put into the wheel before the loop, and may be again. -/
def entries (o : WheelOptions) (zvec : Int → Nat) (s : WheelRun n) (rounds : List (Round n)) :
    List (Fin n) :=
  List.finRange n ++
    ((testTimingWheelMain o zvec).visits s rounds).flatMap fun v => v.2.entered v.1

theorem sum_vecValidate (v : List UInt32) (i : Nat) : (vecValidate v i).sum = v.sum := by
  rw [vecValidate, List.sum_append, List.sum_replicate, nsmul_zero, add_zero]

/-- One more in any place is one more in all. -/
theorem sum_modify (v : List UInt32) {i : Nat} (h : i < v.length) :
    (v.modify i (· + 1)).sum = v.sum + 1 := by
  induction v generalizing i with
  | nil => exact absurd h (Nat.not_lt_zero i)
  | cons a rest ih =>
      cases i with
      | zero =>
          rw [List.modify_zero_cons, List.sum_cons, List.sum_cons, add_right_comm]
      | succ i =>
          rw [List.modify_succ_cons, List.sum_cons, List.sum_cons,
            ih (Nat.lt_of_succ_lt_succ h), add_assoc]

/-- An error is counted once. -/
theorem sum_countError (errorHist : List UInt32) (idt : Nat) :
    (countError errorHist idt).sum = errorHist.sum + 1 := by
  have hRoom : idt < (vecValidate errorHist idt).length := by
    rw [vecValidate, List.length_append, List.length_replicate]
    omega
  rw [countError, sum_modify _ hRoom, sum_vecValidate]

/-- Each event that expires is counted once. -/
theorem sum_errorHist (idt : Fin n → Nat) (expired : List (Fin n)) (errorHist : List UInt32) :
    (expired.foldl (fun hist j => countError hist (idt j)) errorHist).sum =
      errorHist.sum + UInt32.ofNat expired.length := by
  induction expired generalizing errorHist with
  | nil => simp
  | cons j rest ih =>
      rw [List.foldl_cons, ih, sum_countError, List.length_cons, UInt32.ofNat_add, add_assoc,
        add_comm 1]
      rfl

/-- Once a round enters nothing again, the wheel hands out only events that are
in it, each once. -/
def WheelRun.Settles (s : WheelRun n) (r : Round n) : Prop :=
  ¬ s.test.iter < s.test.nIterAfter r → s.wheel.Takes r.expired

instance (s : WheelRun n) (r : Round n) : Decidable (s.Settles r) :=
  inferInstanceAs (Decidable (_ → _))

/-- Each event has been entered as often as it expired, and once more if it is
in the wheel; and that is what `n_events_in_wheel` counts. -/
structure WheelRun.Accounts (o : WheelOptions) (zvec : Int → Nat) (s start : WheelRun n)
    (past : List (Round n)) : Prop where
  inWheel : s.test.nEventsInWheel.toNat = s.wheel.pending.card
  count : ∀ i, (entries o zvec start past).count i =
    (expirations past).count i + if s.wheel i = none then 0 else 1

/-- What holds after rounds without a failed check, whatever the wheel hands
out. An event is out of the wheel only when none is entered again. -/
structure WheelRun.Counted (o : WheelOptions) (zvec : Int → Nat) (s start : WheelRun n)
    (past : List (Round n)) : Prop where
  reached : s = (testTimingWheelMain o zvec).run start past
  expired : s.test.nExpired = UInt64.ofNat (expirations past).length
  errors : s.test.errorHist.sum = UInt32.ofNat (expirations past).length
  full : ∀ i, s.wheel i = none → s.test.nIter ≤ s.test.iter

theorem expirations_snoc (past : List (Round n)) (r : Round n) :
    expirations (past ++ [r]) = expirations past ++ r.expired := by
  simp [expirations]

theorem entries_snoc (start : WheelRun n) (past : List (Round n)) (r : Round n) :
    entries o zvec start (past ++ [r]) =
      entries o zvec start past ++ r.entered ((testTimingWheelMain o zvec).run start past) := by
  simp [entries, Machine.visits]

/-- A round that enters events again has all of them in the wheel. -/
theorem wheel_ne_none_of_again (hFull : ∀ i, s.wheel i = none → s.test.nIter ≤ s.test.iter)
    (hAgain : s.test.iter < s.test.nIterAfter r) (i : Fin n) : s.wheel i ≠ none := by
  intro hNone
  have hOver := hFull i hNone
  unfold TestTimingWheel.nIterAfter at hAgain
  split at hAgain
  · omega
  · omega

/-- The counter of the events in the wheel is kept right. -/
theorem inWheel_next (hSilent : s.test.firstFailed o r = none)
    (hKept : s.test.iter < s.test.nIterAfter r →
      ((s.wheel.remove r.expired).renew r.expired (s.test.renewed o r)).pending.card =
        s.wheel.pending.card)
    (hSettles : s.Settles r)
    (hInWheel : s.test.nEventsInWheel = UInt64.ofNat s.wheel.pending.card) :
    ((testTimingWheelMain o zvec).next s r).test.nEventsInWheel =
      UInt64.ofNat ((testTimingWheelMain o zvec).next s r).wheel.pending.card := by
  by_cases hAgain : s.test.iter < s.test.nIterAfter r
  · rw [next_again hSilent hAgain]
    dsimp only [TestTimingWheel.next]
    rw [if_pos hAgain, hKept hAgain, hInWheel, sub_add_cancel]
  · have hCard := (hSettles hAgain).card_remove
    rw [next_last hSilent hAgain]
    dsimp only [TestTimingWheel.next]
    rw [if_neg hAgain, hInWheel, ← hCard, UInt64.ofNat_add, add_sub_cancel_right]

/-- All events are counted when they are put in. -/
theorem inWheel_start (nIter : Nat) (currentTimeIndex : UInt64) (draw : Fin n → Draw) :
    (WheelRun.start o nIter currentTimeIndex draw).test.nEventsInWheel =
      UInt64.ofNat (WheelRun.start o nIter currentTimeIndex draw).wheel.pending.card := by
  have hAll : (WheelRun.start o nIter currentTimeIndex draw).wheel.pending = Finset.univ :=
    Finset.eq_univ_of_forall fun i => Timers.mem_pending.mpr (Option.some_ne_none _)
  rw [hAll, Finset.card_univ, Fintype.card_fin]
  rfl

/-- The counter is wide enough for the events. -/
theorem inWheel_iff (hn : n < 2 ^ 32) (s : WheelRun n) :
    s.test.nEventsInWheel.toNat = s.wheel.pending.card ↔
      s.test.nEventsInWheel = UInt64.ofNat s.wheel.pending.card := by
  have hCard : s.wheel.pending.card ≤ n := by
    simpa using s.wheel.pending.card_le_univ
  have hFits : (UInt64.ofNat s.wheel.pending.card).toNat = s.wheel.pending.card := by
    rw [UInt64.toNat_ofNat', Nat.mod_eq_of_lt (by omega)]
  rw [← UInt64.toNat_inj, hFits]

namespace WheelRun

variable {start : WheelRun n} {past : List (Round n)} (h : s.Counted o zvec start past)
include h

/-- What one more round counts. -/
theorem Counted.next (hSilent : s.test.firstFailed o r = none) :
    ((testTimingWheelMain o zvec).next s r).Counted o zvec start (past ++ [r]) := by
  have hReached : (testTimingWheelMain o zvec).next s r =
      (testTimingWheelMain o zvec).run start (past ++ [r]) := by
    rw [Machine.run_append, ← h.reached]
    rfl
  have hExpired : s.test.nExpired + UInt64.ofNat r.expired.length =
      UInt64.ofNat (expirations (past ++ [r])).length := by
    rw [h.expired, expirations_snoc, List.length_append, UInt64.ofNat_add]
  have hErrors : (r.expired.foldl (fun hist j => countError hist
      (zvec (o.bin (s.test.cpuTime o r) - o.bin (s.test.events j)))) s.test.errorHist).sum =
      UInt32.ofNat (expirations (past ++ [r])).length := by
    rw [sum_errorHist, h.errors, expirations_snoc, List.length_append, UInt32.ofNat_add]
  constructor
  case reached => exact hReached
  case expired =>
    rw [next_silent hSilent]
    exact hExpired
  case errors =>
    rw [next_silent hSilent]
    exact hErrors
  case full =>
    intro i hNone
    by_cases hAgain : s.test.iter < s.test.nIterAfter r
    · rw [next_again hSilent hAgain] at hNone
      dsimp only at hNone
      have hSome := wheel_ne_none_of_again h.full hAgain i
      by_cases hMem : i ∈ r.expired
      · rw [Timers.renew_of_mem hMem] at hNone
        cases hNone
      · rw [Timers.renew_of_notMem hMem, Timers.remove_of_notMem hMem] at hNone
        exact absurd hNone hSome
    · rw [next_silent hSilent]
      exact (Nat.not_lt.mp hAgain).trans (Nat.le_succ _)

/-- A round keeps the account exactly if it settles. -/
theorem Counted.accounts_next (hn : n < 2 ^ 32) (hSilent : s.test.firstFailed o r = none)
    (hAccounts : s.Accounts o zvec start past) :
    ((testTimingWheelMain o zvec).next s r).Accounts o zvec start (past ++ [r]) ↔ s.Settles r := by
  have hCount : ∀ i, (entries o zvec start (past ++ [r])).count i =
      ((expirations past).count i + if s.wheel i = none then 0 else 1) + (r.entered s).count i := by
    intro i
    rw [entries_snoc, ← h.reached, List.count_append, hAccounts.count]
  have hInWheel := (inWheel_iff hn s).mp hAccounts.inWheel
  by_cases hAgain : s.test.iter < s.test.nIterAfter r
  · have hSome := wheel_ne_none_of_again h.full hAgain
    have hAll : ∀ i, ((s.wheel.remove r.expired).renew r.expired (s.test.renewed o r)) i ≠ none := by
      intro i
      by_cases hMem : i ∈ r.expired
      · rw [Timers.renew_of_mem hMem]
        exact Option.some_ne_none _
      · rw [Timers.renew_of_notMem hMem, Timers.remove_of_notMem hMem]
        exact hSome i
    have hKept : ((s.wheel.remove r.expired).renew r.expired (s.test.renewed o r)).pending =
        s.wheel.pending := by
      ext i
      rw [Timers.mem_pending, Timers.mem_pending]
      exact iff_of_true (hAll i) (hSome i)
    have hSettles : s.Settles r := fun hLast => absurd hAgain hLast
    refine iff_of_true ⟨?_, fun i => ?_⟩ hSettles
    · exact (inWheel_iff hn _).mpr
        (inWheel_next hSilent (fun _ => congrArg Finset.card hKept) hSettles hInWheel)
    · rw [hCount, expirations_snoc, List.count_append, Round.entered, if_pos hAgain,
        if_neg (hSome i), next_again hSilent hAgain]
      dsimp only
      rw [if_neg (hAll i), add_right_comm]
  · constructor
    · -- a surplus in an answer shows in the count of its event
      intro hNext _
      have hEach : ∀ i, (if s.wheel i = none then 0 else 1) =
          r.expired.count i + if s.wheel.remove r.expired i = none then 0 else 1 := by
        intro i
        have hHere := hNext.count i
        rw [hCount, expirations_snoc, List.count_append, Round.entered, if_neg hAgain,
          next_last hSilent hAgain] at hHere
        simp only [List.count_nil] at hHere
        omega
      refine ⟨List.nodup_iff_count_le_one.mpr fun i => ?_, fun i hMem hNone => ?_⟩
      · have hHere := hEach i
        split_ifs at hHere <;> omega
      · have hHere := hEach i
        have hPos := List.count_pos_iff.mpr hMem
        rw [if_pos hNone] at hHere
        omega
    · intro hSettles
      have hTakes := hSettles hAgain
      refine ⟨(inWheel_iff hn _).mpr
        (inWheel_next hSilent (fun hLess => absurd hLess hAgain) hSettles hInWheel), fun i => ?_⟩
      rw [hCount, expirations_snoc, List.count_append, Round.entered, if_neg hAgain,
        next_last hSilent hAgain]
      by_cases hMem : i ∈ r.expired
      · simp [Timers.remove_of_mem hMem, hTakes.pending i hMem,
          List.count_eq_one_of_mem hTakes.nodup hMem]
      · simp [Timers.remove_of_notMem hMem, List.count_eq_zero_of_not_mem hMem]

end WheelRun

/-- Nothing has expired at the start. -/
theorem counted_start (nIter : Nat) (currentTimeIndex : UInt64) (draw : Fin n → Draw) :
    (WheelRun.start o nIter currentTimeIndex draw).Counted o zvec
      (.start o nIter currentTimeIndex draw) [] where
  reached := rfl
  expired := rfl
  errors := by
    change (List.replicate 1024 (0 : UInt32)).sum = 0
    rw [List.sum_replicate, nsmul_zero]
  full _ hNone := nomatch hNone

theorem accounts_start (hn : n < 2 ^ 32) (nIter : Nat) (currentTimeIndex : UInt64)
    (draw : Fin n → Draw) :
    (WheelRun.start o nIter currentTimeIndex draw).Accounts o zvec
      (.start o nIter currentTimeIndex draw) [] where
  inWheel := (inWheel_iff hn _).mpr (inWheel_start ..)
  count i := by
    have hOnce : (List.finRange n).count i = 1 :=
      List.count_eq_one_of_mem (List.nodup_finRange n) (List.mem_finRange i)
    change (List.finRange n ++ []).count i = 0 + 1
    rw [List.append_nil, hOnce]

/-- As long as no check fails, the expirations and the errors are counted as
they come. The account of the events is right all the time exactly if the
wheel hands out nothing twice, and nothing that it does not hold, in the rounds
that enter nothing again. -/
theorem wheel_accounts (hn : n < 2 ^ 32) (nIter : Nat) (currentTimeIndex : UInt64)
    (draw : Fin n → Draw) {rounds : List (Round n)}
    (hSilent : ∀ verdict ∈
      (testTimingWheelMain o zvec).trace (.start o nIter currentTimeIndex draw) rounds,
      verdict = none) :
    let start := WheelRun.start o nIter currentTimeIndex draw
    let s := (testTimingWheelMain o zvec).run start rounds
    s.test.nExpired = UInt64.ofNat (expirations rounds).length ∧
      s.test.errorHist.sum = UInt32.ofNat (expirations rounds).length ∧
      ((∀ past, past <+: rounds →
          ((testTimingWheelMain o zvec).run start past).Accounts o zvec start past) ↔
        (testTimingWheelMain o zvec).Meets WheelRun.Settles start rounds) := by
  intro start s
  rw [silent_iff_meets] at hSilent
  have hCounted : ∀ past, past <+: rounds →
      ((testTimingWheelMain o zvec).run start past).Counted o zvec start past := by
    rintro past ⟨rest, rfl⟩
    exact ((Machine.meets_append ..).mp hSilent).1.invariant_inputs
      (fun past s => s.Counted o zvec start past) (fun past s r hNone h => h.next hNone)
      (counted_start ..)
  refine ⟨(hCounted rounds (List.prefix_refl _)).expired,
    (hCounted rounds (List.prefix_refl _)).errors, ?_⟩
  clear s
  induction rounds using List.reverseRecOn with
  | nil =>
      refine iff_of_true (fun past hPrefix => ?_) (Machine.meets_nil _)
      rw [List.prefix_nil.mp hPrefix]
      exact accounts_start hn ..
  | append_singleton earlier r ih =>
      rw [Machine.meets_append] at hSilent ⊢
      have hNone := ((Machine.meets_cons ..).mp hSilent.2).1
      have hBefore := ih hSilent.1 fun past hPrefix => hCounted past (hPrefix.trans
        (List.prefix_append earlier [r]))
      have hHere := hCounted earlier (List.prefix_append earlier [r])
      have hLast : (testTimingWheelMain o zvec).run start (earlier ++ [r]) =
          (testTimingWheelMain o zvec).next ((testTimingWheelMain o zvec).run start earlier) r := by
        rw [Machine.run_append]
        rfl
      rw [← hBefore, Machine.meets_cons]
      constructor
      · intro hAll
        have hEarlier : ∀ past, past <+: earlier →
            ((testTimingWheelMain o zvec).run start past).Accounts o zvec start past :=
          fun past hPrefix => hAll past (hPrefix.trans (List.prefix_append earlier [r]))
        refine ⟨hEarlier, ?_, Machine.meets_nil _⟩
        have hNext := hAll (earlier ++ [r]) (List.prefix_refl _)
        rw [hLast] at hNext
        exact (hHere.accounts_next hn hNone (hEarlier earlier (List.prefix_refl _))).mp hNext
      · rintro ⟨hEarlier, hSettles, -⟩ past hPrefix
        rcases List.prefix_concat_iff.mp hPrefix with rfl | hPast
        · rw [hLast]
          exact (hHere.accounts_next hn hNone (hEarlier earlier (List.prefix_refl _))).mpr hSettles
        · exact hEarlier past hPast

/-- Two events are put in twice more and taken out five times in all. -/
theorem wheel_accounts_twoRenewed :
    ((testTimingWheelMain oneClock Int.toNat).run
        (.start oneClock 2 0 fun i => ⟨UInt32.ofNat i, 0⟩) twoRenewed).test.nExpired = 5 ∧
      ∀ past, past <+: twoRenewed →
        ((testTimingWheelMain oneClock Int.toNat).run
          (.start oneClock 2 0 fun i => ⟨UInt32.ofNat i, 0⟩) past).Accounts oneClock Int.toNat
            (.start oneClock 2 0 fun i => ⟨UInt32.ofNat i, 0⟩) past := by
  have hSettles : (testTimingWheelMain oneClock Int.toNat).Meets WheelRun.Settles
      (.start oneClock 2 0 fun i => ⟨UInt32.ofNat i, 0⟩) twoRenewed := by
    decide +kernel
  have hFive : UInt64.ofNat (expirations twoRenewed).length = 5 := by
    decide +kernel
  have hSilent : ∀ verdict ∈ (testTimingWheelMain oneClock Int.toNat).trace
      (.start oneClock 2 0 fun i => ⟨UInt32.ofNat i, 0⟩) twoRenewed, verdict = none := by
    decide +kernel
  obtain ⟨hExpired, -, hAccounts⟩ := wheel_accounts (by decide) 2 0 _ hSilent
  exact ⟨hExpired.trans hFive, hAccounts.mpr hSettles⟩

end DpdkPerf.VppTest
