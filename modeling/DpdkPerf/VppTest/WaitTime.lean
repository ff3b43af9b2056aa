import DpdkPerf.VppTest.Scheduler
import Mathlib.Data.List.Induction

/-! What the wait of a process returns. One operand of the subtraction is a
local variable from before the process was suspended, the other is stored by
the dispatcher while it is. -/
namespace DpdkPerf.VppTest

variable {ι : Type*} [DecidableEq ι] {ticks : Nat → UInt64} {s t : Sched ι} {p q : ι}

/-- A wait that returns: the operands of its subtraction and the result, which
is converted to `f64` for the process. -/
structure Elapsed where
  wakeupTime : UInt64
  lastTimeStamp : UInt64
  value : UInt64
  deriving DecidableEq, Repr

def Sched.waitReturn (s : Sched ι) (p : ι) : Option Elapsed :=
  match s.control.top with
  | .vlibProcessWait q wakeupTime (.ret value) :: _ =>
      if q = p then some ⟨wakeupTime, (s.process p).lastTimeStamp, value⟩ else none
  | _ => none

/-- Control comes to the return of a wait of `p`, for the first time. -/
inductive NextReturn (ticks : Nat → UInt64) (p : ι) : Sched ι → Elapsed → Prop where
  | here {s : Sched ι} {e : Elapsed} (returns : s.waitReturn p = some e) : NextReturn ticks p s e
  | step {s t : Sched ι} {e : Elapsed} (busy : s.waitReturn p = none)
      (first : s.step ticks = some t) (rest : NextReturn ticks p t e) : NextReturn ticks p s e

/-- The value is the time from `stamp` to `now`, without wrapping. -/
structure Elapsed.Exact (e : Elapsed) (stamp now : UInt64) : Prop where
  noWrap : e.lastTimeStamp ≤ e.wakeupTime
  value_eq : e.value.toNat = now.toNat - stamp.toNat

def Command.calls (p : ι) : Command ι → Bool
  | .stamp _ => false
  | .startProcess q => q = p
  | .vlibProcessResume q => q = p

/-- The number of the last command that called `p`: the process has entered
its wait in that call. -/
def waitedAt (p : ι) (commands : List (Command ι)) : Nat :=
  commands.length - 1 - commands.reverse.findIdx (Command.calls p)

/-- `start` has carried out `before`, and then `p` is signaled: the wait that
the process returns from gives the time from the stamp to `now`. -/
def SignalExact (ticks : Nat → UInt64) (start : Sched ι) (before : List (Command ι)) (p : ι)
    (now : UInt64) : Prop :=
  ∀ s, Runs ticks start (before ++ [.stamp p]) s →
    ∀ e, NextReturn ticks p (s.issue ticks (.vlibProcessResume p)) e →
      e.Exact (ticks before.length) now

/-- All waits that end in the run return the time from their stamp to their
wake-up. `wake n` is the time between the readings `n` and `n + 1`. -/
def WaitsExact (ticks wake : Nat → UInt64) (start : Sched ι) (commands : List (Command ι)) : Prop :=
  ∀ before p after, commands = before ++ .stamp p :: .vlibProcessResume p :: after →
    SignalExact ticks start before p (wake before.length)

/-- There is one next return. -/
theorem NextReturn.unique {e e' : Elapsed} (h : NextReturn ticks p s e)
    (h' : NextReturn ticks p s e') : e = e' := by
  induction h with
  | here returns =>
      cases h' with
      | here returns' => exact Option.some.inj (returns.symm.trans returns')
      | step busy' => cases returns.symm.trans busy'
  | step busy first rest ih =>
      cases h' with
      | here returns' => cases busy.symm.trans returns'
      | step busy' first' rest' =>
          obtain rfl := Option.some.inj (first.symm.trans first')
          exact ih rest'

theorem waitedAt_le (p : ι) (commands : List (Command ι)) : waitedAt p commands ≤ commands.length :=
  Nat.le_trans (Nat.sub_le _ _) (Nat.sub_le _ _)

theorem waitedAt_snoc_of_calls {commands : List (Command ι)} {command : Command ι}
    (h : command.calls p = true) : waitedAt p (commands ++ [command]) = commands.length := by
  simp [waitedAt, List.findIdx_cons, h]

theorem waitedAt_snoc_of_not_calls {commands : List (Command ι)} {command : Command ι}
    (h : command.calls p = false) : waitedAt p (commands ++ [command]) = waitedAt p commands := by
  simp only [waitedAt, List.reverse_append, List.reverse_singleton, List.singleton_append,
    List.findIdx_cons, h, List.length_append, List.length_singleton, cond_false]
  omega

/-- After any commands there has been one reading for each, and a process that
waits has kept the one it made when it entered the wait. -/
structure Sched.Clocked (ticks : Nat → UInt64) (commands : List (Command ι)) (s : Sched ι) :
    Prop where
  readings : s.readings = commands.length
  suspended : ∀ p ∈ started commands, ∃ handle waitId,
    s.Suspended p handle waitId (ticks (waitedAt p commands))

variable {commands : List (Command ι)}

/-- A time stamp reads the clock once and runs no process. -/
theorem Sched.Clocked.stamp (h : s.Clocked ticks commands) (p : ι) :
    (s.issue ticks (.stamp p)).Clocked ticks (commands ++ [.stamp p]) where
  readings := by
    rw [List.length_append, ← h.readings]
    rfl
  suspended q hMem := by
    rw [started_append] at hMem
    obtain ⟨handle, waitId, hFrames, hBuf⟩ := h.suspended q (by simpa [started] using hMem)
    rw [waitedAt_snoc_of_not_calls rfl]
    refine ⟨handle, waitId, hFrames, Eq.trans ?_ hBuf⟩
    unfold issue
    by_cases hSelf : q = p
    · subst hSelf
      rw [setProcess_process]
    · rw [setProcess_process_of_ne hSelf]
      rfl

/-- A process that is run reads the clock before it suspends. -/
theorem Called.clocked {handle : Handle} {r : UInt64} {printed : List Warning}
    {command : Command ι} (h : s.Clocked ticks commands)
    (hCalled : Called ticks p handle r printed s t) (hCalls : ∀ q, command.calls q = decide (p = q))
    (hStarted : ∀ q, q ≠ p → q ∈ started (commands ++ [command]) → q ∈ started commands) :
    t.Clocked ticks (commands ++ [command]) where
  readings := by
    rw [hCalled.readings, h.readings]
    simp
  suspended q hMem := by
    by_cases hSelf : q = p
    · subst hSelf
      rw [waitedAt_snoc_of_calls ((hCalls q).trans (decide_eq_true rfl)), ← h.readings]
      exact ⟨handle, _, hCalled.suspended⟩
    · obtain ⟨handle, waitId, hFrames, hBuf⟩ := h.suspended q (hStarted q hSelf hMem)
      rw [waitedAt_snoc_of_not_calls ((hCalls q).trans (decide_eq_false (Ne.symm hSelf)))]
      refine ⟨handle, waitId, ?_, ?_⟩
      · rw [hCalled.elsewhere.frames q hSelf, hFrames]
      · rw [hCalled.elsewhere.process q hSelf, hBuf]

/-- A run of the dispatcher ends with control at the dispatcher. -/
theorem Runs.exists_atMain {id : ι → UInt8} {handle : ι → Handle} (hLegal : Legal commands)
    (hRuns : Runs ticks (.initial id handle) commands s) : ∃ r, s.AtMain r := by
  obtain ⟨s', hRuns', hDispatched⟩ := dispatched_run ticks id handle hLegal
  obtain rfl := hRuns.unique hRuns'
  exact hDispatched.atMain

/-- Legal commands keep to the clock. -/
theorem clocked_run (ticks : Nat → UInt64) (id : ι → UInt8) (handle : ι → Handle)
    (hLegal : Legal commands) :
    ∃ s, Runs ticks (.initial id handle) commands s ∧ s.Clocked ticks commands := by
  induction hLegal with
  | nil => exact ⟨_, .nil, rfl, fun _ hMem => absurd hMem List.not_mem_nil⟩
  | stamp before p ih =>
      obtain ⟨s, hRuns, h⟩ := ih
      obtain ⟨r, hMain⟩ := hRuns.exists_atMain before
      exact ⟨_, .snoc hRuns ⟨.refl, hMain.current, hMain.frames⟩, h.stamp p⟩
  | @startProcess commands before p new ih =>
      obtain ⟨s, hRuns, h⟩ := ih
      obtain ⟨r, hMain⟩ := hRuns.exists_atMain before
      obtain ⟨t, hSteps, hCalled⟩ := start_called ticks p hMain
      refine ⟨t, .snoc hRuns ⟨hSteps, hCalled.atMain⟩, hCalled.clocked h (fun q => rfl) ?_⟩
      intro q hOther hMem
      simpa [started, hOther] using hMem
  | @vlibProcessResume commands before p known ih =>
      obtain ⟨s, hRuns, h⟩ := ih
      obtain ⟨r, hMain⟩ := hRuns.exists_atMain before
      obtain ⟨handle, waitId, hSuspended⟩ := h.suspended p known
      obtain ⟨u, t, hWake, -, -, hSteps, hCalled⟩ := resume_called ticks hMain hSuspended
      refine ⟨t, .snoc hRuns ⟨hWake.trans hSteps, hCalled.atMain⟩,
        hCalled.clocked h (fun q => rfl) ?_⟩
      intro q hOther hMem
      simpa [started] using hMem

/-- A process that is resumed returns from its wait first. -/
theorem resume_returns {handle : Handle} {waitId : UInt32} {wakeupTime r : UInt64}
    (hMain : s.AtMain r) (hSuspended : s.Suspended p handle waitId wakeupTime) :
    NextReturn ticks p (s.issue ticks (.vlibProcessResume p))
      ⟨wakeupTime, (s.process p).lastTimeStamp, wakeupTime - (s.process p).lastTimeStamp⟩ := by
  have hBegin : (s.issue ticks (.vlibProcessResume p)).waitReturn p = none := by
    rw [show s.issue ticks (.vlibProcessResume p) = s.on .main _ from hMain.withTop _]
    rfl
  have hStamp : ((s.resuming p).process p).lastTimeStamp = (s.process p).lastTimeStamp := by
    rw [Sched.resuming_process]
  have hWoken : ∀ frames, ((s.resuming p).on (.process p)
      (.vlibProcessWait p wakeupTime (.jumped processResumeLongjmpResume) :: frames)).waitReturn p =
        none := by
    intro frames
    unfold Sched.waitReturn
    rw [Sched.on_top]
  have hReturn : ∀ value frames, ((s.resuming p).on (.process p)
      (.vlibProcessWait p wakeupTime (.ret value) :: frames)).waitReturn p =
        some ⟨wakeupTime, (s.process p).lastTimeStamp, value⟩ := by
    intro value frames
    unfold Sched.waitReturn
    rw [Sched.on_top, ← hStamp]
    exact if_pos rfl
  refine .step hBegin (issue_resume hMain) <| .step rfl (step_resuming hSuspended) <|
    .step (hWoken _) Sched.step_wait_resumed ?_
  rw [hStamp]
  exact .here (hReturn _ _)

omit [DecidableEq ι] in
/-- The last of legal commands resumes a process that was started. -/
theorem Legal.of_snoc {command : Command ι} (h : Legal (commands ++ [command])) :
    Legal commands ∧ ∀ p, command = .vlibProcessResume p → p ∈ started commands := by
  generalize hAll : commands ++ [command] = all at h
  cases h with
  | nil => simp at hAll
  | stamp before p =>
      obtain ⟨rfl, hLast⟩ := List.append_inj' hAll rfl
      obtain rfl := (List.cons.inj hLast).1
      exact ⟨before, fun p hSame => nomatch hSame⟩
  | startProcess before new =>
      obtain ⟨rfl, hLast⟩ := List.append_inj' hAll rfl
      obtain rfl := (List.cons.inj hLast).1
      exact ⟨before, fun p hSame => nomatch hSame⟩
  | vlibProcessResume before known =>
      obtain ⟨rfl, hLast⟩ := List.append_inj' hAll rfl
      obtain rfl := (List.cons.inj hLast).1
      refine ⟨before, fun p hSame => ?_⟩
      obtain rfl := Command.vlibProcessResume.inj hSame
      exact known

omit [DecidableEq ι] in
/-- The first of legal commands are legal. -/
theorem Legal.of_append {before after : List (Command ι)} (h : Legal (before ++ after)) :
    Legal before := by
  induction after using List.reverseRecOn with
  | nil => simpa using h
  | append_singleton after command ih =>
      rw [← List.append_assoc] at h
      exact ih h.of_snoc.1

/-- Earlier readings are not ahead of later ones. -/
theorem ticks_le {wake : Nat → UInt64} (hClock : ∀ n, ticks n ≤ wake n ∧ wake n ≤ ticks (n + 1))
    {m n : Nat} (h : m ≤ n) : ticks m ≤ ticks n := by
  induction h with
  | refl => exact UInt64.le_refl _
  | step _ ih => exact UInt64.le_trans ih (UInt64.le_trans (hClock _).1 (hClock _).2)

/-- The time is right exactly if none has passed since the process entered the
wait: the difference wraps as soon as the stamp is any later. -/
theorem Elapsed.exact_iff {wakeupTime stamp now : UInt64} (hEarlier : wakeupTime ≤ stamp)
    (hLater : stamp ≤ now) :
    (⟨wakeupTime, stamp, wakeupTime - stamp⟩ : Elapsed).Exact stamp now ↔ wakeupTime = now := by
  constructor
  · rintro ⟨hNoWrap, hValue⟩
    obtain rfl := UInt64.le_antisymm hEarlier hNoWrap
    rw [UInt64.le_iff_toNat_le] at hLater
    apply UInt64.toNat_inj.mp
    simp only [UInt64.sub_self, UInt64.toNat_zero] at hValue
    omega
  · rintro rfl
    obtain rfl := UInt64.le_antisymm hEarlier hLater
    exact ⟨UInt64.le_refl _, by simp⟩

/-- The time that the wait gives is exact if and only if the clock has not
moved since the process entered its wait. -/
theorem signalExact_iff {wake : Nat → UInt64}
    (hClock : ∀ n, ticks n ≤ wake n ∧ wake n ≤ ticks (n + 1)) (id : ι → UInt8)
    (handle : ι → Handle) (hLegal : Legal commands) (hStarted : p ∈ started commands) :
    SignalExact ticks (.initial id handle) commands p (wake commands.length) ↔
      ticks (waitedAt p commands) = wake commands.length := by
  obtain ⟨s, hRuns, hClocked⟩ := clocked_run ticks id handle hLegal
  obtain ⟨r, hMain⟩ := hRuns.exists_atMain hLegal
  have hStampMain : (s.issue ticks (.stamp p)).AtMain r := ⟨hMain.current, hMain.frames⟩
  have hSignaled : Runs ticks (.initial id handle) (commands ++ [.stamp p])
      (s.issue ticks (.stamp p)) := .snoc hRuns ⟨.refl, hStampMain⟩
  have hStarted' : p ∈ started (commands ++ [.stamp p]) := by
    rw [started_append]
    exact List.mem_append_left _ hStarted
  obtain ⟨demo, waitId, hSuspended⟩ := (hClocked.stamp p).suspended p hStarted'
  rw [waitedAt_snoc_of_not_calls rfl] at hSuspended
  have hStamp : ((s.issue ticks (.stamp p)).process p).lastTimeStamp = ticks commands.length := by
    unfold Sched.issue
    rw [Sched.setProcess_process, hClocked.readings]
  have hReturns : NextReturn ticks p
      ((s.issue ticks (.stamp p)).issue ticks (.vlibProcessResume p)) _ :=
    resume_returns hStampMain hSuspended
  rw [hStamp] at hReturns
  have hExact := Elapsed.exact_iff (ticks_le hClock (waitedAt_le p commands))
    (hClock commands.length).1
  constructor
  · intro hSignal
    exact hExact.mp (hSignal _ hSignaled _ hReturns)
  · intro hStill s' hRuns' e hNext
    obtain rfl := hRuns'.unique hSignaled
    obtain rfl := hNext.unique hReturns
    exact hExact.mpr hStill

/-- In any run, all waits return the time from the stamp to the wake-up
exactly if the clock stands still while a process waits: `wakeup_time` is read
when the wait begins. -/
theorem waitsExact_iff {wake : Nat → UInt64}
    (hClock : ∀ n, ticks n ≤ wake n ∧ wake n ≤ ticks (n + 1)) (id : ι → UInt8)
    (handle : ι → Handle) (hLegal : Legal commands) :
    WaitsExact ticks wake (.initial id handle) commands ↔
      ∀ before p after, commands = before ++ .stamp p :: .vlibProcessResume p :: after →
        ticks (waitedAt p before) = wake before.length := by
  refine forall₄_congr fun before p after hSplit => ?_
  have hSignaled : Legal (before ++ [.stamp p] ++ [.vlibProcessResume p]) := by
    have hAll : Legal (before ++ [.stamp p] ++ [.vlibProcessResume p] ++ after) := by
      rw [hSplit] at hLegal
      simpa using hLegal
    exact hAll.of_append
  have hStarted := hSignaled.of_snoc.2 p rfl
  rw [started_append] at hStarted
  exact signalExact_iff hClock id handle hSignaled.of_snoc.1.of_snoc.1
    (by simpa [started] using hStarted)

/-- A process that is started and then signaled once. -/
def signaledOnce : List (Command Unit) :=
  [.stamp (), .startProcess (), .stamp (), .vlibProcessResume ()]

theorem legal_signaledOnce : Legal signaledOnce :=
  .vlibProcessResume (.stamp (.startProcess (.stamp .nil ()) (by decide)) ()) (by decide)

/-- On a clock that stands still. -/
theorem waitsExact_iff_still :
    WaitsExact (fun _ => 7) (fun _ => 7) (.initial (fun _ => 0) fun _ => .demo2) signaledOnce :=
  (waitsExact_iff (fun _ => ⟨UInt64.le_refl _, UInt64.le_refl _⟩) _ _ legal_signaledOnce).mpr
    fun _ _ _ _ => rfl

/-- On a clock that goes on by a tick with each reading the wait begins at 1,
and the stamp is 2. -/
theorem not_waitsExact :
    let ticks : Nat → UInt64 := fun n => UInt64.ofNat (min n 9)
    (∀ n, ticks n ≤ ticks (n + 1)) ∧ Legal signaledOnce ∧
      ¬ WaitsExact ticks ticks (.initial (fun _ => 0) fun _ => .demo2) signaledOnce := by
  intro ticks
  have hClock : ∀ n, ticks n ≤ ticks (n + 1) := by
    intro n
    rw [UInt64.le_iff_toNat_le, UInt64.toNat_ofNat', UInt64.toNat_ofNat']
    omega
  have hStarted : Legal ([.stamp (), .startProcess ()] : List (Command Unit)) :=
    .startProcess (.stamp .nil ()) (by decide)
  refine ⟨hClock, legal_signaledOnce, fun hExact => ?_⟩
  have hSignal := hExact [.stamp (), .startProcess ()] () [] rfl
  rw [signalExact_iff (fun n => ⟨UInt64.le_refl _, hClock n⟩) _ _ hStarted (by decide)] at hSignal
  exact absurd hSignal (by decide)

end DpdkPerf.VppTest
